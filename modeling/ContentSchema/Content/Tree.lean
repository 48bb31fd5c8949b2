import ContentSchema.Content.Location
import ContentSchema.Entries

/-!
# Files and folders

A tree of folders with files as its leaves, and places in it, from which steps lead down to
an entry or up to the folder around.
-/

namespace ContentSchema

inductive FileTree
  | file (contents : List UInt8)
  | folder (entries : List (String × FileTree))

namespace FileTree

instance : Inhabited FileTree := ⟨folder []⟩

def isFolder : FileTree → Bool
  | file _ => false
  | folder _ => true

def entries : FileTree → List (String × FileTree)
  | file _ => []
  | folder entries => entries

def putAt (content : FileTree) : List String → FileTree → FileTree
  | [], tree => if content.isFolder && tree.isFolder then tree else content
  | step :: rest, tree =>
      let inner := (Entries.get? tree.entries step).getD (folder [])
      folder (Entries.put tree.entries step (putAt content rest inner))

def write (tree : FileTree) (l : Location) (content : FileTree) : FileTree :=
  putAt content l.steps tree

end FileTree

/-- A place in a tree, with the folders around it from the inside out. -/
structure Place where
  tree : FileTree
  around : List FileTree

namespace Place

def top (tree : FileTree) : Place :=
  ⟨tree, []⟩

def step? (p : Place) (name : String) : Option Place :=
  match p.tree with
  | .file _ => none
  | .folder entries =>
      if name == ".." then
        match p.around with
        | [] => none
        | tree :: around => some ⟨tree, around⟩
      else (Entries.get? entries name).map (fun tree => ⟨tree, p.tree :: p.around⟩)

def walk? (p : Place) : List String → Option Place
  | [] => some p
  | name :: rest => (p.step? name).bind (fun q => q.walk? rest)

def find? (current : Place) (l : Location) : Option Place :=
  if l.root.isEmpty then current.walk? l.steps else none

end Place
end ContentSchema
