import ContentSchema.Content.NamePattern
import ContentSchema.Content.Tree
import ContentSchema.Fault

/-!
# Patterns for files

A pattern for files below a folder: steps with slashes between them, each a name, a pattern
for names, or two asterisks for any number of folders.  A pattern that ends with a slash asks
for folders.
-/

namespace ContentSchema
namespace Glob

/-- A step of a pattern; `here` ends a pattern with a slash behind it. -/
inductive Step
  | exactly (name : String)
  | matching (parts : List NamePattern.Part)
  | anyFolders
  | here
deriving DecidableEq

/-!
## Reading
-/

def hasDoubleStar : List Char → Bool
  | '*' :: '*' :: _ => true
  | _ :: rest => hasDoubleStar rest
  | [] => false

def Step.read (text : String) : Answer Step :=
  if text == "**" then .ok .anyFolders
  else if hasDoubleStar text.toList then .error .badValue
  else if NamePattern.isPattern text then .ok (.matching (NamePattern.read text))
  else .ok (.exactly text)

def read (pattern : String) : Answer (List Step) := do
  let l := Location.ofText pattern
  if pattern.isEmpty then .error .badValue
  else if !l.root.isEmpty then .error .unsupportedPattern
  else
    let isFolder := pattern.toList.getLast? = some '/'
    if l.steps.isEmpty then .error (if isFolder then .wrongType else .badIndex)
    else
      let steps ← l.steps.mapM Step.read
      return steps ++ (if isFolder then [.here] else [])

/-!
## Matching
-/

/-- A place with the steps that led to it, the last step first. -/
structure Visit where
  place : Place
  trail : List String

namespace Visit

def step? (v : Visit) (name : String) : Option Visit :=
  (v.place.step? name).map (fun p => ⟨p, name :: v.trail⟩)

def children (v : Visit) : List Visit :=
  v.place.tree.entries.map (fun e => ⟨⟨e.2, v.place.tree :: v.place.around⟩, e.1 :: v.trail⟩)

def isFolder (v : Visit) : Bool :=
  v.place.tree.isFolder

end Visit

mutual

def foldersIn (around : List FileTree) (trail : List String) : FileTree → List Visit
  | .file _ => []
  | .folder entries =>
      ⟨⟨.folder entries, around⟩, trail⟩ ::
        foldersAmong (.folder entries :: around) trail entries

def foldersAmong (around : List FileTree) (trail : List String) :
    List (String × FileTree) → List Visit
  | [] => []
  | (name, tree) :: rest =>
      foldersIn around (name :: trail) tree ++ foldersAmong around trail rest

end

def select : List Step → Visit → List Visit
  | [], v => [v]
  | .here :: _, v => [v]
  | .exactly name :: rest, v =>
      match v.step? name with
      | some w => if rest.isEmpty || w.isFolder then select rest w else []
      | none => []
  | .matching parts :: rest, v =>
      (v.children.filter (fun w =>
        (rest.isEmpty || w.isFolder) &&
          NamePattern.matchesAll parts (w.trail.headD "").toList)).flatMap (select rest)
  | .anyFolders :: rest, v =>
      (foldersIn v.place.around v.trail v.place.tree).flatMap (select rest)

structure File where
  steps : List String
  contents : List UInt8

def Visit.file? (v : Visit) : Option File :=
  match v.place.tree with
  | .file contents => some ⟨v.trail.reverse, contents⟩
  | .folder _ => none

/-- The files below a folder that a pattern selects, in the order of their steps.  Where there
is no folder there are no files, but the pattern must be a pattern all the same. -/
def files (pattern : String) (folder : Option Place) : Answer (List File) := do
  let steps ← read pattern
  match folder with
  | some p =>
      if p.tree.isFolder then
        let found := (select steps ⟨p, []⟩).filterMap Visit.file?
        return found.mergeSort (fun a b => Location.stepsBefore a.steps b.steps)
      else return []
  | none => return []

end Glob
end ContentSchema
