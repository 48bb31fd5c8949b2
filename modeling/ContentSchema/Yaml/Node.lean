import ContentSchema.Yaml.Tag
import ContentSchema.Yaml.TokenStream

/-!
# Nodes

The tree that a text describes, with the tag of every node settled and every alias replaced
by the node that it stands for.  An alias inside of its own node makes the node contain itself,
which no tree does; it is kept as a mark.  A text holds at most one document.
-/

namespace ContentSchema
namespace Yaml

inductive Node
  | scalar (tag : Tag) (place : Nat) (contents : String)
  | sequence (tag : Tag) (items : List Node)
  | mapping (tag : Tag) (place : Nat) (entries : List (Node × Node))
  | enclosing

namespace Node

def empty : Node :=
  scalar .null 0 ""

instance : Inhabited Node := ⟨empty⟩

def tag : Node → Tag
  | scalar tag _ _ => tag
  | sequence tag _ => tag
  | mapping tag _ _ => tag
  | enclosing => .sequence

mutual

/-- Whether a node in the tree contains itself. -/
def isCyclic : Node → Bool
  | scalar _ _ _ => false
  | sequence _ items => anyCyclic items
  | mapping _ _ entries => anyCyclicEntry entries
  | enclosing => true

def anyCyclic : List Node → Bool
  | [] => false
  | n :: rest => n.isCyclic || anyCyclic rest

def anyCyclicEntry : List (Node × Node) → Bool
  | [] => false
  | (key, value) :: rest => key.isCyclic || value.isCyclic || anyCyclicEntry rest

end

end Node

/-!
## Reading tokens
-/

/-- What is known while a document is read: how many tokens are passed, the tokens that are
left and the failure behind them, the handles of tags, and the nodes of the anchors. -/
structure Composition where
  passed : Nat
  tokens : List Token
  failure : Failure
  handles : List (String × String)
  anchors : List (String × Node)

abbrev Compose (α : Type) := StateT Composition Outcome α

namespace Compose

def peek : Compose Token := do
  let s ← get
  match s.tokens with
  | t :: _ => return t
  | [] => throw s.failure

def skip : Compose Unit :=
  modify (fun s => { s with passed := s.passed + 1, tokens := s.tokens.drop 1 })

def place : Compose Nat := do
  return (← get).passed

def skipIf (t : Token) : Compose Bool := do
  if (← peek) = t then
    skip
    return true
  else return false

def expect (t : Token) : Compose Unit := do
  if !(← skipIf t) then throw .malformed

/-!
## Anchors and tags
-/

def resolveAlias (name : String) : Compose Node := do
  match Entries.get? (← get).anchors name with
  | some node => return node
  | none => throw .malformed

def openAnchor (anchor : Option String) : Compose Unit := do
  match anchor with
  | some name =>
      if Entries.has (← get).anchors name then throw .malformed
      modify (fun s => { s with anchors := Entries.put s.anchors name .enclosing })
  | none => return ()

def closeAnchor (anchor : Option String) (node : Node) : Compose Node := do
  match anchor with
  | some name =>
      modify (fun s => { s with anchors := Entries.put s.anchors name node })
      return node
  | none => return node

def tagName (t : TagText) : Compose String := do
  match t with
  | .complete name => return name
  | .short handle suffix =>
      match Entries.get? (← get).handles handle with
      | some start => return start ++ suffix
      | none => throw .malformed

structure Properties where
  anchor : Option String
  tag : Option String

def takeAnchor : Compose (Option String) := do
  match ← peek with
  | .anchor name =>
      skip
      return some name
  | _ => return none

def takeTag : Compose (Option TagText) := do
  match ← peek with
  | .tag t =>
      skip
      return some t
  | _ => return none

def takeProperties : Compose Properties := do
  let first ← takeAnchor
  let tag ← takeTag
  let anchor ←
    match first, tag with
    | none, some _ => takeAnchor
    | _, _ => pure first
  match tag with
  | some t => return ⟨anchor, some (← tagName t)⟩
  | none => return ⟨anchor, none⟩

/-- The tag of a scalar: the declared one, or else the one that its form calls for, which is
asked for plain scalars and for scalars tagged with an exclamation mark alone. -/
def scalarTag (declared : Option String) (isPlain : Bool) (contents : String) : Tag :=
  match declared with
  | some "!" => .ofForm contents
  | some name => .ofName name
  | none => if isPlain then .ofForm contents else .text

def collectionTag (declared : Option String) (usual : Tag) : Tag :=
  match declared with
  | some "!" => usual
  | some name => .ofName name
  | none => usual

/-!
## Nodes

Every step below goes past a token before it calls another, so the number of tokens bounds
the depth of the calls.
-/

def endsBlockEntry : Token → Bool
  | .key => true
  | .value => true
  | .blockEnd => true
  | _ => false

/-- Whether a token ends an item of a block sequence that has nothing written in it; without
an indentation of its own the sequence ends where the mapping around it goes on. -/
def endsBlockItem (indented : Bool) : Token → Bool
  | .blockEntry => true
  | .blockEnd => true
  | .key => !indented
  | .value => !indented
  | _ => false

def endsFlowPart (closing : Token) (t : Token) : Bool :=
  t = .flowEntry || t = closing

mutual

/-- A node.  Block collections may start here, or a block sequence without an indentation of
its own. -/
def node (inBlock indentless : Bool) : Nat → Compose Node
  | 0 => throw .malformed
  | fuel + 1 => do
      match ← peek with
      | .alias name =>
          skip
          resolveAlias name
      | _ =>
          let p ← takeProperties
          let t ← peek
          openAnchor p.anchor
          let start ← place
          match t with
          | .scalar contents isPlain =>
              skip
              closeAnchor p.anchor (.scalar (scalarTag p.tag isPlain contents) start contents)
          | .flowSequenceStart =>
              skip
              let items ← flowItems true fuel
              closeAnchor p.anchor (.sequence (collectionTag p.tag .sequence) items)
          | .flowMappingStart =>
              skip
              let entries ← flowEntries true fuel
              closeAnchor p.anchor (.mapping (collectionTag p.tag .mapping) start entries)
          | t =>
              if indentless && t = .blockEntry then
                let items ← blockItems false fuel
                closeAnchor p.anchor (.sequence (collectionTag p.tag .sequence) items)
              else if inBlock && t = .blockSequenceStart then
                skip
                let items ← blockItems true fuel
                closeAnchor p.anchor (.sequence (collectionTag p.tag .sequence) items)
              else if inBlock && t = .blockMappingStart then
                skip
                let entries ← blockEntries fuel
                closeAnchor p.anchor (.mapping (collectionTag p.tag .mapping) start entries)
              else if p.anchor.isSome || p.tag.isSome then
                closeAnchor p.anchor (.scalar (scalarTag p.tag true "") start "")
              else throw .malformed

def blockItems (indented : Bool) : Nat → Compose (List Node)
  | 0 => throw .malformed
  | fuel + 1 => do
      if ← skipIf .blockEntry then
        let item ← if endsBlockItem indented (← peek) then pure Node.empty else node true false fuel
        return item :: (← blockItems indented fuel)
      else
        if indented then expect .blockEnd
        return []

def blockEntries : Nat → Compose (List (Node × Node))
  | 0 => throw .malformed
  | fuel + 1 => do
      if (← peek) = .blockEnd then
        skip
        return []
      else
        expect .key
        let key ← if endsBlockEntry (← peek) then pure Node.empty else node true true fuel
        let value ←
          if ← skipIf .value then
            if endsBlockEntry (← peek) then pure Node.empty else node true true fuel
          else pure Node.empty
        return (key, value) :: (← blockEntries fuel)

def flowItems (isFirst : Bool) : Nat → Compose (List Node)
  | 0 => throw .malformed
  | fuel + 1 => do
      if ← skipIf .flowSequenceEnd then return []
      else
        if !isFirst then expect .flowEntry
        if ← skipIf .flowSequenceEnd then return []
        else
          let item ←
            if ← skipIf .key then do
              let entry ← flowPair .flowSequenceEnd fuel
              pure (Node.mapping .mapping 0 [entry])
            else node false false fuel
          return item :: (← flowItems false fuel)

def flowEntries (isFirst : Bool) : Nat → Compose (List (Node × Node))
  | 0 => throw .malformed
  | fuel + 1 => do
      if ← skipIf .flowMappingEnd then return []
      else
        if !isFirst then expect .flowEntry
        if ← skipIf .flowMappingEnd then return []
        else
          let entry ←
            if ← skipIf .key then flowPair .flowMappingEnd fuel
            else do
              let key ← node false false fuel
              pure (key, Node.empty)
          return entry :: (← flowEntries false fuel)

def flowPair (closing : Token) : Nat → Compose (Node × Node)
  | 0 => throw .malformed
  | fuel + 1 => do
      let t ← peek
      let key ←
        if t = .value || endsFlowPart closing t then pure Node.empty else node false false fuel
      let value ←
        if ← skipIf .value then
          if endsFlowPart closing (← peek) then pure Node.empty else node false false fuel
        else pure Node.empty
      return (key, value)

end

/-!
## The document
-/

def standardHandles : List (String × String) :=
  [("!", "!"), ("!!", Tag.standard)]

def directives (hasVersion : Bool) (handles : List (String × String)) :
    Nat → Compose (List (String × String))
  | 0 => throw .malformed
  | fuel + 1 => do
      match ← peek with
      | .directive (.version major) =>
          skip
          if hasVersion || major ≠ 1 then throw .malformed
          directives true handles fuel
      | .directive (.tagHandle handle replacement) =>
          skip
          if Entries.has handles handle then throw .malformed
          directives hasVersion (Entries.put handles handle replacement) fuel
      | .directive .other =>
          skip
          directives hasVersion handles fuel
      | _ => return handles

def documentStart (fuel : Nat) : Compose Unit := do
  let declared ← directives false [] fuel
  let handles := declared ++ standardHandles
  modify (fun s => { s with handles := handles })
  expect .documentStart

def endsDocument : Token → Bool
  | .directive _ => true
  | .documentStart => true
  | .documentEnd => true
  | .streamEnd => true
  | _ => false

def documentEnds : Nat → Compose Unit
  | 0 => throw .malformed
  | fuel + 1 => do
      if ← skipIf .documentEnd then documentEnds fuel

def document (fuel : Nat) : Compose (Option Node) := do
  match ← peek with
  | .streamEnd => return none
  | t =>
      let isExplicit : Bool :=
        match t with
        | .directive _ => true
        | .documentStart => true
        | _ => false
      if isExplicit then documentStart fuel
      let root ←
        if isExplicit && endsDocument (← peek) then pure Node.empty else node true false fuel
      documentEnds fuel
      if (← peek) = .streamEnd then return some root
      else
        documentStart fuel
        throw .malformed

end Compose

def Node.ofText? (text : List Char) : Outcome (Option Node) := do
  let (tokens, failure) := TokenStream.ofText text
  let start : Composition :=
    ⟨0, tokens, failure.getD .malformed, Compose.standardHandles, []⟩
  let (root, _) ← (Compose.document (2 * tokens.length + 4)).run start
  return root

end Yaml
end ContentSchema
