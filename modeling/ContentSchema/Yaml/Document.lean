import ContentSchema.Value.Equality
import ContentSchema.Yaml.Node
import ContentSchema.Yaml.Reader
import ContentSchema.Yaml.ScalarValue

/-!
# Values of documents

The value that a text describes.  A mapping takes in the entries of the mappings under its
merge keys in front of its own, so its own entries win.  When several parts of a document
have no value, the one in the outermost collection decides what the failure is, and of
several in one collection the first.

A text in which a node contains itself describes something that is no value here.  It is refused
for this when nothing else is wrong with it; until then the node stands for null.
-/

namespace ContentSchema
namespace Yaml

/-!
## Failures by depth
-/

/-- A value, or a failure with the number of collections around it. -/
abbrev Placed (α : Type) := Except (Nat × Failure) α

namespace Placed

def reject {α : Type} : Placed α :=
  .error (0, .malformed)

def ofOutcome {α : Type} : Outcome α → Placed α
  | .ok a => .ok a
  | .error failure => .error (0, failure)

def inside {α : Type} : Placed α → Placed α
  | .ok a => .ok a
  | .error (depth, failure) => .error (depth + 1, failure)

/-- Both of two values; of two failures the outer one counts, or else the first. -/
def both {α β γ : Type} (join : α → β → γ) : Placed α → Placed β → Placed γ
  | .ok a, .ok b => .ok (join a b)
  | .ok _, .error e => .error e
  | .error e, .ok _ => .error e
  | .error e, .error e' => .error (if e'.1 < e.1 then e' else e)

def all {α : Type} : List (Placed α) → Placed (List α)
  | [] => .ok []
  | a :: rest => both List.cons a (all rest)

end Placed

/-!
## Scalars
-/

mutual

def Node.contents? : Node → Option String
  | .scalar _ _ contents => some contents
  | .mapping _ _ entries => defaultContents? entries
  | _ => none

def defaultContents? : List (Node × Node) → Option String
  | [] => none
  | (key, value) :: rest =>
      if key.tag = .default then value.contents? else defaultContents? rest

end

/-!
## Collections
-/

def Tag.isCollection : Tag → Bool
  | .sequence => true
  | .mapping => true
  | .set => true
  | .pairs => true
  | _ => false

def Tag.misfit (tag : Tag) : Placed Value :=
  if tag.isCollection then .inside .reject else .reject

def Tag.placedValue (tag : Tag) (place : Nat) (contents : Option String) : Placed Value :=
  match contents with
  | some contents => .ofOutcome (tag.scalarValue place contents)
  | none => tag.misfit

abbrev PlacedEntries := List (Placed Value × Placed Value)

def allEntries (entries : PlacedEntries) : Placed (List (Value × Value)) :=
  Placed.all (entries.map (fun e => Placed.both Prod.mk e.1 e.2))

/-- The entries that a mapping ends up with: those that it takes in, then its own. -/
structure Merged where
  taken : PlacedEntries
  own : PlacedEntries

namespace Merged

def entries (m : Merged) : PlacedEntries :=
  m.taken ++ m.own

end Merged

mutual

def Node.value : Node → Placed Value
  | .scalar tag place contents =>
      if tag.isCollection then tag.misfit else tag.placedValue place contents
  | .sequence tag items =>
      match tag with
      | .sequence => .inside ((Placed.all (values items)).map Value.list)
      | .pairs => .inside ((pairValues items).map Value.list)
      | tag => tag.misfit
  | .enclosing => .ok .null
  | .mapping tag place entries =>
      match tag with
      | .mapping =>
          .inside (match merged entries with
            | some m => (allEntries m.entries).map (fun es => .mapping (Entries.ofList es))
            | none => .reject)
      | .set =>
          .inside (match merged entries with
            | some m =>
                (allEntries m.entries).map (fun es => .set (Value.distinct (es.map Prod.fst)))
            | none => .reject)
      | tag =>
          if tag.isCollection then tag.misfit
          else tag.placedValue place (defaultContents? entries)

def values : List Node → List (Placed Value)
  | [] => []
  | n :: rest => n.value :: values rest

/-- The value of a node as a key; collections are no keys, and the key for default values is
the text that it is written as. -/
def Node.keyValue : Node → Placed Value
  | .scalar tag place contents =>
      if tag = .default then .ok (.text contents)
      else if tag.isCollection then .reject
      else tag.placedValue place contents
  | .mapping tag place entries =>
      if tag.isCollection then .reject
      else (if tag = .default then Tag.text else tag).placedValue place (defaultContents? entries)
  | _ => .reject

/-- The entries of a mapping with those under its merge keys taken in; nothing comes back
when something else than mappings stands under a merge key. -/
def merged : List (Node × Node) → Option Merged
  | [] => some ⟨[], []⟩
  | (key, value) :: rest =>
      match merged rest with
      | none => none
      | some m =>
          if key.tag = .merge then value.mergeEntries.map (fun es => { m with taken := es ++ m.taken })
          else some { m with own := (key.keyValue, value.value) :: m.own }

def Node.mergeEntries : Node → Option PlacedEntries
  | .scalar _ _ _ => none
  | .sequence _ items => mergeItems items
  | .mapping _ _ entries => (merged entries).map Merged.entries
  | .enclosing => some []

def mergeItems : List Node → Option PlacedEntries
  | [] => some []
  | n :: rest =>
      match n with
      | .mapping _ _ entries =>
          match merged entries, mergeItems rest with
          | some m, some later => some (later ++ m.entries)
          | _, _ => none
      | .enclosing => mergeItems rest
      | _ => none

def pairValues : List Node → Placed (List Value)
  | [] => .ok []
  | n :: rest =>
      match n with
      | .mapping _ _ [(key, value)] =>
          Placed.both List.cons (Placed.both (fun k v => Value.tuple [k, v]) key.value value.value)
            (pairValues rest)
      | .enclosing => pairValues rest
      | _ => .reject

end

/-!
## Documents
-/

def read (text : List Char) : Outcome Value :=
  match Node.ofText? text with
  | .error failure => .error failure
  | .ok none => .ok .null
  | .ok (some root) =>
      match root.value with
      | .ok value => if root.isCyclic then .error (.stopped .selfContaining) else .ok value
      | .error e => .error e.2

end Yaml

instance : YamlReader := ⟨Yaml.read⟩

end ContentSchema
