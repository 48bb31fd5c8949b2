import ContentSchema.Value.Order

/-!
# Frozen values

Freezing a tree turns its lists into tuples and its sets into frozen sets, at every depth.
Thawing turns tuples back into lists and frozen sets into sorted lists; it fails when the
elements of a frozen set cannot be sorted.  A set that is not frozen stays as it is.
-/

namespace ContentSchema
namespace Value

mutual

def freeze : Value → Value
  | mapping entries => mapping (freezeEntries entries)
  | list items => tuple (freezeAll items)
  | tuple items => tuple (freezeAll items)
  | set items => frozenSet (freezeAll items)
  | frozenSet items => frozenSet (freezeAll items)
  | v => v

def freezeAll : List Value → List Value
  | [] => []
  | v :: rest => freeze v :: freezeAll rest

def freezeEntries : List (Value × Value) → List (Value × Value)
  | [] => []
  | (key, v) :: rest => (key, freeze v) :: freezeEntries rest

end

mutual

def thaw? : Value → Option Value
  | mapping entries => (thawEntries? entries).map mapping
  | list items => (thawAll? items).map list
  | tuple items => (thawAll? items).map list
  | frozenSet items => (thawAll? items).bind (fun vs => (sorted? vs).map list)
  | v => some v

def thawAll? : List Value → Option (List Value)
  | [] => some []
  | v :: rest => do return (← thaw? v) :: (← thawAll? rest)

def thawEntries? : List (Value × Value) → Option (List (Value × Value))
  | [] => some []
  | (key, v) :: rest => do return (key, ← thaw? v) :: (← thawEntries? rest)

end

end Value
end ContentSchema
