import ContentSchema.Value.Equality

/-!
# Order of values

Numbers are ordered by what they measure, texts by code points, byte strings by bytes,
calendar values by time, sequences by their first difference, and sets by inclusion.  Values
of different kinds have no order, and a collection that holds such values cannot be sorted.
-/

namespace ContentSchema
namespace Value

def scalarBefore? : Value → Value → Option Bool
  | text a, text b => some (a < b)
  | date a, date b => some (a.ordinal < b.ordinal)
  | dateTime a, dateTime b => a.before? b
  | time a, time b => a.before? b
  | bytes a, bytes b => some (a < b)
  | path a, path b => some (a < b)
  | a, b =>
      match a.quantity?, b.quantity? with
      | some x, some y => some (x.lt y)
      | _, _ => none

mutual

/-- Whether the first value comes strictly before the second, if the two are ordered. -/
def before? : Value → Value → Option Bool
  | list xs, b => match b with
      | list ys => sequenceBefore? xs ys
      | _ => none
  | tuple xs, b => match b with
      | tuple ys => sequenceBefore? xs ys
      | _ => none
  | set xs, b => match b with
      | set ys => some (xs.length < ys.length && within xs ys)
      | frozenSet ys => some (xs.length < ys.length && within xs ys)
      | _ => none
  | frozenSet xs, b => match b with
      | set ys => some (xs.length < ys.length && within xs ys)
      | frozenSet ys => some (xs.length < ys.length && within xs ys)
      | _ => none
  | a, b => scalarBefore? a b

def sequenceBefore? : List Value → List Value → Option Bool
  | [], ys => some (!ys.isEmpty)
  | _ :: _, [] => some false
  | x :: xs, y :: ys => if same x y then sequenceBefore? xs ys else before? x y

end

def insertOrdered? (v : Value) : List Value → Option (List Value)
  | [] => some [v]
  | x :: rest => do
      if ← before? v x then return v :: x :: rest
      else return x :: (← insertOrdered? v rest)

def sorted? (items : List Value) : Option (List Value) :=
  items.foldlM (fun acc v => insertOrdered? v acc) []

end Value
end ContentSchema
