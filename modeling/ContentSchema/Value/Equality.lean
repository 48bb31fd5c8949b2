import ContentSchema.Value.Basic
import ContentSchema.Entries

/-!
# Equality of values

Two values are the same when they cannot be told apart as members of a container.  Truth
values, integers and floating-point numbers are the same when they measure the same; not a
number is the same only as its own occurrence.  Sequences agree element by element and only
within one kind of sequence; sets agree as sets, frozen or not; mappings agree when they
have the same keys with the same values, in any order.

Only what cannot be changed has a hash, so containers that can be changed are members of no
set.
-/

namespace ContentSchema
namespace Value

def sameScalar : Value → Value → Bool
  | null, null => true
  | text a, text b => a == b
  | date a, date b => a = b
  | dateTime a, dateTime b => a.sameMoment b
  | time a, time b => a.sameTime b
  | bytes a, bytes b => a == b
  | selector a, selector b => a = b
  | path a, path b => a == b
  | float (.notANumber a), float (.notANumber b) => a == b
  | a, b =>
      match a.quantity?, b.quantity? with
      | some x, some y => x.eq y
      | _, _ => false

mutual

def same : Value → Value → Bool
  | list xs, b => match b with
      | list ys => sameAll xs ys
      | _ => false
  | tuple xs, b => match b with
      | tuple ys => sameAll xs ys
      | _ => false
  | set xs, b => match b with
      | set ys => xs.length == ys.length && within xs ys
      | frozenSet ys => xs.length == ys.length && within xs ys
      | _ => false
  | frozenSet xs, b => match b with
      | set ys => xs.length == ys.length && within xs ys
      | frozenSet ys => xs.length == ys.length && within xs ys
      | _ => false
  | mapping xs, b => match b with
      | mapping ys => xs.length == ys.length && sameEntries xs ys
      | _ => false
  | a, b => sameScalar a b

def sameAll : List Value → List Value → Bool
  | [], [] => true
  | x :: xs, y :: ys => same x y && sameAll xs ys
  | _, _ => false

def within : List Value → List Value → Bool
  | [], _ => true
  | x :: xs, ys => ys.any (fun y => same x y) && within xs ys

def sameEntries : List (Value × Value) → List (Value × Value) → Bool
  | [], _ => true
  | (key, value) :: xs, ys =>
      ys.any (fun y => same key y.1 && same value y.2) && sameEntries xs ys

end

instance : BEq Value := ⟨same⟩

mutual

/-- Whether a value can be a member of a set. -/
def isHashable : Value → Bool
  | list _ => false
  | mapping _ => false
  | set _ => false
  | tuple items => areHashable items
  | _ => true

def areHashable : List Value → Bool
  | [] => true
  | v :: rest => v.isHashable && areHashable rest

end

def distinct (items : List Value) : List Value :=
  items.foldl (fun acc v => if acc.contains v then acc else acc ++ [v]) []

def field? (entries : List (Value × Value)) (name : String) : Option Value :=
  Entries.get? entries (text name)

end Value
end ContentSchema
