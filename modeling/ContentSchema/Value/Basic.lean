import ContentSchema.Calendar.Clock
import ContentSchema.Collection.Selector
import ContentSchema.Number.Decimal

/-!
# Content values

The untyped values that content files hold and that validation works on: scalars, calendar
values, sequences, sets and ordered mappings.  Lists and tuples are different containers
with the same contents, and so are sets that may grow and frozen sets.
-/

namespace ContentSchema

inductive Value
  | null
  | bool (b : Bool)
  | int (n : Int)
  | float (x : Binary64)
  | text (s : String)
  | list (items : List Value)
  | tuple (items : List Value)
  | mapping (entries : List (Value × Value))
  | set (items : List Value)
  | frozenSet (items : List Value)
  | date (d : Date)
  | dateTime (t : DateTime)
  | time (t : ClockTime)
  | bytes (contents : List UInt8)
  | selector (s : Selector)
  | path (location : String)

namespace Value

instance : Inhabited Value := ⟨null⟩

/-!
## Names of types
-/

def typeName : Value → String
  | null => "NoneType"
  | bool _ => "bool"
  | int _ => "int"
  | float _ => "float"
  | text _ => "str"
  | list _ => "list"
  | tuple _ => "tuple"
  | mapping _ => "dict"
  | set _ => "set"
  | frozenSet _ => "frozenset"
  | date _ => "date"
  | dateTime _ => "datetime"
  | time _ => "time"
  | bytes _ => "bytes"
  | selector _ => "SourcePattern"
  | path _ => "PosixPath"

/-- The name of the type of a value as a content author thinks of it. -/
def authorTypeName : Value → String
  | null => "null"
  | bool _ => "boolean"
  | int _ => "number"
  | float _ => "number"
  | text _ => "string"
  | mapping _ => "object"
  | list _ => "array"
  | tuple _ => "array"
  | other => other.typeName

/-!
## Views
-/

def truthy : Value → Bool
  | null => false
  | bool b => b
  | int n => n ≠ 0
  | float (.finite _ significand _) => significand ≠ 0
  | text s => !s.isEmpty
  | list items => !items.isEmpty
  | tuple items => !items.isEmpty
  | mapping entries => !entries.isEmpty
  | set items => !items.isEmpty
  | frozenSet items => !items.isEmpty
  | bytes contents => !contents.isEmpty
  | _ => true

def quantity? : Value → Option Quantity
  | bool b => some (.rational (if b then 1 else 0))
  | int n => some (.rational n)
  | float x => some x.quantity
  | _ => none

def size? : Value → Option Nat
  | text s => some s.length
  | list items => some items.length
  | tuple items => some items.length
  | mapping entries => some entries.length
  | set items => some items.length
  | frozenSet items => some items.length
  | bytes contents => some contents.length
  | _ => none

/-- What a value yields when it is gone through element by element: a mapping yields its
keys, a text its characters, a byte string its numbers. -/
def elements? : Value → Option (List Value)
  | text s => some (s.toList.map (fun c => text (String.singleton c)))
  | list items => some items
  | tuple items => some items
  | mapping entries => some (entries.map Prod.fst)
  | set items => some items
  | frozenSet items => some items
  | bytes contents => some (contents.map (fun b => int b.toNat))
  | _ => none

def text? : Value → Option String
  | text s => some s
  | _ => none

def isNull : Value → Bool
  | null => true
  | _ => false

def ofText? : Option String → Value
  | some s => text s
  | none => null

end Value
end ContentSchema
