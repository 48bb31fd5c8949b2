import ContentSchema.Address.Email
import ContentSchema.Address.Url
import ContentSchema.Fault
import ContentSchema.Pattern.Matching

/-!
# Constraints

A constraint is a named test of a value together with a description of its rule, the kinds
of primitive schemas that it may be attached to, and the parameters that it was made with.
Two constraints count as equal when all but their tests agree.
-/

namespace ContentSchema

/-!
## Primitive kinds
-/

inductive PrimitiveKind
  | string
  | number
  | boolean
  | date
deriving DecidableEq

namespace PrimitiveKind

def all : List PrimitiveKind :=
  [string, number, boolean, date]

def name : PrimitiveKind → String
  | string => "string"
  | number => "number"
  | boolean => "boolean"
  | date => "date"

def ofName? (name : String) : Option PrimitiveKind :=
  all.find? (fun kind => kind.name == name)

end PrimitiveKind

/-!
## Tests
-/

/-- What a constraint demands of a value.  A test of one's own is any function of the value,
and it may have no answer for some values. -/
inductive ConstraintTest
  | nonEmpty
  | minLength (bound : Value)
  | maxLength (bound : Value)
  | exactLength (bound : Value)
  | url
  | email
  | matching (pattern : Pattern.Tree)
  | positive
  | nonnegative
  | whole
  | atLeast (bound : Value)
  | atMost (bound : Value)
  | custom (predicate : Value → Answer Bool)

namespace ConstraintTest

def sizeOf (v : Value) : Answer Nat :=
  orFault .wrongType v.size?

def measure (v : Value) : Answer Quantity :=
  orFault .wrongType v.quantity?

def textOf (v : Value) : Answer String :=
  orFault .wrongType v.text?

def isWhole : Value → Bool
  | .bool _ => true
  | .int _ => true
  | .float x => x.isWhole
  | _ => false

def holds (test : ConstraintTest) (v : Value) : Answer Bool :=
  match test with
  | nonEmpty => do return 0 < (← sizeOf v)
  | minLength bound => do return (← measure bound).le (.rational (← sizeOf v))
  | maxLength bound => do return (Quantity.rational (← sizeOf v)).le (← measure bound)
  | exactLength bound => do return Value.same (.int (← sizeOf v)) bound
  | url => do
      match Address.Url.read? (← textOf v) with
      | some u => return u.isWellShaped
      | none => throw .badValue
  | email => do return Address.isEmail (← textOf v)
  | matching pattern => do return pattern.occursIn (← textOf v).toList
  | positive => do return (Quantity.rational 0).lt (← measure v)
  | nonnegative => do return (Quantity.rational 0).le (← measure v)
  | whole => return isWhole v
  | atLeast bound => do return (← measure bound).le (← measure v)
  | atMost bound => do return (← measure v).le (← measure bound)
  | custom predicate => predicate v

def always : ConstraintTest :=
  custom (fun _ => .ok true)

def never : ConstraintTest :=
  custom (fun _ => .ok false)

def truthy : ConstraintTest :=
  custom (fun v => .ok v.truthy)

end ConstraintTest

/-!
## Constraints
-/

/-- A named test.  The kinds that it applies to are in ascending order, each once. -/
structure Constraint where
  name : String
  description : String
  test : ConstraintTest
  appliesTo : List String
  params : List (String × Value)

namespace Constraint

def check (c : Constraint) (v : Value) : Answer Bool :=
  c.test.holds v

def param? (c : Constraint) (key : String) : Option Value :=
  Entries.get? c.params.reverse key

def paramValue (c : Constraint) : Value :=
  .tuple (c.params.map (fun p => .tuple [.text p.1, p.2]))

def same (a b : Constraint) : Bool :=
  a.name == b.name && a.description == b.description && a.appliesTo == b.appliesTo &&
    a.paramValue.same b.paramValue

def orderedNames (names : List String) : List String :=
  (names.eraseDups).mergeSort (fun a b => a ≤ b)

def custom (name description : String) (test : ConstraintTest) (appliesTo : Option (List String))
    (params : List (String × Value)) : Constraint :=
  ⟨name, description, test,
    orderedNames (appliesTo.getD (PrimitiveKind.all.map PrimitiveKind.name)), params⟩

/-!
## Constraints on texts
-/

def onText (name description : String) (test : ConstraintTest)
    (params : List (String × Value)) : Constraint :=
  ⟨name, description, test, ["string"], params⟩

def nonEmpty : Constraint :=
  onText "nonEmpty" "must not be empty" .nonEmpty []

def minLength (n : Value) : Constraint :=
  onText "minLength" ("must be at least " ++ n.plain ++ " characters long") (.minLength n)
    [("min", n)]

def maxLength (n : Value) : Constraint :=
  onText "maxLength" ("must be at most " ++ n.plain ++ " characters long") (.maxLength n)
    [("max", n)]

def exactLength (n : Value) : Constraint :=
  onText "length" ("must be exactly " ++ n.plain ++ " characters long") (.exactLength n)
    [("length", n)]

def isUrl : Constraint :=
  onText "isUrl" "must be a valid URL" .url []

def isEmail : Constraint :=
  onText "isEmail" "must be a valid email address" .email []

/-!
## Constraints on numbers
-/

def onNumber (name description : String) (test : ConstraintTest)
    (params : List (String × Value)) : Constraint :=
  ⟨name, description, test, ["number"], params⟩

def positive : Constraint :=
  onNumber "positive" "must be greater than 0" .positive []

def nonnegative : Constraint :=
  onNumber "nonnegative" "must be greater than or equal to 0" .nonnegative []

def whole : Constraint :=
  onNumber "integer" "must be a whole number" .whole []

def atLeast (n : Value) : Constraint :=
  onNumber "min" ("must be greater than or equal to " ++ n.plain) (.atLeast n) [("min", n)]

def atMost (n : Value) : Constraint :=
  onNumber "max" ("must be less than or equal to " ++ n.plain) (.atMost n) [("max", n)]

end Constraint
end ContentSchema
