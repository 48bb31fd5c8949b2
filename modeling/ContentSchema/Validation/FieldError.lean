import ContentSchema.Value.Equality

/-!
# Field errors

A problem at one place of a document.  Field errors are data: validation collects them in
document order and returns them.  A place is written as field names joined by points, with
the index of an array element in brackets.
-/

namespace ContentSchema

/-!
## Places
-/

namespace FieldPath

/-- The place of a field below another place; the empty text is the document itself. -/
def joinField (parent name : String) : String :=
  if parent.isEmpty then name else parent ++ "." ++ name

def joinIndex (parent : String) (index : Int) : String :=
  parent ++ "[" ++ toString index ++ "]"

end FieldPath

/-!
## Errors
-/

inductive FieldErrorKind
  | missingRequiredField
  | typeMismatch
  | invalidEnumValue
  | constraintViolation
  | unresolvableInclude
deriving DecidableEq

namespace FieldErrorKind

def all : List FieldErrorKind :=
  [missingRequiredField, typeMismatch, invalidEnumValue, constraintViolation, unresolvableInclude]

def name : FieldErrorKind → String
  | missingRequiredField => "MissingRequiredField"
  | typeMismatch => "TypeMismatch"
  | invalidEnumValue => "InvalidEnumValue"
  | constraintViolation => "ConstraintViolation"
  | unresolvableInclude => "UnresolvableInclude"

def ofName? (name : String) : Option FieldErrorKind :=
  all.find? (fun kind => kind.name == name)

end FieldErrorKind

/-- A problem at one place of a document.  `actual` is the offending raw value, or null when
there is none. -/
structure FieldError where
  path : String
  kind : FieldErrorKind
  message : String
  constraint : Option String
  actual : Value

namespace FieldError

def plain (path : String) (kind : FieldErrorKind) (message : String) : FieldError :=
  ⟨path, kind, message, none, .null⟩

def label (e : FieldError) : String :=
  match e.constraint with
  | some name => if name.isEmpty then e.kind.name else e.kind.name ++ "(" ++ name ++ ")"
  | none => e.kind.name

def text (e : FieldError) : String :=
  (if e.path.isEmpty then "<document>" else e.path) ++ ": " ++ e.label ++ ": " ++ e.message

def record (e : FieldError) : List (String × Value) :=
  [("path", .text e.path), ("kind", .text e.kind.name), ("message", .text e.message)] ++
    (match e.constraint with
      | some name => [("constraint", .text name)]
      | none => []) ++
    (if e.actual.isNull then [] else [("actual_value", e.actual)])

def toValue (e : FieldError) : Value :=
  .mapping (e.record.map (fun r => (.text r.1, r.2)))

end FieldError
end ContentSchema
