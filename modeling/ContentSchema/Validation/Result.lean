import ContentSchema.Schema.Basic
import ContentSchema.Value.DateText

/-!
# Validation

A raw value is examined against a schema from the outside in, fields in declared order and
elements by index, and every problem on the way is collected.  The outcome is either the
typed record or the list of problems.  In the record undeclared keys are gone, absent fields
have their fallback values, dates are calendar values, and sequences are tuples.

A schema that is assembled by hand may be unfit for validation; then there is no outcome.
-/

namespace ContentSchema

/-!
## Outcomes
-/

structure ValidationResult where
  value : Value
  errors : List FieldError

namespace ValidationResult

def accepted (value : Value) : ValidationResult :=
  ⟨value, []⟩

def ok (r : ValidationResult) : Bool :=
  r.errors.isEmpty

def unwrap (r : ValidationResult) : Answer Value :=
  if r.ok then .ok r.value else .error (.rejected r.errors)

end ValidationResult

/-- What the examination of a value yields: the value built so far, null where there are
problems, and the problems. -/
structure Findings where
  value : Value
  errors : List FieldError

namespace Findings

def clean (value : Value) : Findings :=
  ⟨value, []⟩

def problem (e : FieldError) : Findings :=
  ⟨.null, [e]⟩

def mismatch (expected : String) (raw : Value) (path : String) : Findings :=
  problem ⟨path, .typeMismatch, "Expected " ++ expected ++ ", got " ++ raw.authorTypeName, none, raw⟩

end Findings

namespace Schema

/-!
## Leaves
-/

def coerce? (kind : PrimitiveKind) (raw : Value) : Option Value :=
  match kind, raw with
  | .string, .text s => some (.text s)
  | .number, .int n => some (.int n)
  | .number, .float x => some (.float x)
  | .boolean, .bool b => some (.bool b)
  | .date, v => v.toDate?
  | _, _ => none

def uncoerced (kind : PrimitiveKind) (raw : Value) (path : String) : Findings :=
  match kind, raw with
  | .date, .text s =>
      .problem ⟨path, .typeMismatch,
        "Invalid date '" ++ s ++ "': use ISO-8601 (e.g. 2024-01-15)", none, raw⟩
  | _, _ => .mismatch kind.name raw path

def violations (constraints : List Constraint) (typed raw : Value) (path : String) :
    Answer (List FieldError) :=
  match constraints with
  | [] => .ok []
  | c :: rest => do
      let passed ← c.check typed
      let later ← violations rest typed raw path
      if passed then return later
      else
        return ⟨path, .constraintViolation, "Value " ++ c.description, some c.name, raw⟩ :: later

def examinePrimitive (kind : PrimitiveKind) (constraints : List Constraint) (raw : Value)
    (path : String) : Answer Findings :=
  match coerce? kind raw with
  | none => .ok (uncoerced kind raw path)
  | some typed => do return ⟨typed, ← violations constraints typed raw path⟩

def listedTexts (values : List Value) : Answer (List String) :=
  values.mapM (fun v => orFault .wrongType v.text?)

def examineEnumeration (values : List Value) (raw : Value) (path : String) : Answer Findings :=
  match raw with
  | .text _ =>
      if values.contains raw then .ok (.clean raw)
      else do
        let allowed ← listedTexts values
        return .problem ⟨path, .invalidEnumValue,
          "Invalid value " ++ raw.literal ++ "; allowed: " ++ commaSeparated allowed, none, raw⟩
  | _ => .ok (.mismatch "string" raw path)

/-!
## Containers
-/

def sequenceItems? : Value → Option (List Value)
  | .list items => some items
  | .tuple items => some items
  | _ => none

def examineItems (examine : Value → String → Answer Findings) (path : String) :
    Nat → List Value → Answer (List Value × List FieldError)
  | _, [] => .ok ([], [])
  | index, item :: rest => do
      let found ← examine item (FieldPath.joinIndex path index)
      let (values, errors) ← examineItems examine path (index + 1) rest
      return (found.value :: values, found.errors ++ errors)

/-- The entry of a mapping for a field; null counts as absent. -/
def candidate? (entries : List (Value × Value)) (name : String) : Option Value :=
  match Value.field? entries name with
  | some .null => none
  | found => found

def missingField (path name : String) : FieldError :=
  .plain path .missingRequiredField ("Missing required field '" ++ name ++ "'")

/-- Members of a record under their names; of a name that comes twice the last value stands
at the first place. -/
def recordOf (members : List (String × Value)) : Value :=
  .mapping ((Entries.ofList members).map (fun m => (.text m.1, m.2)))

mutual

def examine : Schema → Value → String → Answer Findings
  | primitive _ kind constraints, raw, path => examinePrimitive kind constraints raw path
  | enumeration _ values, raw, path => examineEnumeration values raw path
  | object _ fields, raw, path =>
      match raw with
      | .mapping entries => do
          let (members, errors) ← examineFields fields entries path
          return ⟨recordOf members, errors⟩
      | _ => .ok (.mismatch "object" raw path)
  | array _ none, _, path => refuse (.missingElement path)
  | array _ (some element), raw, path =>
      match sequenceItems? raw with
      | some items => do
          let (values, errors) ← examineItems (fun v p => element.examine v p) path 0 items
          return ⟨.tuple values, errors⟩
      | none => .ok (.mismatch "array" raw path)
  | bare _, _, path => refuse (.notValidatable "SchemaNode" path)
  | foreign v, _, path => refuse (.notValidatable v.typeName path)

def examineFields : List (String × Schema) → List (Value × Value) → String →
    Answer (List (String × Value) × List FieldError)
  | [], _, _ => .ok ([], [])
  | (name, child) :: rest, entries, path =>
      match child.attributes? with
      | none => .error .wrongType
      | some a => do
          let (members, errors) ←
            match candidate? entries name with
            | some raw => do
                let found ← child.examine raw (FieldPath.joinField path name)
                pure ([(name, found.value)], found.errors)
            | none =>
                if a.isRequired then
                  pure ([], [missingField (FieldPath.joinField path name) name])
                else
                  match a.fallback with
                  | some v => pure ([(name, v)], [])
                  | none => pure ([], [])
          let (laterMembers, laterErrors) ← examineFields rest entries path
          return (members ++ laterMembers, errors ++ laterErrors)

end

/-!
## Whole values
-/

/-- Validates a raw value.  Nothing at all is accepted by a schema that is not required. -/
def validate (s : Schema) (raw : Value) : Answer ValidationResult :=
  match s.attributes? with
  | none => .error .wrongType
  | some a =>
      if raw.isNull && !a.isRequired then .ok (.accepted (a.fallback.getD .null))
      else do
        let found ← s.examine raw ""
        if found.errors.isEmpty then return .accepted found.value
        else return ⟨.null, found.errors⟩

end Schema
end ContentSchema
