import ContentSchema.Constraint.Matching
import ContentSchema.Schema.Fields
import ContentSchema.Validation.Result
import ContentSchema.Value.Frozen

/-!
# Combinators

Every combinator yields a changed copy of a schema.  What a combinator cannot do is refused
at once: a constraint on the wrong kind, a bound that is no length, a fallback value that
the schema itself does not accept, a field that exists or does not.
-/

namespace ContentSchema

/-!
## Metadata entries
-/

namespace Value

def entriesOf (v : Value) : Answer (List (Value × Value)) :=
  match v with
  | .mapping entries => .ok entries
  | _ => do
      let elements ← orFault .wrongType v.elements?
      elements.mapM (fun element => do
        match ← orFault .wrongType element.elements? with
        | [key, value] => pure (key, value)
        | _ => throw .badValue)

def metadataEntries (v : Value) : Answer (List (Value × Value)) :=
  if v.truthy then entriesOf v else .ok []

end Value

namespace Attributes

def addMetadata (a : Attributes) (additions : List (Value × Value)) : Attributes :=
  { a with metadata := Value.freezeEntries (Entries.merge a.metadata additions) }

def editorHints (a : Attributes) : Answer (List (Value × Value)) :=
  match Value.field? a.metadata "editor" with
  | some hints => hints.entriesOf
  | none => .ok []

def description (a : Attributes) : Value :=
  (Value.field? a.metadata "description").getD .null

end Attributes

namespace Schema

/-!
## Presence
-/

def optional (s : Schema) : Answer Schema :=
  s.mapAttributes (fun a => { a with isOptional := true })

def required (s : Schema) : Answer Schema :=
  s.mapAttributes (fun a => { a with isOptional := false, fallback := none })

/-- The schema has a fallback, which is validated right away and kept in its typed form. -/
def withDefault (s : Schema) (v : Value) : Answer Schema := do
  let strict ← s.required
  let result ← strict.validate v
  if result.ok then s.mapAttributes (fun a => { a with fallback := some result.value })
  else refuse (.invalidDefault v s.kindName (result.errors.map FieldError.message))

/-!
## Metadata
-/

def withMetadata (s : Schema) (additions : List (Value × Value)) : Answer Schema :=
  s.mapAttributes (fun a => a.addMetadata additions)

def editor (s : Schema) (hints : List (Value × Value)) : Answer Schema := do
  let a ← orFault .wrongType s.attributes?
  let current ← a.editorHints
  s.withMetadata [(.text "editor", .mapping (Entries.merge current hints))]

def describe (s : Schema) (text : Value) : Answer Schema :=
  s.withMetadata [(.text "description", text)]

/-!
## Constraints
-/

def refine (s : Schema) (c : Constraint) : Answer Schema :=
  match s with
  | primitive a kind constraints =>
      if c.appliesTo.contains kind.name then .ok (primitive a kind (constraints ++ [c]))
      else refuse (.inapplicable c.name kind.name c.appliesTo)
  | foreign _ => .error .wrongType
  | _ => refuse (.unrefinable c.name s.kindName)

def lengthBound (combinator : String) (bound : Value) : Answer Value :=
  match bound with
  | .int n => if n < 0 then refuse (.boundNegative combinator bound) else .ok (.int n)
  | .float x =>
      if !x.isWhole then refuse (.boundNotWhole combinator bound)
      else if x.truncate < 0 then refuse (.boundNegative combinator bound)
      else .ok (.int x.truncate)
  | _ => refuse (.boundNotNumber combinator bound)

def min (s : Schema) (bound : Value) : Answer Schema :=
  match s with
  | primitive _ .string _ => do s.refine (.minLength (← lengthBound "min" bound))
  | primitive _ .number _ => s.refine (.atLeast bound)
  | foreign _ => .error .wrongType
  | _ => refuse (.noBound "min" s.kindName)

def max (s : Schema) (bound : Value) : Answer Schema :=
  match s with
  | primitive _ .string _ => do s.refine (.maxLength (← lengthBound "max" bound))
  | primitive _ .number _ => s.refine (.atMost bound)
  | foreign _ => .error .wrongType
  | _ => refuse (.noBound "max" s.kindName)

def length (s : Schema) (bound : Value) : Answer Schema :=
  match s with
  | foreign _ => .error .wrongType
  | _ => do s.refine (.exactLength (← lengthBound "length" bound))

def matching (s : Schema) (pattern : String) : Answer Schema := do
  s.refine (← Constraint.matching pattern)

/-!
## Fields and elements
-/

def clash? (fields additions : List (String × Schema)) : Option String :=
  (fieldNames additions).find? (fun name => (fieldNames fields).contains name)

def extend (s : Schema) (entries : List FieldEntry) : Answer Schema :=
  match s with
  | object a fields => do
      let additions ← fieldsOf entries
      match clash? fields additions with
      | some name => refuse (.fieldExists name)
      | none => return object a (fields ++ additions)
  | _ => .error .wrongType

def isNamed (names : List Value) (field : String × Schema) : Bool :=
  names.contains (.text field.1)

def unknownNames (fields : List (String × Schema)) (names : List Value) : List Value :=
  names.filter (fun v => !(fieldNames fields).any (fun name => v == .text name))

def pick (s : Schema) (names : List Value) : Answer Schema :=
  match s with
  | object a fields =>
      if (unknownNames fields names).isEmpty then .ok (object a (fields.filter (isNamed names)))
      else refuse (.unknownFields (unknownNames fields names) (fieldNames fields))
  | _ => .error .wrongType

def without (s : Schema) (names : List Value) : Answer Schema :=
  match s with
  | object a fields =>
      if (unknownNames fields names).isEmpty then
        .ok (object a (fields.filter (fun f => !isNamed names f)))
      else refuse (.unknownFields (unknownNames fields names) (fieldNames fields))
  | _ => .error .wrongType

def getField (s : Schema) (name : Value) : Answer Schema :=
  match s with
  | object _ fields =>
      match fields.find? (fun f => Value.same name (.text f.1)) with
      | some f => .ok f.2
      | none => .error .missingKey
  | _ => .error .wrongType

def getElement (s : Schema) : Answer Schema :=
  match s with
  | array _ (some element) => .ok element
  | _ => .error .wrongType

end Schema
end ContentSchema
