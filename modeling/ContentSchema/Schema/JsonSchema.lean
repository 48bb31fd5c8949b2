import ContentSchema.Calendar.IsoText
import ContentSchema.Schema.Basic
import ContentSchema.Value.Frozen

/-!
# JSON Schema

The rendering of schemas in the vocabulary of JSON Schema.  A constraint becomes a keyword: a
length bound, a bound on numbers, a pattern, a format, or a narrower type; a later keyword
replaces an earlier one, except that a lower bound from a sign or from non-emptiness never
lowers the bound that is there.  Metadata other than the description goes under an
annotation key of its own.
-/

namespace ContentSchema
namespace JsonSchema

def dialect : String := "https://json-schema.org/draft/2020-12/schema"

abbrev Keywords := List (String × Value)

def toValue (keywords : Keywords) : Value :=
  .mapping (keywords.map (fun k => (.text k.1, k.2)))

/-!
## Constraints
-/

def raised (bound : Value) (floor : Nat) : Answer Value := do
  let q ← orFault .wrongType bound.quantity?
  return if q.lt (.rational floor) then .int floor else bound

def raise (keywords : Keywords) (keyword : String) (floor : Nat) : Answer Keywords := do
  let bound ← raised ((Entries.get? keywords keyword).getD (.int 0)) floor
  return Entries.put keywords keyword bound

def paramOf (c : Constraint) (name : String) : Value :=
  (c.param? name).getD .null

/-- Writes the keywords of a constraint, which its name decides; other names have none. -/
def addConstraint (keywords : Keywords) (c : Constraint) : Answer Keywords :=
  match c.name with
  | "nonEmpty" => raise keywords "minLength" 1
  | "positive" => .ok (Entries.put keywords "exclusiveMinimum" (.int 0))
  | "nonnegative" => raise keywords "minimum" 0
  | "integer" => .ok (Entries.put keywords "type" (.text "integer"))
  | "isUrl" => .ok (Entries.put keywords "format" (.text "uri"))
  | "isEmail" => .ok (Entries.put keywords "format" (.text "email"))
  | "length" =>
      let n := paramOf c "length"
      .ok (Entries.put (Entries.put keywords "minLength" n) "maxLength" n)
  | "minLength" => .ok (Entries.put keywords "minLength" (paramOf c "min"))
  | "maxLength" => .ok (Entries.put keywords "maxLength" (paramOf c "max"))
  | "min" => .ok (Entries.put keywords "minimum" (paramOf c "min"))
  | "max" => .ok (Entries.put keywords "maximum" (paramOf c "max"))
  | "matches" => .ok (Entries.put keywords "pattern" (paramOf c "pattern"))
  | _ => .ok keywords

def kindKeywords : PrimitiveKind → Keywords
  | .date => [("type", .text "string"), ("format", .text "date")]
  | kind => [("type", .text kind.name)]

/-!
## Fallback values
-/

mutual

/-- A value as content files write it: days and moments as texts. -/
def written : Value → Value
  | .date d => .text d.isoText
  | .dateTime t => .text t.isoText
  | .mapping entries => .mapping (writtenEntries entries)
  | .list items => .list (writtenAll items)
  | v => v

def writtenAll : List Value → List Value
  | [] => []
  | v :: rest => written v :: writtenAll rest

def writtenEntries : List (Value × Value) → List (Value × Value)
  | [] => []
  | (key, v) :: rest => (key, written v) :: writtenEntries rest

end

def thawed (v : Value) : Answer Value :=
  orFault .wrongType v.thaw?

def fallbackKeywords (fallback : Option Value) : Answer Keywords :=
  match fallback with
  | some v => do return [("default", written (← thawed v))]
  | none => .ok []

def descriptionKeywords (metadata : List (Value × Value)) : Keywords :=
  match Value.field? metadata "description" with
  | some d => if d.truthy then [("description", d)] else []
  | none => []

def contentKeywords (metadata : List (Value × Value)) : Keywords :=
  let others := Entries.erase metadata (.text "description")
  if others.isEmpty then [] else [("$content", .mapping others)]

def attributeKeywords (a : Attributes) : Answer Keywords := do
  let fallback ← fallbackKeywords a.fallback
  let metadata ← orFault .wrongType (Value.thawEntries? a.metadata)
  return fallback ++ descriptionKeywords metadata ++ contentKeywords metadata

/-!
## Trees
-/

def requiredNames (fields : List (String × Schema)) : List String :=
  (fields.filter (fun f => (f.2.attributes?.map Attributes.isRequired).getD false)).map Prod.fst

def requiredKeywords (fields : List (String × Schema)) : Keywords :=
  match requiredNames fields with
  | [] => []
  | names => [("required", .list (names.map Value.text))]

mutual

def render : Schema → Answer Keywords
  | .primitive a kind constraints => do
      let shape ← constraints.foldlM addConstraint (kindKeywords kind)
      return shape ++ (← attributeKeywords a)
  | .enumeration a values => do
      return [("type", .text "string"), ("enum", .list values)] ++ (← attributeKeywords a)
  | .object a fields => do
      let properties ← renderFields fields
      return [("type", .text "object"), ("properties", toValue (Entries.ofList properties))] ++
        requiredKeywords fields ++ (← attributeKeywords a)
  | .array a none => do
      return [("type", .text "array")] ++ (← attributeKeywords a)
  | .array a (some element) => do
      let items ← render element
      return [("type", .text "array"), ("items", toValue items)] ++ (← attributeKeywords a)
  | .bare a => attributeKeywords a
  | .foreign _ => .error .wrongType

def renderFields : List (String × Schema) → Answer (List (String × Value))
  | [] => .ok []
  | (name, child) :: rest => do
      let keywords ← render child
      return (name, toValue keywords) :: (← renderFields rest)

end

end JsonSchema

/-- The rendering of a schema, with or without the dialect in front. -/
def Schema.toJsonSchema (s : Schema) (root : Bool) : Answer Value := do
  let keywords ← JsonSchema.render s
  return JsonSchema.toValue
    (if root then Entries.merge [("$schema", .text JsonSchema.dialect)] keywords else keywords)

end ContentSchema
