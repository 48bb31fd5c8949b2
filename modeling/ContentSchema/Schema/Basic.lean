import ContentSchema.Constraint.Basic

/-!
# Schemas

A schema describes the values that are accepted at one place of a document: a primitive value
with constraints, one of listed texts, an object of named fields, or an array of one element
schema.  A schema assembled by hand may also be bare, may lack its element, and may hold
plain values where schemas belong; such trees can be written down, checked and compared.

Every schema has attributes: whether it may be absent, a fallback value for when it is, and
metadata that validation never looks at.
-/

namespace ContentSchema

/-!
## Trees
-/

/-- What every schema carries beside its shape.  Metadata is kept frozen. -/
structure Attributes where
  isOptional : Bool
  fallback : Option Value
  metadata : List (Value × Value)

def Attributes.fresh : Attributes :=
  ⟨false, none, []⟩

def Attributes.isRequired (a : Attributes) : Bool :=
  !a.isOptional && a.fallback.isNone

inductive Schema
  | primitive (attributes : Attributes) (kind : PrimitiveKind) (constraints : List Constraint)
  | enumeration (attributes : Attributes) (values : List Value)
  | object (attributes : Attributes) (fields : List (String × Schema))
  | array (attributes : Attributes) (element : Option Schema)
  | bare (attributes : Attributes)
  | foreign (value : Value)

namespace Schema

/-!
## Names
-/

def kindName : Schema → String
  | primitive _ kind _ => kind.name
  | enumeration _ _ => "enum"
  | object _ _ => "object"
  | array _ _ => "array"
  | bare _ => "node"
  | foreign _ => ""

def typeName : Schema → String
  | primitive _ _ _ => "PrimitiveNode"
  | enumeration _ _ => "EnumNode"
  | object _ _ => "ObjectNode"
  | array _ _ => "ArrayNode"
  | bare _ => "SchemaNode"
  | foreign v => v.typeName

/-- A schema, and not a plain value in the place of one. -/
def isSchema : Schema → Bool
  | foreign _ => false
  | _ => true

/-!
## Attributes
-/

def attributes? : Schema → Option Attributes
  | primitive a _ _ => some a
  | enumeration a _ => some a
  | object a _ => some a
  | array a _ => some a
  | bare a => some a
  | foreign _ => none

def withAttributes (a : Attributes) : Schema → Schema
  | primitive _ kind constraints => primitive a kind constraints
  | enumeration _ values => enumeration a values
  | object _ fields => object a fields
  | array _ element => array a element
  | bare _ => bare a
  | foreign v => foreign v

def mapAttributes (f : Attributes → Attributes) (s : Schema) : Answer Schema :=
  match s.attributes? with
  | some a => .ok (s.withAttributes (f a))
  | none => .error .wrongType

/-!
## Children
-/

def fieldNames (fields : List (String × Schema)) : List String :=
  fields.map Prod.fst

def childLabels : Schema → List String
  | object _ fields => fieldNames fields
  | array _ (some _) => ["[]"]
  | _ => []

def contains (s : Schema) (v : Value) : Answer Bool :=
  match s with
  | enumeration _ values => .ok (v.text?.isSome && values.contains v)
  | object _ fields => .ok ((fieldNames fields).any (fun name => Value.same v (.text name)))
  | _ => .error .wrongType

end Schema
end ContentSchema
