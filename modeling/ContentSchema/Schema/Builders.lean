import ContentSchema.Schema.Combinators

/-!
# Builders

Fresh schemas.  Whatever a builder makes is consistent: listed texts are distinct and there
is at least one, field names are distinct and not empty, and an array has an element schema.
-/

namespace ContentSchema
namespace Schema

def ofKind (kind : PrimitiveKind) : Schema :=
  primitive .fresh kind []

def string : Schema := ofKind .string

def number : Schema := ofKind .number

def boolean : Schema := ofKind .boolean

def date : Schema := ofKind .date

def primitiveNamed (kind : String) (constraints : List Constraint) : Answer Schema :=
  match PrimitiveKind.ofName? kind with
  | some k => .ok (primitive .fresh k constraints)
  | none => refuse (.unknownPrimitive kind)

def repeatedTexts (texts : List String) : List String :=
  Constraint.orderedNames (texts.filter (fun t => 1 < texts.count t))

def enumOf (values : List Value) : Answer Schema :=
  if values.isEmpty then refuse .emptyEnum
  else
    match values.find? (fun v => v.text?.isNone) with
    | some v => refuse (.enumValueNotText v)
    | none =>
        let repeated := repeatedTexts (values.filterMap Value.text?)
        if repeated.isEmpty then .ok (enumeration .fresh values)
        else refuse (.repeatedEnumValues repeated)

/-- One of the given arguments; a single argument that is no text gives its elements. -/
def enum (arguments : List Value) : Answer Schema :=
  match arguments with
  | [.text s] => enumOf [.text s]
  | [v] => do enumOf (← orFault .wrongType v.elements?)
  | _ => enumOf arguments

def obj (entries : List FieldEntry) : Answer Schema := do
  return object .fresh (← fieldsOf entries)

def arrayOf (element : Schema) : Answer Schema :=
  if element.isSchema then .ok (array .fresh (some element))
  else refuse (.elementNotSchema element.typeName)

end Schema
end ContentSchema
