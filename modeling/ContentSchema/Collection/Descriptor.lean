import ContentSchema.Collection.Source
import ContentSchema.Schema.Combinators

/-!
# Collection descriptors

A descriptor says what a collection is called, whether its documents are pages or data, where
they come from, and which object schema they must satisfy.
-/

namespace ContentSchema

/-- What the documents of a collection are: pages with a body, or records of data. -/
inductive CollectionKind
  | page
  | data
deriving DecidableEq

namespace CollectionKind

def name : CollectionKind → String
  | page => "page"
  | data => "data"

def ofValue? : Value → Option CollectionKind
  | .text "page" => some page
  | .text "data" => some data
  | _ => none

end CollectionKind

structure ObjectSchema where
  attributes : Attributes
  fields : List (String × Schema)

namespace ObjectSchema

def toSchema (o : ObjectSchema) : Schema :=
  .object o.attributes o.fields

def ofSchema? : Schema → Option ObjectSchema
  | .object attributes fields => some ⟨attributes, fields⟩
  | _ => none

def fieldNames (o : ObjectSchema) : List String :=
  Schema.fieldNames o.fields

def extend (o : ObjectSchema) (entries : List Schema.FieldEntry) : Answer ObjectSchema := do
  let extended ← o.toSchema.extend entries
  orFault .wrongType (ofSchema? extended)

end ObjectSchema

structure Descriptor where
  name : String
  kind : CollectionKind
  sources : List Selector
  root : ObjectSchema

namespace Descriptor

def includes (d : Descriptor) : List String :=
  d.sources.filterMap Selector.collection?

/-- A descriptor from declared parts, which are checked in order: name, kind, schema and
sources. -/
def define (name kind sources : Value) (schema : Schema) : Answer Descriptor :=
  match name with
  | .text s =>
      if Text.isBlankText s then refuse (.badCollectionName name)
      else
        match CollectionKind.ofValue? kind, ObjectSchema.ofSchema? schema with
        | none, _ => refuse (.badCollectionKind kind s)
        | some _, none => refuse (.rootNotObject s schema.typeName)
        | some k, some root => do return ⟨s, k, ← Selector.listOfValue sources, root⟩
  | _ => refuse (.badCollectionName name)

end Descriptor
end ContentSchema
