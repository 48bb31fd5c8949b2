import ContentSchema.Schema.Basic

/-!
# Field declarations

Fields of an object are declared as entries of a name and a schema.  Declarations can be
written in several ways, and each entry is checked in turn: it must be a pair, its name a
text that is not empty and not yet used, and its schema a schema.
-/

namespace ContentSchema
namespace Schema

/-- An entry of a field declaration: a name and a schema, or something that is no pair. -/
inductive FieldEntry
  | pair (name : Value) (schema : Schema)
  | other (v : Value)

def pairOf? (v : Value) : Option (Value × Value) :=
  match v.elements? with
  | some [a, b] => some (a, b)
  | _ => none

def entriesOfValue (v : Value) : Answer (List FieldEntry) :=
  match v with
  | .mapping entries => .ok (entries.map (fun e => .pair e.1 (.foreign e.2)))
  | _ => do
      let elements ← orFault .wrongType v.elements?
      return elements.map (fun element =>
        match pairOf? element with
        | some (name, value) => .pair name (.foreign value)
        | none => .other element)

def checkedFields (seen : List String) : List FieldEntry → Answer (List (String × Schema))
  | [] => .ok []
  | .other v :: _ => refuse (.notAnEntry v)
  | .pair name schema :: rest =>
      match name with
      | .text s =>
          if s.isEmpty then refuse (.badFieldName name)
          else if !schema.isSchema then refuse (.fieldNotSchema s schema.typeName)
          else if seen.contains s then refuse (.repeatedField s)
          else do
            let later ← checkedFields (s :: seen) rest
            return (s, schema) :: later
      | _ => refuse (.badFieldName name)

def fieldsOf (entries : List FieldEntry) : Answer (List (String × Schema)) :=
  checkedFields [] entries

end Schema
end ContentSchema
