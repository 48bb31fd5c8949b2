import ContentSchema.Proofs.Validation.Examination

/-!
# Places

A place in a document is reached by steps, each to a field or to an element.  Validation takes
these steps in the schema and in the raw value at once, so at every place that it comes to
there stands a part of the schema together with a part of the value.
-/

namespace ContentSchema

/-!
## Steps
-/

namespace FieldPath

inductive Step
  | field (name : String)
  | element (index : Nat)

def Step.below (path : String) : Step -> String
  | field name => joinField path name
  | element index => joinIndex path index

def descend (path : String) (steps : List Step) : String :=
  steps.foldl Step.below path

end FieldPath

def Value.step? (v : Value) : FieldPath.Step -> Option Value
  | .field name =>
      match v with
      | .mapping entries => Value.field? entries name
      | _ => none
  | .element index => (Schema.sequenceItems? v).bind (fun items => items[index]?)

def Value.at? (v : Value) (steps : List FieldPath.Step) : Option Value :=
  steps.foldlM Value.step? v

theorem Value.at?_cons {v w : Value} {step : FieldPath.Step} {steps : List FieldPath.Step}
    (h : v.step? step = some w) : v.at? (step :: steps) = w.at? steps := by
  rw [Value.at?, List.foldlM_cons, h]
  rfl

namespace Schema

/-!
## Embedding

The site is that of violations: the positions of fields and elements on the way down.
-/

/-- Inside of the second schema and raw value stand the first ones, at the given site and after
the given steps.  A field is looked up as validation does, so it holds no null. -/
inductive Embeds (inner : Schema) (part : Value) :
    List Nat -> List FieldPath.Step -> Schema -> Value -> Prop
  | here : Embeds inner part [] [] inner part
  | field {a : Attributes} {fields : List (String × Schema)} {f : String × Schema}
      {entries : List (Value × Value)} {raw : Value} {i : Nat} {site : List Nat}
      {steps : List FieldPath.Step} :
      fields[i]? = some f -> Held entries f.1 raw -> Embeds inner part site steps f.2 raw ->
      Embeds inner part (i :: site) (.field f.1 :: steps) (.object a fields) (.mapping entries)
  | element {a : Attributes} {element : Schema} {raw item : Value} {items : List Value}
      {i : Nat} {site : List Nat} {steps : List FieldPath.Step} :
      sequenceItems? raw = some items -> items[i]? = some item ->
      Embeds inner part site steps element item ->
      Embeds inner part (i :: site) (.element i :: steps) (.array a (some element)) raw

variable {inner s : Schema} {part raw : Value} {site : List Nat} {steps : List FieldPath.Step}

theorem Embeds.occurs (h : Embeds inner part site steps s raw) : Occurs inner s := by
  induction h with
  | here =>
      exact .here
  | field hf _hheld _hbelow ih =>
      exact .field (List.mem_of_getElem? hf) ih
  | element _hitems _hitem _hbelow ih =>
      exact .element ih

theorem Embeds.raw_ne_null (h : Embeds inner part site steps s raw) (hpart : part ≠ .null) :
    raw ≠ .null := by
  cases h with
  | here =>
      exact hpart
  | field _ _ _ =>
      simp
  | element hitems _ _ =>
      intro hnull
      rw [hnull] at hitems
      cases hitems

end Schema
end ContentSchema
