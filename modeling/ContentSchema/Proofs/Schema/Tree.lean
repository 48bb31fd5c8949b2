import ContentSchema.Schema.Basic

/-!
# Schema trees

Facts about schemas as trees.  Induction over a schema goes from its fields and its element
to the schema itself, and a property holds everywhere in a tree when it holds of every schema
that occurs in it.
-/

namespace ContentSchema
namespace Schema

/-!
## Induction
-/

theorem tree_induction {motive : Schema -> Prop}
    (primitive : forall a kind constraints, motive (.primitive a kind constraints))
    (enumeration : forall a values, motive (.enumeration a values))
    (object : forall a fields, (forall f, f ∈ fields -> motive f.2) ->
      motive (.object a fields))
    (missing : forall a, motive (.array a none))
    (array : forall a element, motive element -> motive (.array a (some element)))
    (bare : forall a, motive (.bare a))
    (foreign : forall v, motive (.foreign v)) :
    forall s, motive s
  | .primitive a kind constraints => primitive a kind constraints
  | .enumeration a values => enumeration a values
  | .object a fields =>
      object a fields (fun f _hf =>
        tree_induction primitive enumeration object missing array bare foreign f.2)
  | .array a none => missing a
  | .array a (some element) =>
      array a element
        (tree_induction primitive enumeration object missing array bare foreign element)
  | .bare a => bare a
  | .foreign v => foreign v
termination_by s => sizeOf s
decreasing_by
  · have hfield := List.sizeOf_lt_of_mem _hf
    rcases f with ⟨name, child⟩
    have hchild : sizeOf child < sizeOf (name, child) := by
      rw [Prod.mk.sizeOf_spec]
      omega
    show sizeOf child < sizeOf (Schema.object a fields)
    rw [Schema.object.sizeOf_spec]
    omega
  · rw [Schema.array.sizeOf_spec, Option.some.sizeOf_spec]
    omega

/-!
## Presence
-/

def fallback? (s : Schema) : Option Value :=
  s.attributes?.bind Attributes.fallback

def isRequired (s : Schema) : Bool :=
  (s.attributes?.map Attributes.isRequired).getD false

/-- Whether a field with this schema may be missing from a record: it is optional and no
fallback value stands in for it. -/
def mayBeLeftOut (s : Schema) : Bool :=
  !s.isRequired && s.fallback?.isNone

theorem fallback?_of_attributes {s : Schema} {a : Attributes}
    (h : s.attributes? = some a) : s.fallback? = a.fallback := by
  rw [fallback?, h]
  rfl

theorem fallback?_of_fresh {s : Schema} (h : s.attributes? = some .fresh) :
    s.fallback? = none :=
  fallback?_of_attributes h

theorem isRequired_of_attributes {s : Schema} {a : Attributes}
    (h : s.attributes? = some a) : s.isRequired = a.isRequired := by
  rw [isRequired, h]
  rfl

theorem fallback?_of_required {s : Schema} (h : s.isRequired = true) :
    s.fallback? = none := by
  cases ha : s.attributes? with
  | none =>
      simp [fallback?, ha]
  | some a =>
      simp [isRequired, ha, Attributes.isRequired] at h
      simp [fallback?, ha, h.right]

/-!
## Occurrence
-/

/-- The first schema occurs in the second: it is the second itself, or it occurs in one of
its fields or in its element. -/
inductive Occurs (t : Schema) : Schema -> Prop
  | here : Occurs t t
  | field {a : Attributes} {fields : List (String × Schema)} {f : String × Schema} :
      f ∈ fields -> Occurs t f.2 -> Occurs t (.object a fields)
  | element {a : Attributes} {element : Schema} :
      Occurs t element -> Occurs t (.array a (some element))

theorem Occurs.trans {t u s : Schema} (htu : Occurs t u) (hus : Occurs u s) :
    Occurs t s := by
  induction hus with
  | here =>
      exact htu
  | field hf _hoccurs ih =>
      exact Occurs.field hf ih
  | element _hoccurs ih =>
      exact Occurs.element ih

def Everywhere (P : Schema -> Prop) (s : Schema) : Prop :=
  forall t, Occurs t s -> P t

variable {P Q : Schema -> Prop}

theorem Everywhere.self {s : Schema} (h : Everywhere P s) : P s :=
  h s Occurs.here

theorem Everywhere.of_occurs {s t : Schema} (h : Everywhere P s) (ht : Occurs t s) :
    Everywhere P t := by
  intro u hu
  exact h u (Occurs.trans hu ht)

theorem Everywhere.field {a : Attributes} {fields : List (String × Schema)}
    (h : Everywhere P (.object a fields)) {f : String × Schema} (hf : f ∈ fields) :
    Everywhere P f.2 :=
  h.of_occurs (Occurs.field hf Occurs.here)

theorem Everywhere.element {a : Attributes} {element : Schema}
    (h : Everywhere P (.array a (some element))) :
    Everywhere P element :=
  h.of_occurs (Occurs.element Occurs.here)

theorem Everywhere.object {a : Attributes} {fields : List (String × Schema)}
    (hself : P (.object a fields)) (hfields : forall f, f ∈ fields -> Everywhere P f.2) :
    Everywhere P (.object a fields) := by
  intro t ht
  cases ht with
  | here =>
      exact hself
  | field hf ht =>
      exact hfields _ hf t ht

theorem Everywhere.array {a : Attributes} {element : Schema}
    (hself : P (.array a (some element))) (helement : Everywhere P element) :
    Everywhere P (.array a (some element)) := by
  intro t ht
  cases ht with
  | here =>
      exact hself
  | element ht =>
      exact helement t ht

theorem Everywhere.leaf {s : Schema} (hself : P s)
    (hobject : forall a fields, s ≠ .object a fields)
    (harray : forall a element, s ≠ .array a (some element)) :
    Everywhere P s := by
  intro t ht
  cases ht with
  | here =>
      exact hself
  | field _ _ =>
      exact absurd rfl (hobject _ _)
  | element _ =>
      exact absurd rfl (harray _ _)

theorem Everywhere.imp (hPQ : forall t, P t -> Q t) {s : Schema}
    (h : Everywhere P s) : Everywhere Q s := by
  intro t ht
  exact hPQ t (h t ht)

end Schema
end ContentSchema
