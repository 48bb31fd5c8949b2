import ContentSchema.Proofs.Schema.Construction
import ContentSchema.Proofs.Validation.Examination

/-!
# The shape of schemas

A schema is well formed when every attached constraint applies to its kind, listed values are
distinct texts, field names are distinct and not empty, an array has an element, and a
fallback value is not null.
-/

namespace ContentSchema
namespace Schema

def WellShaped : Schema -> Prop
  | .primitive _ kind constraints =>
      forall c, c ∈ constraints -> c.appliesTo.contains kind.name = true
  | .enumeration _ values =>
      values ≠ [] ∧ values.Nodup ∧ forall v, v ∈ values -> exists t, v = .text t
  | .object _ fields =>
      (fieldNames fields).Nodup ∧ forall name, name ∈ fieldNames fields -> name ≠ ""
  | .array _ element => element.isSome = true
  | .bare _ => False
  | .foreign _ => False

structure WellFormed (s : Schema) : Prop where
  shape : s.WellShaped
  fallback : s.fallback? ≠ some .null

theorem WellFormed.isSchema {s : Schema} (h : s.WellFormed) : s.isSchema = true := by
  cases s with
  | foreign v =>
      exact h.shape.elim
  | _ =>
      rfl

theorem wellFormed_of_fresh {s : Schema} (hshape : s.WellShaped)
    (h : s.attributes? = some .fresh) : s.WellFormed := by
  refine ⟨hshape, ?_⟩
  rw [fallback?_of_fresh h]
  simp

theorem fields_areSchemas {a : Attributes} {fields : List (String × Schema)}
    (h : Everywhere WellFormed (.object a fields)) :
    forall f, f ∈ fields -> f.2.isSchema = true :=
  fun _f hf => (h.field hf).self.isSchema

theorem nodup_of_mem_fields {a : Attributes} {fields : List (String × Schema)}
    (h : Everywhere WellFormed (.object a fields)) : (fieldNames fields).Nodup :=
  h.self.shape.left

theorem name_mem {fields : List (String × Schema)} {f : String × Schema} (hf : f ∈ fields) :
    f.1 ∈ fieldNames fields :=
  List.mem_map.mpr ⟨f, hf, rfl⟩

theorem field_unique {fields : List (String × Schema)} (h : (fieldNames fields).Nodup)
    {f g : String × Schema} (hf : f ∈ fields) (hg : g ∈ fields) (hname : f.1 = g.1) :
    f = g :=
  List.inj_on_of_nodup_map h hf hg hname

/-!
## Other attributes

Neither the shape of a schema nor the examination of a value depends on the attributes.
-/

theorem attributes?_withAttributes {s : Schema} {a b : Attributes}
    (h : s.attributes? = some a) : (s.withAttributes b).attributes? = some b := by
  cases s with
  | foreign v =>
      cases h
  | _ =>
      rfl

@[simp] theorem withAttributes_withAttributes {s : Schema} {a b : Attributes} :
    (s.withAttributes a).withAttributes b = s.withAttributes b := by
  cases s <;> rfl

theorem withAttributes_self {s : Schema} {a : Attributes} (h : s.attributes? = some a) :
    s.withAttributes a = s := by
  cases s with
  | foreign v =>
      cases h
  | _ =>
      injection h with h
      rw [← h]
      rfl

@[simp] theorem wellShaped_withAttributes {s : Schema} {a : Attributes} :
    (s.withAttributes a).WellShaped <-> s.WellShaped := by
  cases s <;> exact Iff.rfl

@[simp] theorem fallback?_withAttributes {s : Schema} {a : Attributes} (h : s.isSchema = true) :
    (s.withAttributes a).fallback? = a.fallback := by
  cases s with
  | foreign v =>
      cases h
  | _ =>
      rfl

@[simp] theorem isRequired_withAttributes {s : Schema} {a : Attributes} (h : s.isSchema = true) :
    (s.withAttributes a).isRequired = a.isRequired := by
  cases s with
  | foreign v =>
      cases h
  | _ =>
      rfl

@[simp] theorem isSchema_withAttributes {s : Schema} {a : Attributes} :
    (s.withAttributes a).isSchema = s.isSchema := by
  cases s <;> rfl

@[simp] theorem examine_withAttributes {s : Schema} {a : Attributes} {raw : Value} {path : String} :
    (s.withAttributes a).examine raw path = s.examine raw path := by
  cases s with
  | array b element =>
      cases element <;> simp [withAttributes, examine]
  | _ =>
      simp [withAttributes, examine]

theorem validate_required {s strict : Schema} {v : Value} {result : ValidationResult}
    (h : s.required = .ok strict) :
    strict.validate v = .ok result <->
      exists found, s.examine v "" = .ok found ∧ result = found.result := by
  rcases mapAttributes_eq_ok.mp h with ⟨a, ha, hstrict⟩
  have hs : s.isSchema = true := by
    cases s with
    | foreign v =>
        cases ha
    | _ =>
        rfl
  have hstrictSchema : strict.isSchema = true := by
    rw [hstrict, isSchema_withAttributes, hs]
  have hrequired : strict.isRequired = true := by
    rw [hstrict, isRequired_withAttributes hs]
    rfl
  rw [validate_eq_ok hstrictSchema (Or.inr hrequired), hstrict, examine_withAttributes]

end Schema
end ContentSchema
