import ContentSchema.Proofs.Schema.Assembly
import ContentSchema.Proofs.Schema.Consistency

/-!
# Extension

Which declarations a list of entries makes, and when an object takes them in.  Nothing is known
of declarations but that their names are distinct and not empty and that each has a schema, so
it makes no difference whether an object is extended at once or in two steps: a name that is
already taken is refused in either case, no matter by whom.
-/

namespace ContentSchema
namespace Schema

/-!
## Declarations
-/

/-- The fields can stand together in an object. -/
structure Declarable (fields : List (String × Schema)) : Prop where
  nodup : (fieldNames fields).Nodup
  filled : forall name, name ∈ fieldNames fields -> name ≠ ""
  schemas : forall f, f ∈ fields -> f.2.isSchema = true

theorem declarable_of_built {rule : Schema -> Call -> Schema -> Prop} {a : Attributes}
    {fields : List (String × Schema)} (h : Built rule (.object a fields)) : Declarable fields :=
  ⟨nodup_of_mem_fields h.wellFormed, h.wellFormed.self.shape.right,
    fields_areSchemas h.wellFormed⟩

theorem entries_of_checkedFields {entries : List FieldEntry} {seen : List String}
    {fields : List (String × Schema)} (h : checkedFields seen entries = .ok fields) :
    entries = declarations fields := by
  induction entries generalizing seen fields with
  | nil =>
      injection h with h
      rw [← h]
      rfl
  | cons entry rest ih =>
      cases entry with
      | other v =>
          exact absurd h Answer.refuse_ne_ok
      | pair name child =>
          cases name with
          | text s =>
              simp only [checkedFields] at h
              split at h
              · exact absurd h Answer.refuse_ne_ok
              split at h
              · exact absurd h Answer.refuse_ne_ok
              split at h
              · exact absurd h Answer.refuse_ne_ok
              rcases Answer.bind_eq_ok.mp h with ⟨later, hlater, h⟩
              rw [← Answer.pure_eq_ok.mp h, ih hlater]
              rfl
          | _ =>
              exact absurd h Answer.refuse_ne_ok

theorem fieldsOf_eq_ok_iff {entries : List FieldEntry} {fields : List (String × Schema)} :
    fieldsOf entries = .ok fields <-> entries = declarations fields ∧ Declarable fields := by
  constructor
  · intro h
    rcases checkedFields_eq_ok h with ⟨hnodup, hnames, hdeclared⟩
    exact ⟨entries_of_checkedFields h, hnodup, fun name hname => (hnames name hname).right,
      fun f hf => (hdeclared f hf).right⟩
  · intro h
    rcases h with ⟨hentries, hfields⟩
    rw [hentries]
    refine checkedFields_pairs hfields.nodup (fun name hname => ⟨?_, List.not_mem_nil⟩)
      hfields.schemas
    rw [← Bool.not_eq_true, String.isEmpty_iff]
    exact hfields.filled name hname

theorem checkedFields_refuses {entries : List FieldEntry} {seen : List String} {fault : Fault}
    (h : checkedFields seen entries = .error fault) : exists e, fault = .definition e := by
  induction entries generalizing seen with
  | nil =>
      cases h
  | cons entry rest ih =>
      cases entry with
      | other v =>
          injection h with h
          exact ⟨_, h.symm⟩
      | pair name child =>
          cases name with
          | text s =>
              simp only [checkedFields] at h
              split at h
              · injection h with h
                exact ⟨_, h.symm⟩
              split at h
              · injection h with h
                exact ⟨_, h.symm⟩
              split at h
              · injection h with h
                exact ⟨_, h.symm⟩
              rcases Answer.bind_eq_error.mp h with h | ⟨later, _hlater, h⟩
              · exact ih h
              · cases h
          | _ =>
              injection h with h
              exact ⟨_, h.symm⟩

/-!
## Extended objects
-/

variable {a : Attributes} {fields additions : List (String × Schema)} {entries : List FieldEntry}

@[simp] theorem clash?_eq_none_iff :
    clash? fields additions = none <->
      forall name, name ∈ fieldNames additions -> name ∉ fieldNames fields := by
  simp [clash?, List.find?_eq_none]

theorem declarable_append :
    Declarable (fields ++ additions) <->
      Declarable fields ∧ Declarable additions ∧
        forall name, name ∈ fieldNames additions -> name ∉ fieldNames fields := by
  have hnames : fieldNames (fields ++ additions) = fieldNames fields ++ fieldNames additions :=
    List.map_append
  constructor
  · intro h
    have hnodup := h.nodup
    have hfilled := h.filled
    have hschemas := h.schemas
    rw [hnames, List.nodup_append] at hnodup
    rw [hnames, List.forall_mem_append] at hfilled
    rw [List.forall_mem_append] at hschemas
    exact ⟨⟨hnodup.left, hfilled.left, hschemas.left⟩,
      ⟨hnodup.right.left, hfilled.right, hschemas.right⟩,
      fun name hname hold => hnodup.right.right name hold name hname rfl⟩
  · intro h
    rcases h with ⟨hfields, hadditions, hfresh⟩
    refine ⟨?_, ?_, List.forall_mem_append.mpr ⟨hfields.schemas, hadditions.schemas⟩⟩
    · rw [hnames, List.nodup_append]
      refine ⟨hfields.nodup, hadditions.nodup, fun name hold other hother heq => ?_⟩
      rw [heq] at hold
      exact hfresh other hother hold
    · rw [hnames]
      exact List.forall_mem_append.mpr ⟨hfields.filled, hadditions.filled⟩

theorem extend_object_eq_ok (hfields : Declarable fields) {t : Schema} :
    extend (.object a fields) entries = .ok t <->
      exists additions, entries = declarations additions ∧ Declarable (fields ++ additions) ∧
        t = .object a (fields ++ additions) := by
  rw [extend_eq_ok]
  constructor
  · intro h
    rcases h with ⟨b, others, additions, hobject, hadditions, hclash, ht⟩
    injection hobject with ha hothers
    rw [← ha, ← hothers] at ht
    rw [← hothers] at hclash
    rcases fieldsOf_eq_ok_iff.mp hadditions with ⟨hentries, hdeclarable⟩
    exact ⟨additions, hentries,
      declarable_append.mpr ⟨hfields, hdeclarable, clash?_eq_none_iff.mp hclash⟩, ht⟩
  · intro h
    rcases h with ⟨additions, hentries, hall, ht⟩
    rcases declarable_append.mp hall with ⟨_hfields, hadditions, hfresh⟩
    exact ⟨a, fields, additions, rfl, fieldsOf_eq_ok_iff.mpr ⟨hentries, hadditions⟩,
      clash?_eq_none_iff.mpr hfresh, ht⟩

theorem extend_object_refuses {fault : Fault}
    (h : extend (.object a fields) entries = .error fault) : exists e, fault = .definition e := by
  rcases Answer.bind_eq_error.mp h with h | ⟨additions, _hadditions, h⟩
  · exact checkedFields_refuses h
  · cases hclash : clash? fields additions with
    | none =>
        rw [hclash] at h
        cases h
    | some name =>
        rw [hclash] at h
        injection h with h
        exact ⟨_, h.symm⟩

/-- Two steps of extension take in what one step takes in. -/
theorem extend_extend_eq_ok (hfields : Declarable fields) {first second : List FieldEntry}
    {t : Schema} :
    (extend (.object a fields) first >>= fun u => u.extend second) = .ok t <->
      extend (.object a fields) (first ++ second) = .ok t := by
  rw [Answer.bind_eq_ok, extend_object_eq_ok hfields]
  constructor
  · intro h
    rcases h with ⟨u, hu, ht⟩
    rcases (extend_object_eq_ok hfields).mp hu with ⟨additions, hfirst, hall, hu⟩
    rw [hu] at ht
    rcases (extend_object_eq_ok hall).mp ht with ⟨more, hsecond, hmore, ht⟩
    rw [List.append_assoc] at hmore ht
    refine ⟨additions ++ more, ?_, hmore, ht⟩
    rw [hfirst, hsecond, declarations, declarations, declarations, List.map_append]
  · intro h
    rcases h with ⟨all, hentries, hall, ht⟩
    rcases List.append_eq_map_iff.mp hentries with ⟨additions, more, hsplit, hfirst, hsecond⟩
    rw [hsplit, ← List.append_assoc] at hall ht
    have hadditions := (declarable_append.mp hall).left
    exact ⟨_, (extend_object_eq_ok hfields).mpr ⟨additions, hfirst.symm, hadditions, rfl⟩,
      (extend_object_eq_ok hadditions).mpr ⟨more, hsecond.symm, hall, ht⟩⟩

/-- Both operations refuse, for reasons that may differ, or both answer with the same schema. -/
def Agree (x y : Answer Schema) : Prop :=
  (exists t, x = .ok t ∧ y = .ok t) ∨ exists e e', x = refuse e ∧ y = refuse e'

theorem extend_extend_agrees (hfields : Declarable fields) (first second : List FieldEntry) :
    Agree (extend (.object a fields) first >>= fun u => u.extend second)
      (extend (.object a fields) (first ++ second)) := by
  cases hone : extend (.object a fields) (first ++ second) with
  | ok t =>
      exact Or.inl ⟨t, (extend_extend_eq_ok hfields).mpr hone, rfl⟩
  | error fault =>
      rcases extend_object_refuses hone with ⟨e, hfault⟩
      cases htwo : extend (.object a fields) first >>= fun u => u.extend second with
      | ok t =>
          rw [(extend_extend_eq_ok hfields).mp htwo] at hone
          cases hone
      | error other =>
          have hother : exists e', other = .definition e' := by
            rcases Answer.bind_eq_error.mp htwo with h | ⟨u, hu, h⟩
            · exact extend_object_refuses h
            · rcases (extend_object_eq_ok hfields).mp hu with ⟨additions, _hfirst, _hall, hu⟩
              rw [hu] at h
              exact extend_object_refuses h
          rcases hother with ⟨e', hother⟩
          exact Or.inr ⟨e', e, by rw [hother]; rfl, by rw [hfault]; rfl⟩

end Schema
end ContentSchema
