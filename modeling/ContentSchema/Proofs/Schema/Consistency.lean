import ContentSchema.Proofs.Answer
import ContentSchema.Proofs.Schema.Construction
import ContentSchema.Schema.Consistency

/-!
# Consistent schemas

A schema tree has no defects exactly when every schema in it is consistent in itself, so this
does not depend on the path that defects would be reported under.  An object stays consistent
when further consistent fields come behind its own.
-/

namespace ContentSchema
namespace Schema

/-!
## Walks without a finding
-/

theorem enumerationDefects_eq_nil_iff {values : List Value} {path : String} :
    enumerationDefects values path = .ok [] <->
      values ≠ [] ∧ Value.areHashable values = true ∧ hasRepetition values = false := by
  rw [enumerationDefects]
  cases values with
  | nil =>
      simp
  | cons v rest =>
      cases Value.areHashable (v :: rest) <;> cases hasRepetition (v :: rest) <;> simp

theorem fieldDefects_cons_eq_ok {seen : List String} {f : String × Schema}
    {rest : List (String × Schema)} {path : String} {found : List Defect} :
    fieldDefects seen (f :: rest) path = .ok found <->
      exists below, f.2.defects (childPath path f.1) = .ok below ∧
        exists later, fieldDefects (f.1 :: seen) rest path = .ok later ∧
          (if seen.contains f.1 then [⟨path, .repeatedField f.1⟩] else []) ++ below ++ later =
            found := by
  simp [fieldDefects]

theorem fieldDefects_eq_nil_iff {seen : List String} {fields : List (String × Schema)}
    {path : String} :
    fieldDefects seen fields path = .ok [] <->
      (fieldNames fields).Nodup ∧ (forall name, name ∈ fieldNames fields -> name ∉ seen) ∧
        forall f, f ∈ fields -> f.2.defects (childPath path f.1) = .ok [] := by
  induction fields generalizing seen with
  | nil =>
      simp [fieldDefects, fieldNames]
  | cons f rest ih =>
      rw [fieldDefects_cons_eq_ok]
      simp only [List.append_eq_nil_iff, fieldNames, List.map_cons, List.nodup_cons,
        List.forall_mem_cons]
      constructor
      · intro h
        rcases h with ⟨below, hbelow, later, hlater, ⟨hfresh, hnone⟩, hempty⟩
        rw [hnone] at hbelow
        rw [hempty] at hlater
        rcases ih.mp hlater with ⟨hnodup, hrest, hchildren⟩
        have hname : f.1 ∉ seen := by
          simpa using hfresh
        refine ⟨⟨fun hmem => hrest f.1 hmem List.mem_cons_self, hnodup⟩,
          ⟨hname, fun other hother hseen => ?_⟩, hbelow, hchildren⟩
        exact hrest other hother (List.mem_cons_of_mem _ hseen)
      · intro h
        rcases h with ⟨⟨hnot, hnodup⟩, ⟨hname, hothers⟩, hchild, hchildren⟩
        have hlater : fieldDefects (f.1 :: seen) rest path = .ok [] := by
          refine ih.mpr ⟨hnodup, fun other hother hmem => ?_, hchildren⟩
          rcases List.mem_cons.mp hmem with heq | hseen
          · rw [heq] at hother
            exact hnot hother
          · exact hothers other hother hseen
        exact ⟨[], hchild, [], hlater, ⟨by simpa using hname, rfl⟩, rfl⟩

/-- Nothing is wrong with the schema itself, whatever is below it.  Nothing can be wrong with a
bare schema, though it is of no kind. -/
def Consistent : Schema -> Prop
  | .primitive _ kind constraints =>
      forall c, c ∈ constraints -> c.appliesTo.contains kind.name = true
  | .enumeration _ values =>
      values ≠ [] ∧ Value.areHashable values = true ∧ hasRepetition values = false
  | .object _ fields => (fieldNames fields).Nodup
  | .array _ element => element.isSome = true
  | .bare _ => True
  | .foreign _ => False

theorem Consistent.isSchema {s : Schema} (h : s.Consistent) : s.isSchema = true := by
  cases s with
  | foreign v =>
      exact h.elim
  | _ =>
      rfl

theorem consistent_fields_areSchemas {a : Attributes} {fields : List (String × Schema)}
    (h : Everywhere Consistent (.object a fields)) :
    forall f, f ∈ fields -> f.2.isSchema = true :=
  fun _f hf => (h.field hf).self.isSchema

theorem ok_ne_nil {d : Defect} {found : List Defect} :
    (.ok (d :: found) : Answer (List Defect)) ≠ .ok [] := by
  intro h
  cases h

/-- The walk finds nothing in a tree exactly when every schema in it is consistent. -/
theorem defects_eq_nil_iff {s : Schema} {path : String} :
    s.defects path = .ok [] <-> Everywhere Consistent s := by
  induction s using tree_induction generalizing path with
  | primitive a kind constraints =>
      rw [defects, Except.ok.injEq, misplacedConstraints, List.map_eq_nil_iff,
        List.filter_eq_nil_iff]
      constructor
      · intro h
        refine Everywhere.leaf (fun c hc => ?_) (by simp) (by simp)
        simpa using h c hc
      · intro h c hc
        have happlies : c.appliesTo.contains kind.name = true := h.self c hc
        simp only [happlies, Bool.not_true, Bool.false_eq_true, not_false_eq_true]
  | enumeration a values =>
      rw [defects, enumerationDefects_eq_nil_iff]
      exact ⟨fun h => Everywhere.leaf h (by simp) (by simp), Everywhere.self⟩
  | object a fields ih =>
      rw [defects, fieldDefects_eq_nil_iff]
      constructor
      · intro h
        exact Everywhere.object h.left (fun f hf => (ih f hf).mp (h.right.right f hf))
      · intro h
        exact ⟨h.self, fun _name _hname => List.not_mem_nil, fun f hf => (ih f hf).mpr (h.field hf)⟩
  | missing a =>
      exact iff_of_false ok_ne_nil (fun h => Bool.false_ne_true h.self)
  | array a element ih =>
      rw [defects, ih]
      exact ⟨Everywhere.array rfl, Everywhere.element⟩
  | bare a =>
      exact iff_of_true rfl (Everywhere.leaf trivial (by simp) (by simp))
  | foreign v =>
      exact iff_of_false ok_ne_nil (fun h => h.self)

theorem check_eq_ok_iff {s : Schema} {path : String} :
    s.check path = .ok s <-> Everywhere Consistent s := by
  simp only [check, Answer.bind_eq_ok, Answer.ite_refuse_eq_ok, List.isEmpty_iff, and_true]
  rw [← @defects_eq_nil_iff s (if path.isEmpty then rootPath else path)]
  constructor
  · intro h
    rcases h with ⟨found, hfound, hempty⟩
    rw [hempty] at hfound
    exact hfound
  · intro h
    exact ⟨[], h, rfl⟩

theorem check_eq_ok_of_defects {s : Schema} {p : String} (h : s.defects p = .ok [])
    (path : String) : s.check path = .ok s :=
  check_eq_ok_iff.mpr (defects_eq_nil_iff.mp h)

theorem defects_append {a : Attributes} {fields additions : List (String × Schema)}
    {p : String} (h : (Schema.object a fields).defects p = .ok [])
    (hnodup : (fieldNames additions).Nodup)
    (hfresh : forall name, name ∈ fieldNames additions -> name ∉ fieldNames fields)
    (hadditions : forall f, f ∈ additions -> f.2.defects (childPath p f.1) = .ok []) :
    (Schema.object a (fields ++ additions)).defects p = .ok [] := by
  rw [defects, fieldDefects_eq_nil_iff] at h ⊢
  refine ⟨?_, fun name _ => List.not_mem_nil, ?_⟩
  · rw [fieldNames, List.map_append]
    refine List.nodup_append.mpr ⟨h.left, hnodup, ?_⟩
    intro name hname other hother heq
    rw [← heq] at hother
    exact hfresh name hother hname
  · intro f hf
    rcases List.mem_append.mp hf with hf | hf
    · exact h.right.right f hf
    · exact hadditions f hf

/-!
## Declared fields
-/

theorem checkedFields_pairs {fields : List (String × Schema)} {seen : List String}
    (hnodup : (fieldNames fields).Nodup)
    (hnames : forall name, name ∈ fieldNames fields -> name.isEmpty = false ∧ name ∉ seen)
    (hschemas : forall f, f ∈ fields -> f.2.isSchema = true) :
    checkedFields seen (fields.map (fun f => .pair (.text f.1) f.2)) = .ok fields := by
  induction fields generalizing seen with
  | nil =>
      rfl
  | cons f rest ih =>
      rcases List.nodup_cons.mp hnodup with ⟨hfirst, hrest⟩
      rcases List.forall_mem_cons.mp hnames with ⟨⟨hempty, hseen⟩, hlater⟩
      rcases List.forall_mem_cons.mp hschemas with ⟨hschema, hschemas⟩
      have hrestFields : checkedFields (f.1 :: seen)
          (rest.map (fun f => .pair (.text f.1) f.2)) = .ok rest := by
        refine ih hrest (fun name hname => ⟨(hlater name hname).left, ?_⟩) hschemas
        intro hmem
        rcases List.mem_cons.mp hmem with heq | hmem
        · rw [heq] at hname
          exact hfirst hname
        · exact (hlater name hname).right hmem
      have hcontains : seen.contains f.1 = false := by
        simpa using hseen
      simp only [List.map_cons, checkedFields, hempty, hschema, hcontains, hrestFields]
      rfl

theorem extend_pairs {a : Attributes} {fields additions : List (String × Schema)}
    (hnodup : (fieldNames additions).Nodup)
    (hnames : forall name, name ∈ fieldNames additions ->
      name.isEmpty = false ∧ name ∉ fieldNames fields)
    (hschemas : forall f, f ∈ additions -> f.2.isSchema = true) :
    extend (.object a fields) (additions.map (fun f => .pair (.text f.1) f.2)) =
      .ok (.object a (fields ++ additions)) := by
  refine extend_eq_ok.mpr ⟨a, fields, additions, rfl, ?_, ?_, rfl⟩
  · exact checkedFields_pairs hnodup
      (fun name hname => ⟨(hnames name hname).left, List.not_mem_nil⟩) hschemas
  · rw [clash?, List.find?_eq_none]
    intro name hname
    simpa using (hnames name hname).right

end Schema
end ContentSchema
