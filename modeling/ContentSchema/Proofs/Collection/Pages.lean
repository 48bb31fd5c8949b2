import ContentSchema.Proofs.Collection.Expansion
import ContentSchema.Proofs.Validation.Parts

/-!
# Pages

Page fields are conservative.  They stand behind the fields that a collection declares, under
names that it does not declare, so what validation says of the declared fields is not touched:
the errors of these come first and unchanged, and a page that is accepted has the record of its
declared fields and beside it the page fields that the document holds.
-/

namespace ContentSchema
namespace Page

open Schema

variable {entries : List (Value × Value)} {f : String × Schema} {m : String × Value}

/-!
## Single page fields

A page field takes a value as it is or reports that it has the wrong type.  None is required,
and only navigation is filled in.
-/

theorem fields_plain (hf : f ∈ fields) :
    exists a kind, f.2 = .primitive a kind [] ∧ kind ≠ .date ∧ a.isRequired = false ∧
      a.fallback = if f.1 = "navigation" then some (.bool true) else none := by
  simp only [fields, List.mem_cons, List.not_mem_nil, or_false] at hf
  rcases hf with hf | hf | hf | hf | hf <;> rw [hf] <;>
    exact ⟨_, _, rfl, by decide, rfl, rfl⟩

theorem examine_field (hf : f ∈ fields) (raw : Value) (path : String) :
    f.2.examine raw path = .ok (.clean raw) ∨
      exists expected, f.2.examine raw path = .ok (.problem (mistyped expected raw path)) := by
  rcases fields_plain hf with ⟨a, kind, hplain, hkind, _hoptional, _hfallback⟩
  rw [hplain]
  cases kind with
  | date =>
      exact absurd rfl hkind
  | string =>
      cases raw with
      | text s =>
          exact Or.inl rfl
      | _ =>
          exact Or.inr ⟨"string", rfl⟩
  | number =>
      cases raw with
      | int n =>
          exact Or.inl rfl
      | float x =>
          exact Or.inl rfl
      | _ =>
          exact Or.inr ⟨"number", rfl⟩
  | boolean =>
      cases raw with
      | bool b =>
          exact Or.inl rfl
      | _ =>
          exact Or.inr ⟨"boolean", rfl⟩

theorem fieldPart_cases (entries : List (Value × Value)) (hf : f ∈ fields) :
    (exists raw, Held entries f.1 raw ∧ FieldPart entries "" f ([(f.1, raw)], [])) ∨
      (exists raw expected, Held entries f.1 raw ∧
        FieldPart entries "" f ([(f.1, .null)], [mistyped expected raw f.1])) ∨
      Absent entries f.1 ∧
        FieldPart entries "" f (if f.1 = "navigation" then [(f.1, .bool true)] else [], []) := by
  rcases held_or_absent entries f.1 with ⟨raw, hheld⟩ | habsent
  · rcases examine_field hf raw (FieldPath.joinField "" f.1) with hclean | ⟨expected, hproblem⟩
    · exact Or.inl ⟨raw, hheld, .held hheld hclean⟩
    · exact Or.inr (Or.inl ⟨raw, expected, hheld, .held hheld hproblem⟩)
  · refine Or.inr (Or.inr ⟨habsent, ?_⟩)
    rcases fields_plain hf with ⟨a, kind, hplain, _hkind, hoptional, hfallback⟩
    have hrequired : f.2.isRequired = false := by
      rw [hplain]
      exact hoptional
    have hfilled : f.2.fallback? = if f.1 = "navigation" then some (.bool true) else none := by
      rw [hplain]
      exact hfallback
    by_cases hname : f.1 = "navigation"
    · rw [if_pos hname] at hfilled ⊢
      exact .filled habsent hfilled
    · rw [if_neg hname] at hfilled ⊢
      exact .leftOut habsent (by simp [mayBeLeftOut, hrequired, hfilled])

theorem examinable (hf : f ∈ fields) : Examinable entries f := by
  rcases fieldPart_cases entries hf with ⟨_, _, hpart⟩ | ⟨_, _, _, hpart⟩ | ⟨_, hpart⟩
  · exact ⟨_, examineField_eq_ok.mpr hpart⟩
  · exact ⟨_, examineField_eq_ok.mpr hpart⟩
  · exact ⟨_, examineField_eq_ok.mpr hpart⟩

theorem mem_share_errors (hf : f ∈ fields) {e : FieldError} (he : e ∈ (share entries f).2) :
    exists raw expected, Held entries f.1 raw ∧ e = mistyped expected raw f.1 := by
  rcases fieldPart_cases entries hf with
    ⟨_, _, hpart⟩ | ⟨raw, expected, hheld, hpart⟩ | ⟨_, hpart⟩
  · rw [share_eq hpart] at he
    cases he
  · rw [share_eq hpart] at he
    exact ⟨raw, expected, hheld, List.mem_singleton.mp he⟩
  · rw [share_eq hpart] at he
    cases he

theorem mem_share_iff (hf : f ∈ fields) (hclean : (share entries f).2 = []) :
    m ∈ (share entries f).1 <->
      m.1 = f.1 ∧ (Held entries f.1 m.2 ∨
        Absent entries f.1 ∧ m = ("navigation", .bool true)) := by
  rcases fieldPart_cases entries hf with
    ⟨raw, hheld, hpart⟩ | ⟨_, _, _, hpart⟩ | ⟨habsent, hpart⟩
  · rw [share_eq hpart, List.mem_singleton, Prod.ext_iff]
    refine and_congr_right fun _hname => ?_
    constructor
    · intro hraw
      rw [hraw]
      exact Or.inl hheld
    · intro h
      rcases h with hother | ⟨habsent, _hfilled⟩
      · exact hother.unique hheld
      · exact absurd hheld (habsent raw)
  · rw [share_eq hpart] at hclean
    cases hclean
  · rw [share_eq hpart]
    by_cases hname : f.1 = "navigation"
    · rw [if_pos hname, List.mem_singleton, hname]
      rw [hname] at habsent
      constructor
      · intro hm
        rw [hm]
        exact ⟨rfl, Or.inr ⟨habsent, rfl⟩⟩
      · intro h
        rcases h.right with hheld | ⟨_habsent, hm⟩
        · exact absurd hheld (habsent m.2)
        · exact hm
    · rw [if_neg hname]
      refine iff_of_false List.not_mem_nil ?_
      intro h
      rcases h.right with hheld | ⟨_habsent, hm⟩
      · exact habsent m.2 hheld
      · rw [hm] at h
        exact hname h.left.symm

/-!
## Page fields behind declared fields
-/

/-- The result on a page beside the result against its declared fields alone.  Further errors
are about values that stand under undeclared page fields.  A page is accepted only where its
declared fields are, and then its record has, under the declared names, the record of these, and
under other names the page fields that the document holds, with navigation filled in. -/
structure Conserves (declared : List String) (entries : List (Value × Value))
    (own whole : ValidationResult) : Prop where
  errors : exists later, whole.errors = own.errors ++ later ∧
    forall e, e ∈ later -> exists name raw expected, name ∈ fieldNames fields ∧
      name ∉ declared ∧ Held entries name raw ∧ e = mistyped expected raw name
  record : whole.ok = true -> own.ok = true ∧ exists members,
    whole.value = .ofMembers members ∧
      own.value = .ofMembers (members.filter (fun m => declared.contains m.1)) ∧
      forall m, m.1 ∉ declared ->
        (m ∈ members <-> m.1 ∈ fieldNames fields ∧
          (Held entries m.1 m.2 ∨ Absent entries m.1 ∧ m = ("navigation", .bool true)))

def undeclared (declared : List String) : List (String × Schema) :=
  fields.filter (fun f => !declared.contains f.1)

theorem mem_undeclared {declared : List String} :
    f ∈ undeclared declared <-> f ∈ fields ∧ f.1 ∉ declared := by
  simp [undeclared]

theorem filter_declared {declared : List (String × Schema)} :
    (declared ++ undeclared (fieldNames declared)).filter
      (fun f => (fieldNames declared).contains f.1) = declared := by
  rw [List.filter_append, List.filter_eq_self.mpr, List.filter_eq_nil_iff.mpr, List.append_nil]
  · intro f hf
    simpa using (mem_undeclared.mp hf).right
  · intro f hf
    simpa using name_mem hf

theorem mem_shares_iff {declared : List (String × Schema)}
    (hclean : forall f, f ∈ undeclared (fieldNames declared) -> (share entries f).2 = [])
    (hm : m.1 ∉ fieldNames declared) :
    m ∈ (declared ++ undeclared (fieldNames declared)).flatMap (fun f => (share entries f).1) <->
      m.1 ∈ fieldNames fields ∧
        (Held entries m.1 m.2 ∨ Absent entries m.1 ∧ m = ("navigation", .bool true)) := by
  rw [List.mem_flatMap]
  constructor
  · intro h
    rcases h with ⟨f, hf, hshare⟩
    rcases List.mem_append.mp hf with hf | hf
    · rw [name_of_share hshare] at hm
      exact absurd (name_mem hf) hm
    · have hpage := (mem_undeclared.mp hf).left
      rcases (mem_share_iff hpage (hclean f hf)).mp hshare with ⟨hname, hvalue⟩
      rw [hname]
      exact ⟨name_mem hpage, hvalue⟩
  · intro h
    rcases h with ⟨hpage, hvalue⟩
    rcases List.mem_map.mp hpage with ⟨f, hf, hname⟩
    rw [← hname] at hvalue hm
    have hundeclared := mem_undeclared.mpr ⟨hf, hm⟩
    exact ⟨f, List.mem_append_right _ hundeclared,
      (mem_share_iff hf (hclean f hundeclared)).mpr ⟨hname.symm, hvalue⟩⟩

theorem conserves_gathered {declared : List (String × Schema)} :
    Conserves (fieldNames declared) entries (gathered entries declared).result
      (gathered entries (declared ++ undeclared (fieldNames declared))).result := by
  have hbehind : Behind (gathered entries declared).result
      (gathered entries (undeclared (fieldNames declared))).result
      (gathered entries (declared ++ undeclared (fieldNames declared))).result :=
    behind_of_gathered
  refine ⟨⟨_, hbehind.errors, ?_⟩, ?_⟩
  · intro e he
    rw [Findings.result_errors] at he
    rcases List.mem_flatMap.mp he with ⟨f, hf, he⟩
    rcases mem_undeclared.mp hf with ⟨hpage, hfresh⟩
    rcases mem_share_errors hpage he with ⟨raw, expected, hheld, heq⟩
    exact ⟨f.1, raw, expected, name_mem hpage, hfresh, hheld, heq⟩
  · intro hok
    rcases hbehind.record hok with ⟨hown, hadded, _⟩
    have hclean := List.flatMap_eq_nil_iff.mp (ok_result_iff.mp hadded)
    refine ⟨hown, _, by rw [Findings.result_of_clean (ok_result_iff.mp hok)]; rfl, ?_, ?_⟩
    · have hrestricted : (gathered entries
          ((declared ++ undeclared (fieldNames declared)).filter
            (fun f => (fieldNames declared).contains f.1))).value = _ :=
        gathered_filter (fun name => (fieldNames declared).contains name)
      rw [filter_declared] at hrestricted
      rw [Findings.result_of_clean (ok_result_iff.mp hown)]
      exact hrestricted
    · exact fun m hm => mem_shares_iff hclean hm

end Page

namespace Registry

variable {r : Registry} {name : String} {d : Descriptor}

/-- Data is validated against what its collection declares and nothing else.  The effective
schema of pages has the declared fields, unchanged and in order, and behind them the page fields
that are not declared; and wherever the declared fields have a result on a mapping, the page has
one that conserves it. -/
theorem validate_conserves {ops : List Operation} {events : List Event}
    (hrun : empty.run ops = (r, events)) (hd : r.resolve name = .ok d) :
    (d.kind = .data -> r.effectiveOf name = .ok d.root ∧
      forall raw, r.validate name raw = d.root.toSchema.validate raw) ∧
    (d.kind = .page ->
      r.effectiveOf name = .ok ⟨d.root.attributes, d.root.fields ++
        Page.fields.filter (fun f => !d.root.fieldNames.contains f.1)⟩ ∧
      forall entries own, d.root.toSchema.validate (.mapping entries) = .ok own ->
        exists whole, r.validate name (.mapping entries) = .ok whole ∧
          Page.Conserves d.root.fieldNames entries own whole) := by
  have hsound := sound_of_run hrun
  have heffective := hsound.effectiveOf_eq hd
  have hvalidate := hsound.validate_eq hd
  have hconsistent := hsound.consistent_effective hd
  constructor
  · intro hkind
    have hadded : d.addedFields = [] := by
      rw [Descriptor.addedFields, hkind]
    rw [hadded, List.append_nil] at heffective hvalidate
    exact ⟨heffective, fun raw => congrFun hvalidate raw⟩
  · intro hkind
    have hadded : d.addedFields = Page.undeclared d.root.fieldNames := by
      rw [Descriptor.addedFields, hkind]
      rfl
    rw [hadded] at heffective hvalidate hconsistent
    refine ⟨heffective, fun entries own hown => ?_⟩
    have hnames : (Schema.fieldNames
        (d.root.fields ++ Page.undeclared d.root.fieldNames)).Nodup :=
      hconsistent.self
    have hschemas := Schema.consistent_fields_areSchemas hconsistent
    have hrootNames : (Schema.fieldNames d.root.fields).Nodup := by
      rw [Schema.fieldNames, List.map_append] at hnames
      exact hnames.of_append_left
    have hrootSchemas : forall f, f ∈ d.root.fields -> f.2.isSchema = true :=
      fun f hf => hschemas f (List.mem_append_left _ hf)
    rcases (Schema.validate_mapping_eq_ok hrootNames hrootSchemas).mp hown with
      ⟨hexaminable, hownEq⟩
    have hwhole : r.validate name (.mapping entries) = .ok (Schema.gathered entries
        (d.root.fields ++ Page.undeclared d.root.fieldNames)).result := by
      rw [hvalidate]
      refine (Schema.validate_mapping_eq_ok hnames hschemas).mpr ⟨?_, rfl⟩
      intro f hf
      rcases List.mem_append.mp hf with hf | hf
      · exact hexaminable f hf
      · exact Page.examinable (Page.mem_undeclared.mp hf).left
    refine ⟨_, hwhole, ?_⟩
    rw [hownEq]
    exact Page.conserves_gathered

theorem notes_conserve :
    exists r events own whole, empty.run session = (r, events) ∧
      r.resolve "notes" = .ok notes ∧
      notes.root.toSchema.validate (.mapping [(.text "title", .text "Tea"),
        (.text "body", .text "Steep it."), (.text "navigation", .null)]) = .ok own ∧
      r.validate "notes" (.mapping [(.text "title", .text "Tea"),
        (.text "body", .text "Steep it."), (.text "navigation", .null)]) = .ok whole ∧
      own = .accepted (.mapping [(.text "title", .text "Tea")]) ∧
      whole.value = .mapping [(.text "title", .text "Tea"), (.text "body", .text "Steep it."),
        (.text "navigation", .bool true)] ∧
      Page.Conserves ["title"] [(.text "title", .text "Tea"),
        (.text "body", .text "Steep it."), (.text "navigation", .null)] own whole := by
  let entries : List (Value × Value) := [(.text "title", .text "Tea"),
    (.text "body", .text "Steep it."), (.text "navigation", .null)]
  have hresolve : (empty.run session).1.resolve "notes" = .ok notes := by
    with_unfolding_all rfl
  have hown : notes.root.toSchema.validate (.mapping entries) =
      .ok (.accepted (.mapping [(.text "title", .text "Tea")])) := by
    with_unfolding_all rfl
  rcases (validate_conserves (Eq.refl (empty.run session)) hresolve).right rfl with
    ⟨_heffective, hconserves⟩
  rcases hconserves entries _ hown with ⟨whole, hwhole, hadded⟩
  have hvalue : exists result, (empty.run session).1.validate "notes" (.mapping entries) =
      .ok result ∧ result.value = .mapping [(.text "title", .text "Tea"),
        (.text "body", .text "Steep it."), (.text "navigation", .bool true)] :=
    ⟨_, by with_unfolding_all rfl, by with_unfolding_all rfl⟩
  rcases hvalue with ⟨result, hresult, hvalue⟩
  have hsame := hwhole.symm.trans hresult
  injection hsame with hsame
  rw [← hsame] at hvalue
  exact ⟨_, _, _, whole, rfl, hresolve, hown, hwhole, rfl, hvalue, hadded⟩

end Registry
end ContentSchema
