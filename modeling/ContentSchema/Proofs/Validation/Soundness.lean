import ContentSchema.Proofs.Schema.Record
import ContentSchema.Proofs.Validation.Violations
import Mathlib.Data.List.Perm.Subperm

/-!
# Typed records

What validation returns when there are no problems: a mirror of the raw value that is a record
of the schema.  A mirror is a record exactly when every fallback value that was put in is a
record of its own schema, since fallback values are not examined again.
-/

namespace ContentSchema
namespace Schema

/-!
## Mirrors and records

Fallback values are the only parts of a mirror that were not examined.
-/

/-- In the mirror of the raw value the fallback value of the schema stands in for an absent
field. -/
inductive Injected (t : Schema) (d : Value) : Schema -> Value -> Prop
  | here {a : Attributes} {fields : List (String × Schema)} {name : String}
      {entries : List (Value × Value)} :
      (name, t) ∈ fields -> Absent entries name -> t.fallback? = some d ->
      Injected t d (.object a fields) (.mapping entries)
  | field {a : Attributes} {fields : List (String × Schema)} {f : String × Schema}
      {entries : List (Value × Value)} {raw : Value} :
      f ∈ fields -> Held entries f.1 raw -> Injected t d f.2 raw ->
      Injected t d (.object a fields) (.mapping entries)
  | element {a : Attributes} {element : Schema} {raw item : Value} {items : List Value} :
      sequenceItems? raw = some items -> item ∈ items -> Injected t d element item ->
      Injected t d (.array a (some element)) raw

theorem Injected.occurs {t s : Schema} {d raw : Value} (h : Injected t d s raw) :
    Occurs t s ∧ t.fallback? = some d := by
  induction h with
  | here hf _habsent hfallback =>
      exact ⟨.field hf .here, hfallback⟩
  | field hf _hheld _hinjected ih =>
      exact ⟨.field hf ih.left, ih.right⟩
  | element _hitems _hitem _hinjected ih =>
      exact ⟨.element ih.left, ih.right⟩

theorem isRecord_of_mirrors {s : Schema} {raw v : Value} (h : Mirrors s raw v)
    (hinjected : forall t d, Injected t d s raw -> t.IsRecord d) : s.IsRecord v := by
  induction h with
  | primitive hreads hchecks =>
      exact .primitive hreads.holds hchecks
  | enumeration hlisted =>
      exact .enumeration hlisted
  | object hnames hrequired _hheld hfilled ih =>
      rename_i a fields entries members
      refine .object ?_ ?_ ?_
      · rw [hnames]
        exact List.filter_sublist.map Prod.fst
      · intro f hf hnone
        have hpresent : ¬ isPresent entries f = true := by
          intro hpresent
          rcases exists_member hnames hf hpresent with ⟨m, hm, hfm⟩
          exact hnone (List.mem_map.mpr ⟨m, hm, hfm.symm⟩)
        rcases held_or_absent entries f.1 with ⟨raw, hheld⟩ | habsent
        · exact absurd (isPresent_of_held hheld) hpresent
        · have hoptional : ¬ f.2.isRequired = true := by
            intro hreq
            rcases hrequired f hf hreq with ⟨raw, hheld⟩
            exact habsent raw hheld
          rw [isPresent_of_absent habsent, Option.isSome_iff_ne_none, not_not] at hpresent
          simp [mayBeLeftOut, hoptional, hpresent]
      · intro f m hf hm hfm
        rcases held_or_absent entries f.1 with ⟨raw, hheld⟩ | habsent
        · exact ih f m raw hf hm hfm hheld
            (fun t d hbelow => hinjected t d (.field hf hheld hbelow))
        · exact hinjected _ _ (.here hf habsent (hfilled f m hf hm hfm habsent))
  | array hitems hlength _hmirrors ih =>
      refine .array (fun v hv => ?_)
      rcases List.mem_iff_getElem?.mp hv with ⟨i, hi⟩
      rcases List.getElem?_eq_some_iff.mp hi with ⟨hbound, _⟩
      have hitem := List.getElem?_eq_getElem (hlength ▸ hbound)
      exact ih i _ v hitem hi
        (fun t d hbelow => hinjected t d (.element hitems (List.mem_of_getElem? hitem) hbelow))

theorem isRecord_of_injected {s t : Schema} {raw v d : Value}
    (hinjected : Injected t d s raw) (h : Mirrors s raw v) (hrecord : s.IsRecord v) :
    t.IsRecord d := by
  induction hinjected generalizing v with
  | here hf habsent hfallback =>
      cases h with
      | object hnames _ _ hfilled =>
          rcases exists_filled hnames hf habsent hfallback with ⟨m, hm, hfm⟩
          have hvalue := hfilled _ m hf hm hfm habsent
          rw [hfallback] at hvalue
          injection hvalue with hvalue
          rw [hvalue]
          exact (isRecord_ofMembers hrecord).right.right _ m hf hm hfm
  | field hf hheld _hbelow ih =>
      cases h with
      | object hnames _ hmirrors _ =>
          rcases exists_member hnames hf (isPresent_of_held hheld) with ⟨m, hm, hfm⟩
          exact ih (hmirrors _ m _ hf hm hfm hheld)
            ((isRecord_ofMembers hrecord).right.right _ m hf hm hfm)
  | element hitems hitem _hbelow ih =>
      cases h with
      | array hitems' hlength hmirrors =>
          cases hrecord with
          | array hrecords =>
              rw [hitems] at hitems'
              injection hitems' with hitems'
              subst hitems'
              rcases List.mem_iff_getElem?.mp hitem with ⟨i, hi⟩
              rcases List.getElem?_eq_some_iff.mp hi with ⟨hbound, _⟩
              have hv := List.getElem?_eq_getElem (hlength.symm ▸ hbound)
              exact ih (hmirrors i _ _ hi hv)
                (hrecords _ (List.mem_of_getElem? hv))

theorem not_injected_of_mirrors_self {s t : Schema} {v d : Value}
    (hs : Everywhere WellFormed s) (h : Mirrors s v v) : ¬ Injected t d s v := by
  intro hinjected
  induction hinjected with
  | here hf habsent hfallback =>
      rcases mirrors_mapping h with ⟨members, hentries, hnames, _hmirrors, hfilled⟩
      injection hentries with hentries
      have hdistinct : (members.map Prod.fst).Nodup := by
        rw [hnames]
        exact (List.filter_sublist.map Prod.fst).nodup (nodup_of_mem_fields hs)
      rcases exists_filled hnames hf habsent hfallback with ⟨m, hm, hfm⟩
      have hvalue := hfilled _ m hf hm hfm habsent
      have hnull : m.2 ≠ .null := by
        intro hnull
        rw [hnull] at hvalue
        exact (hs.field hf).self.fallback hvalue
      have hheld := held_ofMembers hdistinct hm hnull
      rw [← hentries, ← hfm] at hheld
      exact habsent _ hheld
  | field hf hheld _hbelow ih =>
      rcases mirrors_mapping h with ⟨members, hentries, _hnames, hmirrors, _hfilled⟩
      injection hentries with hentries
      have hmember := hheld
      rw [hentries] at hmember
      exact ih (hs.field hf)
        (hmirrors _ _ _ hf (mem_of_held_ofMembers hmember) rfl hheld)
  | element hitems hitem _hbelow ih =>
      cases h with
      | array hitems' _hlength hmirrors =>
          injection hitems with hitems
          injection hitems' with hitems'
          rcases List.mem_iff_getElem?.mp hitem with ⟨i, hi⟩
          have hv := hi
          rw [← hitems] at hv
          rw [← hitems, hitems'] at hi
          exact ih hs.element (hmirrors i _ _ hi hv)

theorem isRecord_of_mirrors_self {s : Schema} {v : Value} (hs : Everywhere WellFormed s)
    (h : Mirrors s v v) : s.IsRecord v := by
  apply isRecord_of_mirrors h
  intro t d hinjected
  exact absurd hinjected (not_injected_of_mirrors_self hs h)

/-!
## Records read back

A record can be written in raw forms that come out as the record again: leaves in a form that is
read as they are, mappings of such forms under the same names, and sequences of such forms.
-/

/-- The raw forms of the given values read back. -/
structure ReadsBack (toRaw : Value -> Value) (P : Value -> Prop) : Prop where
  leaf : forall {kind : PrimitiveKind} {v : Value}, P v -> kind.Holds v -> kind.Reads (toRaw v) v
  members : forall {members : List (String × Value)}, P (.ofMembers members) ->
    toRaw (.ofMembers members) = .ofMembers (members.map (fun m => (m.1, toRaw m.2))) ∧
      forall m, m ∈ members -> P m.2
  items : forall {items : List Value}, P (.tuple items) ->
    sequenceItems? (toRaw (.tuple items)) = some (items.map toRaw) ∧
      forall item, item ∈ items -> P item

theorem names_eq_filter {fields : List (String × Schema)} {names : List String}
    (hnodup : (fieldNames fields).Nodup) (hnames : names.Sublist (fieldNames fields)) :
    names = fieldNames (fields.filter (fun f => f.1 ∈ names)) := by
  have hfilter : fieldNames (fields.filter (fun f => f.1 ∈ names)) =
      (fieldNames fields).filter (· ∈ names) := by
    rw [fieldNames, fieldNames, List.filter_map]
    rfl
  have hsublist := hnames.filter (· ∈ names)
  rw [List.filter_eq_self.mpr (fun name hname => decide_eq_true hname)] at hsublist
  rw [hfilter]
  refine hsublist.eq_of_length_le (List.subperm_of_subset (hnodup.filter _) ?_).length_le
  intro name hname
  exact of_decide_eq_true (List.mem_filter.mp hname).right

/-- A record mirrors every raw form of it that reads back. -/
theorem mirrors_of_isRecord {toRaw : Value -> Value} {P : Value -> Prop}
    (hraw : ReadsBack toRaw P) {s : Schema} {v : Value} (hs : Everywhere WellFormed s)
    (h : s.IsRecord v) (hv : P v) : Mirrors s (toRaw v) v := by
  induction h with
  | primitive hholds hchecks =>
      exact .primitive (hraw.leaf hv hholds) hchecks
  | enumeration hlisted =>
      rename_i a values t
      have hreads : PrimitiveKind.Reads .string (toRaw (.text t)) (.text t) :=
        hraw.leaf hv (.text t)
      generalize toRaw (.text t) = raw at hreads
      cases hreads
      exact .enumeration hlisted
  | object hnames hleft _hmembers ih =>
      rename_i a fields members
      rcases hraw.members hv with ⟨hform, hbelow⟩
      have hmirrors (f : String × Schema) (m : String × Value) (hf : f ∈ fields)
          (hm : m ∈ members) (hfm : f.1 = m.1) : Mirrors f.2 (toRaw m.2) m.2 :=
        ih f m hf hm hfm (hs.field hf) (hbelow m hm)
      have hdistinct := hnames.nodup (nodup_of_mem_fields hs)
      -- the raw form holds a field exactly when the record has a member for it
      have hrawNames : (members.map (fun m => (m.1, toRaw m.2))).map Prod.fst =
          members.map Prod.fst := by
        rw [List.map_map]
        rfl
      have hheld (f : String × Schema) (m : String × Value) (hf : f ∈ fields)
          (hm : m ∈ members) (hfm : f.1 = m.1) :
          Held ((members.map (fun m => (m.1, toRaw m.2))).map (fun m => (.text m.1, m.2))) f.1
            (toRaw m.2) := by
        rw [hfm]
        exact held_ofMembers (hrawNames.symm ▸ hdistinct)
          (List.mem_map.mpr ⟨m, hm, rfl⟩) (hmirrors f m hf hm hfm).raw_ne_null
      have hpresent : forall f, f ∈ fields -> isPresent
          ((members.map (fun m => (m.1, toRaw m.2))).map (fun m => (.text m.1, m.2))) f =
            decide (f.1 ∈ members.map Prod.fst) := by
        intro f hf
        by_cases hname : f.1 ∈ members.map Prod.fst
        · rcases List.mem_map.mp hname with ⟨m, hm, hmf⟩
          rw [isPresent_of_held (hheld f m hf hm hmf.symm), decide_eq_true hname]
        · have hnone := hleft f hf hname
          simp only [mayBeLeftOut, Bool.and_eq_true, Option.isNone_iff_eq_none] at hnone
          rw [isPresent_of_absent (absent_ofMembers (hrawNames.symm ▸ hname)), hnone.right,
            decide_eq_false hname]
          rfl
      rw [hform]
      refine .object ?_ ?_ ?_ ?_
      · rw [List.filter_congr hpresent]
        exact names_eq_filter (nodup_of_mem_fields hs) hnames
      · intro f hf hrequired
        by_contra hmissing
        have hname : f.1 ∉ members.map Prod.fst := by
          intro hname
          rcases List.mem_map.mp hname with ⟨m, hm, hmf⟩
          exact hmissing ⟨_, hheld f m hf hm hmf.symm⟩
        have hoptional := hleft f hf hname
        rw [mayBeLeftOut, hrequired] at hoptional
        cases hoptional
      · intro f m raw hf hm hfm hother
        rw [← (hheld f m hf hm hfm).unique hother]
        exact hmirrors f m hf hm hfm
      · intro f m hf hm hfm habsent
        exact absurd (hheld f m hf hm hfm) (habsent _)
  | array _hitems ih =>
      rename_i a element items
      rcases hraw.items hv with ⟨hform, hbelow⟩
      refine .array hform (by rw [List.length_map]) ?_
      intro i raw v hraw hv
      have hmem := List.mem_of_getElem? hv
      rw [List.getElem?_map, hv] at hraw
      injection hraw with hraw
      rw [← hraw]
      exact ih v hmem hs.element (hbelow v hmem)

theorem readsBack_id : ReadsBack id (fun _ => True) := by
  refine ⟨fun _ hholds => hholds.reads, fun _ => ⟨?_, fun _ _ => trivial⟩,
    fun _ => ⟨?_, fun _ _ => trivial⟩⟩
  · simp only [id_eq, Prod.eta, List.map_id']
  · rw [List.map_id]
    rfl

theorem IsRecord.examine {s : Schema} {v : Value} {path : String}
    (hs : Everywhere WellFormed s) (h : s.IsRecord v) :
    s.examine v path = .ok (.clean v) :=
  examine_of_mirrors hs (mirrors_of_isRecord readsBack_id hs h trivial)

/-!
## Typed records
-/

/-- Validation of a value that is not null returns problems and null where the value does not
conform to the schema, and otherwise a record of the schema that mirrors the value, provided
that every fallback value is a record of its own schema and every constraint that is tested
answers. -/
theorem validate_sound {rule : Schema -> Call -> Schema -> Prop} {s : Schema} {raw : Value}
    (hs : Built rule s) (hraw : raw ≠ .null)
    (hanswers : forall c v, Tested c v s raw -> Answer.Succeeds (c.check v))
    (hfallbacks : Everywhere (fun t => forall d, t.fallback? = some d -> t.IsRecord d) s) :
    exists result, s.validate raw = .ok result ∧
      ((¬ Conforms s raw ∧ result.errors ≠ [] ∧ result.value = .null) ∨
        (Conforms s raw ∧ result.errors = [] ∧ Mirrors s raw result.value ∧
          s.IsRecord result.value ∧ ¬ Value.Inside .null result.value)) := by
  have hwell := hs.wellFormed
  rcases (succeeds_validate_iff hwell).mpr hanswers with ⟨result, hresult⟩
  rcases (validate_eq_ok hwell.self.isSchema (Or.inl hraw)).mp hresult with
    ⟨found, hfound, hresultEq⟩
  have hconforms := clean_iff_conforms hwell hanswers hfound
  refine ⟨result, hresult, ?_⟩
  by_cases hclean : found.errors = []
  · have hmirrors := examine_mirrors hwell hfound hclean
    have hrecord : s.IsRecord found.value := by
      apply isRecord_of_mirrors hmirrors
      intro t d hinjected
      exact hfallbacks t hinjected.occurs.left d hinjected.occurs.right
    rw [hresultEq, Findings.result_of_clean hclean]
    exact Or.inr ⟨hconforms.mp hclean, rfl, hmirrors, hrecord, hrecord.no_null_inside⟩
  · rw [hresultEq, Findings.result_of_problems hclean]
    exact Or.inl ⟨fun h => hclean (hconforms.mpr h), hclean, rfl⟩

theorem product_fallbacks_areRecords :
    Everywhere (fun t => forall d, t.fallback? = some d -> t.IsRecord d) product := by
  refine Everywhere.object (fun d => fallback_isRecord_of_fresh rfl) ?_
  intro f hf
  simp only [List.mem_cons, List.not_mem_nil, or_false] at hf
  rcases hf with hf | hf | hf | hf <;> subst hf
  · exact Everywhere.leaf (fun d => fallback_isRecord_of_fresh rfl) (by simp) (by simp)
  · exact Everywhere.leaf (fun d => fallback_isRecord_of_fresh rfl) (by simp) (by simp)
  · refine Everywhere.leaf ?_ (by simp) (by simp)
    intro d hd
    injection hd with hd
    rw [← hd]
    exact .enumeration List.mem_cons_self
  · refine Everywhere.array (by simp [fallback?, attributes?]) ?_
    exact Everywhere.leaf (fun d => fallback_isRecord_of_fresh rfl) (by simp [string, ofKind])
      (by simp [string, ofKind])

theorem product_validate_sound :
    Built (fun _ _ _ => True) product ∧
    exists result,
      product.validate (.mapping [(.text "price", .int 3), (.text "name", .text "pen"),
        (.text "status", .null), (.text "colour", .null)]) = .ok result ∧
      ((¬ Conforms product (.mapping [(.text "price", .int 3), (.text "name", .text "pen"),
          (.text "status", .null), (.text "colour", .null)]) ∧
          result.errors ≠ [] ∧ result.value = .null) ∨
        (Conforms product (.mapping [(.text "price", .int 3), (.text "name", .text "pen"),
          (.text "status", .null), (.text "colour", .null)]) ∧ result.errors = [] ∧
          Mirrors product (.mapping [(.text "price", .int 3), (.text "name", .text "pen"),
            (.text "status", .null), (.text "colour", .null)]) result.value ∧
          product.IsRecord result.value ∧ ¬ Value.Inside .null result.value)) := by
  have hproduct : Built (fun _ _ _ => True) product := built_product (fun _ _ _ => trivial)
  refine ⟨hproduct, validate_sound hproduct (by simp) ?_ product_fallbacks_areRecords⟩
  intro c v htested
  exact product_answers htested

example :
    validate (.array .fresh (some date)) (.list [.text "2024-01-15"]) =
      .ok (.accepted (.tuple [.date ⟨2024, 1, 15⟩])) := rfl

end Schema
end ContentSchema
