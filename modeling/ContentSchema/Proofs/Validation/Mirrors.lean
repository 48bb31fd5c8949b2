import ContentSchema.Proofs.Schema.Shape

/-!
# Mirrors

The value that validation builds mirrors the raw value: it has the same shape, with undeclared
entries dropped, fallback values put in for absent fields and leaves in their typed form.
-/

namespace ContentSchema
namespace Schema

/-- The field has a member in the record: the mapping holds a value for it, or there is a
fallback value. -/
def isPresent (entries : List (Value × Value)) (f : String × Schema) : Bool :=
  (candidate? entries f.1).isSome || f.2.fallback?.isSome

inductive Mirrors : Schema -> Value -> Value -> Prop
  | primitive {a : Attributes} {kind : PrimitiveKind} {constraints : List Constraint}
      {raw v : Value} :
      kind.Reads raw v -> (forall c, c ∈ constraints -> c.check v = .ok true) ->
      Mirrors (.primitive a kind constraints) raw v
  | enumeration {a : Attributes} {values : List Value} {t : String} :
      .text t ∈ values -> Mirrors (.enumeration a values) (.text t) (.text t)
  | object {a : Attributes} {fields : List (String × Schema)}
      {entries : List (Value × Value)} {members : List (String × Value)} :
      members.map Prod.fst = fieldNames (fields.filter (isPresent entries)) ->
      (forall f, f ∈ fields -> f.2.isRequired = true -> exists raw, Held entries f.1 raw) ->
      (forall f m raw, f ∈ fields -> m ∈ members -> f.1 = m.1 -> Held entries f.1 raw ->
        Mirrors f.2 raw m.2) ->
      (forall f m, f ∈ fields -> m ∈ members -> f.1 = m.1 -> Absent entries f.1 ->
        f.2.fallback? = some m.2) ->
      Mirrors (.object a fields) (.mapping entries) (.ofMembers members)
  | array {a : Attributes} {element : Schema} {raw : Value} {items values : List Value} :
      sequenceItems? raw = some items -> values.length = items.length ->
      (forall (i : Nat) item v, items[i]? = some item -> values[i]? = some v ->
        Mirrors element item v) ->
      Mirrors (.array a (some element)) raw (.tuple values)

theorem isPresent_of_held {entries : List (Value × Value)} {f : String × Schema}
    {raw : Value} (h : Held entries f.1 raw) : isPresent entries f = true := by
  simp [isPresent, candidate?_eq_some_iff.mpr h]

theorem isPresent_of_absent {entries : List (Value × Value)} {f : String × Schema}
    (h : Absent entries f.1) : isPresent entries f = f.2.fallback?.isSome := by
  simp [isPresent, candidate?_eq_none_iff.mpr h]

theorem Mirrors.ne_null {s : Schema} {raw v : Value} (h : Mirrors s raw v) : v ≠ .null := by
  cases h with
  | primitive hreads _ =>
      exact hreads.holds.ne_null
  | _ =>
      simp [Value.ofMembers]

theorem mirrors_mapping {a : Attributes} {fields : List (String × Schema)}
    {entries : List (Value × Value)} {v : Value}
    (h : Mirrors (.object a fields) (.mapping entries) v) :
    exists members, v = .ofMembers members ∧
      members.map Prod.fst = fieldNames (fields.filter (isPresent entries)) ∧
      (forall f m raw, f ∈ fields -> m ∈ members -> f.1 = m.1 -> Held entries f.1 raw ->
        Mirrors f.2 raw m.2) ∧
      (forall f m, f ∈ fields -> m ∈ members -> f.1 = m.1 -> Absent entries f.1 ->
        f.2.fallback? = some m.2) := by
  cases h with
  | object hnames _hrequired hmirrors hfilled =>
      exact ⟨_, rfl, hnames, hmirrors, hfilled⟩

/-!
The members are those of the fields that are present.
-/

theorem exists_member {fields : List (String × Schema)} {entries : List (Value × Value)}
    {members : List (String × Value)}
    (hnames : members.map Prod.fst = fieldNames (fields.filter (isPresent entries)))
    {f : String × Schema} (hf : f ∈ fields) (hpresent : isPresent entries f = true) :
    exists m, m ∈ members ∧ f.1 = m.1 := by
  have hname : f.1 ∈ members.map Prod.fst := by
    rw [hnames]
    exact List.mem_map.mpr ⟨f, List.mem_filter.mpr ⟨hf, hpresent⟩, rfl⟩
  rcases List.mem_map.mp hname with ⟨m, hm, hmf⟩
  exact ⟨m, hm, hmf.symm⟩

theorem exists_filled {fields : List (String × Schema)} {entries : List (Value × Value)}
    {members : List (String × Value)}
    (hnames : members.map Prod.fst = fieldNames (fields.filter (isPresent entries)))
    {f : String × Schema} (hf : f ∈ fields) {d : Value} (habsent : Absent entries f.1)
    (hfallback : f.2.fallback? = some d) : exists m, m ∈ members ∧ f.1 = m.1 := by
  apply exists_member hnames hf
  rw [isPresent_of_absent habsent, hfallback]
  rfl

/-!
## What is accepted mirrors the raw value
-/

theorem FieldPart.names {entries : List (Value × Value)} {path : String}
    {f : String × Schema} {part : List (String × Value) × List FieldError}
    (h : FieldPart entries path f part) :
    part.1.map Prod.fst = if isPresent entries f then [f.1] else [] := by
  cases h with
  | held hheld _ =>
      rw [isPresent_of_held hheld]
      rfl
  | missing habsent hrequired =>
      rw [isPresent_of_absent habsent, fallback?_of_required hrequired]
      rfl
  | filled habsent hfallback =>
      rw [isPresent_of_absent habsent, hfallback]
      rfl
  | leftOut habsent hleft =>
      simp only [mayBeLeftOut, Bool.and_eq_true, Option.isNone_iff_eq_none] at hleft
      rw [isPresent_of_absent habsent, hleft.right]
      rfl

theorem FieldPart.exists_held {entries : List (Value × Value)} {path : String}
    {f : String × Schema} {part : List (String × Value) × List FieldError}
    (h : FieldPart entries path f part) (hclean : part.2 = []) (hrequired : f.2.isRequired = true) :
    exists raw, Held entries f.1 raw := by
  cases h with
  | held hheld _ =>
      exact ⟨_, hheld⟩
  | missing _ _ =>
      cases hclean
  | filled _ hfallback =>
      rw [fallback?_of_required hrequired] at hfallback
      cases hfallback
  | leftOut _ hleft =>
      rw [mayBeLeftOut, hrequired] at hleft
      cases hleft

theorem FieldPart.fallback?_eq_some {entries : List (Value × Value)} {path : String}
    {f : String × Schema} {part : List (String × Value) × List FieldError}
    (h : FieldPart entries path f part) (habsent : Absent entries f.1) {m : String × Value}
    (hm : m ∈ part.1) : f.2.fallback? = some m.2 := by
  cases h with
  | held hheld _ =>
      exact absurd hheld (habsent _)
  | missing _ _ =>
      cases hm
  | filled _ hfallback =>
      rw [List.mem_singleton.mp hm]
      exact hfallback
  | leftOut _ _ =>
      cases hm

theorem fieldParts_names {entries : List (Value × Value)} {path : String}
    {fields : List (String × Schema)}
    {parts : List (List (String × Value) × List FieldError)}
    (h : List.Forall₂ (FieldPart entries path) fields parts) :
    (parts.flatMap Prod.fst).map Prod.fst =
      fieldNames (fields.filter (isPresent entries)) := by
  induction h with
  | nil =>
      rfl
  | cons hpart _hrest ih =>
      rename_i f part rest later
      rw [List.flatMap_cons, List.map_append, ih, hpart.names, List.filter_cons]
      cases isPresent entries f <;> rfl

theorem fieldParts_nodup {entries : List (Value × Value)} {path : String}
    {fields : List (String × Schema)}
    {parts : List (List (String × Value) × List FieldError)}
    (h : List.Forall₂ (FieldPart entries path) fields parts)
    (hnodup : (fieldNames fields).Nodup) :
    ((parts.flatMap Prod.fst).map Prod.fst).Nodup := by
  rw [fieldParts_names h]
  exact (List.filter_sublist.map Prod.fst).nodup hnodup

theorem exists_fieldPart {entries : List (Value × Value)} {path : String}
    {fields : List (String × Schema)}
    {parts : List (List (String × Value) × List FieldError)}
    (h : List.Forall₂ (FieldPart entries path) fields parts)
    {m : String × Value} (hm : m ∈ parts.flatMap Prod.fst) :
    exists f part, f ∈ fields ∧ part ∈ parts ∧ FieldPart entries path f part ∧
      m ∈ part.1 := by
  induction h with
  | nil =>
      cases hm
  | cons hpart _hrest ih =>
      rename_i f part rest later
      rw [List.flatMap_cons] at hm
      rcases List.mem_append.mp hm with hm | hm
      · exact ⟨f, part, List.mem_cons_self, List.mem_cons_self, hpart, hm⟩
      · rcases ih hm with ⟨g, other, hg, hother, hgpart, hm⟩
        exact ⟨g, other, List.mem_cons_of_mem _ hg, List.mem_cons_of_mem _ hother, hgpart, hm⟩

theorem FieldPart.name {entries : List (Value × Value)} {path : String}
    {f : String × Schema} {part : List (String × Value) × List FieldError}
    (h : FieldPart entries path f part) {m : String × Value} (hm : m ∈ part.1) :
    m.1 = f.1 := by
  have hname : m.1 ∈ part.1.map Prod.fst := List.mem_map.mpr ⟨m, hm, rfl⟩
  rw [h.names] at hname
  cases hpresent : isPresent entries f with
  | true =>
      rw [hpresent] at hname
      exact List.mem_singleton.mp hname
  | false =>
      rw [hpresent] at hname
      cases hname

theorem fieldPart_of_member {a : Attributes} {entries : List (Value × Value)} {path : String}
    {fields : List (String × Schema)}
    {parts : List (List (String × Value) × List FieldError)}
    (hs : Everywhere WellFormed (.object a fields))
    (h : List.Forall₂ (FieldPart entries path) fields parts)
    {f : String × Schema} {m : String × Value} (hf : f ∈ fields)
    (hm : m ∈ parts.flatMap Prod.fst) (hfm : f.1 = m.1) :
    exists part, part ∈ parts ∧ FieldPart entries path f part ∧ m ∈ part.1 := by
  rcases exists_fieldPart h hm with ⟨g, part, hg, hmem, hpart, hm⟩
  have hfg : f = g :=
    field_unique (nodup_of_mem_fields hs) hf hg (hfm.trans (hpart.name hm))
  rw [hfg]
  exact ⟨part, hmem, hpart, hm⟩

theorem examine_mirrors {s : Schema} {raw : Value} {path : String} {found : Findings}
    (hs : Everywhere WellFormed s) (h : s.examine raw path = .ok found)
    (hclean : found.errors = []) : Mirrors s raw found.value := by
  induction s using tree_induction generalizing raw path found with
  | primitive a kind constraints =>
      cases examined_of_examine h with
      | read hreads herrors =>
          cases hclean
          exact .primitive hreads (violations_eq_nil_iff.mp herrors)
      | unread _hunread =>
          cases hclean
  | enumeration a values =>
      cases examined_of_examine h with
      | listed hlisted =>
          exact .enumeration hlisted
      | unlisted _hunlisted =>
          cases hclean
      | noText _hother =>
          cases hclean
  | object a fields ih =>
      cases examined_of_examine h with
      | mapping hparts =>
          rename_i entries parts
          have hcleanParts : forall part, part ∈ parts -> part.2 = [] :=
            List.flatMap_eq_nil_iff.mp hclean
          rw [recordOf_of_nodup (fieldParts_nodup hparts (nodup_of_mem_fields hs))]
          refine .object (fieldParts_names hparts) ?_ ?_ ?_
          · intro f hf hrequired
            rcases forall₂_of_mem hparts hf with ⟨part, hmem, hpart⟩
            exact hpart.exists_held (hcleanParts part hmem) hrequired
          · intro f m raw hf hm hfm hheld
            rcases fieldPart_of_member hs hparts hf hm hfm with ⟨part, hmem, hpart, hm⟩
            rcases hpart.of_held hheld with ⟨found, hfound, heq⟩
            have hpartClean := hcleanParts part hmem
            rw [heq] at hm hpartClean
            rw [List.mem_singleton.mp hm]
            exact ih f hf (hs.field hf) hfound hpartClean
          · intro f m hf hm hfm habsent
            rcases fieldPart_of_member hs hparts hf hm hfm with ⟨part, _hmem, hpart, hm⟩
            exact hpart.fallback?_eq_some habsent hm
      | noMapping _hother =>
          cases hclean
  | missing a =>
      cases hs.self.shape
  | array a element ih =>
      cases examined_of_examine h with
      | sequence hitems hparts =>
          rename_i items parts
          have hcleanParts : forall part, part ∈ parts -> part.errors = [] :=
            List.flatMap_eq_nil_iff.mp hclean
          refine .array hitems ?_ ?_
          · rw [List.length_map, ← hparts.length_eq, List.length_zipIdx]
          · intro i item v hitem hv
            have hindexed : items.zipIdx[i]? = some (item, i) := by
              rw [List.getElem?_zipIdx, hitem, Nat.zero_add]
              rfl
            rw [List.getElem?_map] at hv
            rcases Option.map_eq_some_iff.mp hv with ⟨part, hpart, hpartValue⟩
            rw [← hpartValue]
            exact ih hs.element (forall₂_getElem? hparts hindexed hpart)
              (hcleanParts part (List.mem_of_getElem? hpart))
      | noSequence _hother =>
          cases hclean
  | bare a =>
      exact hs.self.shape.elim
  | foreign v =>
      exact hs.self.shape.elim

theorem mirrors_of_findings {s : Schema} {raw : Value} {path : String} {found : Findings}
    (hs : Everywhere WellFormed s) (h : s.examine raw path = .ok found)
    (hok : found.result.ok = true) : Mirrors s raw found.result.value := by
  have hclean : found.errors = [] := by
    rw [← Findings.result_errors]
    exact List.isEmpty_iff.mp hok
  rw [Findings.result_of_clean hclean]
  exact examine_mirrors hs h hclean

theorem mirrors_of_required {s strict : Schema} {v : Value} {result : ValidationResult}
    (hs : Everywhere WellFormed s) (hstrict : s.required = .ok strict)
    (hresult : strict.validate v = .ok result) (hok : result.ok = true) :
    Mirrors s v result.value := by
  rcases (validate_required hstrict).mp hresult with ⟨found, hfound, hresultEq⟩
  rw [hresultEq] at hok ⊢
  exact mirrors_of_findings hs hfound hok

theorem mirrors_of_accepted {s : Schema} {raw : Value} {result : ValidationResult}
    (hs : Everywhere WellFormed s) (hraw : raw ≠ .null)
    (hresult : s.validate raw = .ok result) (hok : result.ok = true) :
    Mirrors s raw result.value := by
  rcases (validate_eq_ok hs.self.isSchema (Or.inl hraw)).mp hresult with
    ⟨found, hfound, hresultEq⟩
  rw [hresultEq] at hok ⊢
  exact mirrors_of_findings hs hfound hok

/-!
## Mirrors are what examination finds

The mirror says everything that examination would say, so it does not matter at which path the
raw value stands.
-/

theorem Mirrors.raw_ne_null {s : Schema} {raw v : Value} (h : Mirrors s raw v) :
    raw ≠ .null := by
  intro hnull
  rw [hnull] at h
  cases h with
  | primitive hreads _ =>
      cases hreads
  | array hitems _ _ =>
      cases hitems

theorem fieldParts_of_members {entries : List (Value × Value)} {path : String}
    {fields : List (String × Schema)} {members : List (String × Value)}
    (hnames : members.map Prod.fst = fieldNames (fields.filter (isPresent entries)))
    (hpresent : forall f m, f ∈ fields -> m ∈ members -> f.1 = m.1 ->
      FieldPart entries path f ([m], []))
    (habsent : forall f, f ∈ fields -> isPresent entries f = false ->
      FieldPart entries path f ([], [])) :
    exists parts, List.Forall₂ (FieldPart entries path) fields parts ∧
      parts.flatMap Prod.fst = members ∧ parts.flatMap Prod.snd = [] := by
  induction fields generalizing members with
  | nil =>
      exact ⟨[], .nil, (List.map_eq_nil_iff.mp hnames).symm, rfl⟩
  | cons f rest ih =>
      have habsentRest : forall g, g ∈ rest -> isPresent entries g = false ->
          FieldPart entries path g ([], []) :=
        fun g hg => habsent g (List.mem_cons_of_mem _ hg)
      cases hf : isPresent entries f with
      | false =>
          rw [List.filter_cons_of_neg (by simp [hf])] at hnames
          rcases ih hnames (fun g m hg => hpresent g m (List.mem_cons_of_mem _ hg))
            habsentRest with ⟨parts, hparts, hmembers, herrors⟩
          exact ⟨([], []) :: parts, .cons (habsent f List.mem_cons_self hf) hparts, hmembers,
            herrors⟩
      | true =>
          rw [List.filter_cons_of_pos hf] at hnames
          rcases List.map_eq_cons_iff.mp hnames with ⟨m, later, hsplit, hmf, hlater⟩
          subst hsplit
          rcases ih hlater (fun g n hg hn =>
            hpresent g n (List.mem_cons_of_mem _ hg) (List.mem_cons_of_mem _ hn))
            habsentRest with ⟨parts, hparts, hmembers, herrors⟩
          have hpart := hpresent f m List.mem_cons_self List.mem_cons_self hmf.symm
          refine ⟨([m], []) :: parts, .cons hpart hparts, ?_, herrors⟩
          rw [List.flatMap_cons, hmembers]
          rfl

theorem examine_of_mirrors {s : Schema} {raw v : Value} {path : String}
    (hs : Everywhere WellFormed s) (h : Mirrors s raw v) :
    s.examine raw path = .ok (.clean v) := by
  induction h generalizing path with
  | primitive hreads hchecks =>
      exact (examine_primitive_read hreads).mpr
        ⟨[], violations_eq_nil_iff.mpr hchecks, rfl⟩
  | enumeration hlisted =>
      exact examine_listed hlisted
  | object hnames hrequired _hmirrors hfilled ih =>
      rename_i a fields entries members
      have hpresent : forall f m, f ∈ fields -> m ∈ members -> f.1 = m.1 ->
          FieldPart entries path f ([m], []) := by
        intro f m hf hm hfm
        have hmember : m = (f.1, m.2) := Prod.ext hfm.symm rfl
        rw [hmember]
        rcases held_or_absent entries f.1 with ⟨raw, hheld⟩ | habsent
        · exact .held hheld (ih f m raw hf hm hfm hheld (hs.field hf))
        · exact .filled habsent (hfilled f m hf hm hfm habsent)
      have hleft : forall f, f ∈ fields -> isPresent entries f = false ->
          FieldPart entries path f ([], []) := by
        intro f hf hnot
        rcases held_or_absent entries f.1 with ⟨raw, hheld⟩ | habsent
        · rw [isPresent_of_held hheld] at hnot
          cases hnot
        · rw [isPresent_of_absent habsent] at hnot
          have hoptional : f.2.isRequired = false := by
            rw [Bool.eq_false_iff]
            intro hreq
            rcases hrequired f hf hreq with ⟨raw, hheld⟩
            exact habsent raw hheld
          exact .leftOut habsent (by rw [mayBeLeftOut, hoptional, ← Option.not_isSome, hnot]; rfl)
      rcases fieldParts_of_members hnames hpresent hleft with ⟨parts, hparts, hmembers, herrors⟩
      refine (examine_mapping (fields_areSchemas hs)).mpr ⟨parts, hparts, ?_⟩
      rw [recordOf_of_nodup (fieldParts_nodup hparts (nodup_of_mem_fields hs)), hmembers, herrors]
      rfl
  | array hitems hlength _hmirrors ih =>
      rename_i a element raw items values
      refine (examine_sequence hitems).mpr ⟨values.map .clean, ?_, ?_⟩
      · rw [List.forall₂_map_right_iff, List.forall₂_iff_get]
        refine ⟨by rw [List.length_zipIdx, hlength], fun i hi hv => ?_⟩
        simp only [List.get_eq_getElem, List.getElem_zipIdx]
        exact ih i _ _ (List.getElem?_eq_getElem _) (List.getElem?_eq_getElem hv) hs.element
      · simp [Findings.clean, List.flatMap_map, Function.comp_def]

/-- Examination finds no problem exactly with what has a mirror, and then builds the mirror. -/
theorem validate_of_mirrors {s : Schema} {raw v : Value} (hs : Everywhere WellFormed s)
    (h : Mirrors s raw v) : s.validate raw = .ok (.accepted v) := by
  have hresult : (Findings.clean v).result = .accepted v := Findings.result_of_clean rfl
  exact (validate_eq_ok hs.self.isSchema (Or.inl h.raw_ne_null)).mpr
    ⟨.clean v, examine_of_mirrors hs h, hresult.symm⟩

end Schema
end ContentSchema
