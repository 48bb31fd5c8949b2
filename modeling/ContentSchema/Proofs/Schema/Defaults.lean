import ContentSchema.Proofs.Validation.Soundness

/-!
# Fallback values

Whether a fallback value satisfies the schema that carries it.  The call that sets a fallback
value validates it, but later calls change what the schema demands and keep the value as it
is.  So a fallback value may turn wrong: by a constraint that it fails, by a field that it
lacks, or by a field that is dropped while the value has it.  This module says exactly when,
and that nothing else can go wrong.
-/

namespace ContentSchema
namespace Schema

/-- The strict form of the schema accepts the value and returns it as it is. -/
def Reproduces (s : Schema) (d : Value) : Prop :=
  exists strict, s.required = .ok strict ∧ strict.validate d = .ok (.accepted d)

theorem exists_required {s : Schema} (hs : s.isSchema = true) :
    exists strict, s.required = .ok strict := by
  rcases exists_attributes hs with ⟨a, ha⟩
  exact ⟨_, mapAttributes_eq_ok.mpr ⟨a, ha, rfl⟩⟩

theorem reproduces_iff_isRecord {s : Schema} {d : Value} (hs : Everywhere WellFormed s) :
    Reproduces s d <-> s.IsRecord d := by
  constructor
  · intro h
    rcases h with ⟨strict, hstrict, hvalidate⟩
    have hmirrors : Mirrors s d d := mirrors_of_required hs hstrict hvalidate rfl
    exact isRecord_of_mirrors_self hs hmirrors
  · intro h
    rcases exists_required hs.self.isSchema with ⟨strict, hstrict⟩
    have hresult : (Findings.clean d).result = .accepted d := Findings.result_of_clean rfl
    exact ⟨strict, hstrict,
      (validate_required hstrict).mpr ⟨.clean d, h.examine hs, hresult.symm⟩⟩

@[simp] theorem isRecord_withAttributes {s : Schema} {a : Attributes} {v : Value} :
    (s.withAttributes a).IsRecord v <-> s.IsRecord v := by
  constructor
  · intro h
    cases s with
    | primitive b kind constraints =>
        cases h with
        | primitive hholds hchecks => exact .primitive hholds hchecks
    | enumeration b values =>
        cases h with
        | enumeration hlisted => exact .enumeration hlisted
    | object b fields =>
        cases h with
        | object hnames hleft hmembers => exact .object hnames hleft hmembers
    | array b element =>
        cases h with
        | array hitems => exact .array hitems
    | bare b =>
        cases h
    | foreign w =>
        cases h
  · intro h
    cases h with
    | primitive hholds hchecks => exact .primitive hholds hchecks
    | enumeration hlisted => exact .enumeration hlisted
    | object hnames hleft hmembers => exact .object hnames hleft hmembers
    | array hitems => exact .array hitems

/-!
## Setting a fallback value
-/

theorem isRecord_of_withDefault {s strict : Schema} {v : Value} {result : ValidationResult}
    (hs : Everywhere WellFormed s) (hstrict : s.required = .ok strict)
    (hresult : strict.validate v = .ok result) (hok : result.ok = true) :
    s.IsRecord result.value <-> forall t e, Injected t e s v -> t.IsRecord e := by
  have hmirrors := mirrors_of_required hs hstrict hresult hok
  constructor
  · intro hrecord t e hinjected
    exact isRecord_of_injected hinjected hmirrors hrecord
  · exact isRecord_of_mirrors hmirrors

/-!
## Later calls
-/

def ownFields : Schema -> List (String × Schema)
  | .object _ fields => fields
  | _ => []

@[simp] theorem ownFields_withAttributes {s : Schema} {a : Attributes} :
    (s.withAttributes a).ownFields = s.ownFields := by
  cases s <;> rfl

/-- Going from the first schema to the second does no harm to the value: it passes the
constraint that is new, it may do without the fields that are new, and it has no use for the
fields that are gone. -/
structure Spares (d : Value) (s t : Schema) : Prop where
  passes : forall c, t.ownConstraints = s.ownConstraints ++ [c] -> c.check d = .ok true
  optional : forall f, f ∈ t.ownFields -> f.1 ∉ fieldNames s.ownFields ->
    f.2.mayBeLeftOut = true
  unused : forall f, f ∈ s.ownFields -> f.1 ∉ fieldNames t.ownFields ->
    forall entries, d = .mapping entries -> Absent entries f.1

theorem ne_append_singleton {α : Type} {xs : List α} {x : α} : xs ≠ xs ++ [x] := by
  intro h
  have hlength := congrArg List.length h
  simp at hlength

@[simp] theorem spares_withAttributes {s : Schema} {a : Attributes} {d : Value} :
    Spares d s (s.withAttributes a) := by
  refine ⟨?_, ?_, ?_⟩
  · intro c hc
    rw [ownConstraints_withAttributes] at hc
    exact absurd hc ne_append_singleton
  · intro f hf hnone
    rw [ownFields_withAttributes] at hf
    exact absurd (name_mem hf) hnone
  · intro f hf hnone
    rw [ownFields_withAttributes] at hnone
    exact absurd (name_mem hf) hnone

theorem isRecord_refined {a : Attributes} {kind : PrimitiveKind}
    {constraints : List Constraint} {c : Constraint} {d : Value}
    (hrecord : IsRecord (.primitive a kind constraints) d) :
    IsRecord (.primitive a kind (constraints ++ [c])) d <->
      Spares d (.primitive a kind constraints) (.primitive a kind (constraints ++ [c])) := by
  constructor
  · intro h
    cases h with
    | primitive _ hchecks =>
        refine ⟨?_, ?_, ?_⟩
        · intro b hb
          have hbc := List.append_cancel_left hb
          injection hbc with hbc
          rw [← hbc]
          exact hchecks c (List.mem_append_right _ List.mem_cons_self)
        · intro f hf
          cases hf
        · intro f hf
          cases hf
  · intro h
    cases hrecord with
    | primitive hholds hchecks =>
        refine .primitive hholds ?_
        intro b hb
        rcases List.mem_append.mp hb with hb | hb
        · exact hchecks b hb
        · rw [List.mem_singleton.mp hb]
          exact h.passes c rfl

theorem isRecord_extended {a : Attributes} {fields additions : List (String × Schema)}
    {d : Value} (hclash : clash? fields additions = none)
    (hrecord : IsRecord (.object a fields) d) :
    IsRecord (.object a (fields ++ additions)) d <->
      Spares d (.object a fields) (.object a (fields ++ additions)) := by
  cases hrecord with
  | object hnames hleft hmembers =>
      rename_i members
      constructor
      · intro h
        rcases isRecord_ofMembers h with ⟨_hnames, hleftAll, _hmembers⟩
        refine ⟨fun c hc => absurd hc ne_append_singleton, ?_, ?_⟩
        · intro f hf hnone
          exact hleftAll f hf (fun hname => hnone (hnames.subset hname))
        · intro f hf hnone
          exact absurd (name_mem (List.mem_append_left _ hf)) hnone
      · intro h
        have hfresh : forall f, f ∈ additions -> f.1 ∉ fieldNames fields :=
          fun f hf => clash?_eq_none hclash (name_mem hf)
        refine .object ?_ ?_ ?_
        · rw [fieldNames, List.map_append]
          exact hnames.trans (List.sublist_append_left _ _)
        · intro f hf hnone
          rcases List.mem_append.mp hf with hold | hnew
          · exact hleft f hold hnone
          · exact h.optional f hf (hfresh f hnew)
        · intro f m hf hm hfm
          rcases List.mem_append.mp hf with hold | hnew
          · exact hmembers f m hold hm hfm
          · have hname := hnames.subset (List.mem_map.mpr ⟨m, hm, hfm.symm⟩)
            exact absurd hname (hfresh f hnew)

theorem mem_names_filter_iff {fields : List (String × Schema)}
    {keep : String × Schema -> Bool} (hnodup : (fieldNames fields).Nodup)
    {f : String × Schema} (hf : f ∈ fields) :
    f.1 ∈ fieldNames (fields.filter keep) <-> keep f = true := by
  constructor
  · intro h
    rcases List.mem_map.mp h with ⟨g, hg, hgf⟩
    rcases List.mem_filter.mp hg with ⟨hg, hkeep⟩
    rw [field_unique hnodup hf hg hgf.symm]
    exact hkeep
  · intro h
    exact name_mem (List.mem_filter.mpr ⟨hf, h⟩)

theorem sublist_filter {fields : List (String × Schema)} {keep : String × Schema -> Bool}
    {names : List String} (hnodup : (fieldNames fields).Nodup)
    (hnames : names.Sublist (fieldNames fields))
    (hkept : forall name, name ∈ names -> name ∈ fieldNames (fields.filter keep)) :
    names.Sublist (fieldNames (fields.filter keep)) := by
  have hfiltered := hnames.filter (fun name => name ∈ fieldNames (fields.filter keep))
  have hall : names.filter (fun name => name ∈ fieldNames (fields.filter keep)) = names :=
    List.filter_eq_self.mpr (fun name hname => decide_eq_true (hkept name hname))
  have hkeep : fields.filter (fun f => f.1 ∈ fieldNames (fields.filter keep)) =
      fields.filter keep := by
    apply List.filter_congr
    intro f hf
    rw [Bool.eq_iff_iff, decide_eq_true_eq]
    exact mem_names_filter_iff hnodup hf
  have hsame : (fieldNames fields).filter
      (fun name => name ∈ fieldNames (fields.filter keep)) = fieldNames (fields.filter keep) := by
    refine Eq.trans List.filter_map ?_
    exact congrArg fieldNames hkeep
  rw [hall, hsame] at hfiltered
  exact hfiltered

theorem isRecord_narrowed {a : Attributes} {fields : List (String × Schema)}
    {keep : String × Schema -> Bool} {d : Value}
    (hs : Everywhere WellFormed (.object a fields)) (hrecord : IsRecord (.object a fields) d) :
    IsRecord (.object a (fields.filter keep)) d <->
      Spares d (.object a fields) (.object a (fields.filter keep)) := by
  have hnodup := nodup_of_mem_fields hs
  cases hrecord with
  | object hnames hleft hmembers =>
      rename_i members
      constructor
      · intro h
        rcases isRecord_ofMembers h with ⟨hnamesKept, _hleft, _hmembers⟩
        refine ⟨fun c hc => absurd hc ne_append_singleton, ?_, ?_⟩
        · intro f hf hnone
          exact absurd (name_mem (List.mem_filter.mp hf).left) hnone
        · intro f _hf hnone entries hentries
          injection hentries with hentries
          rw [← hentries]
          exact absent_ofMembers (fun hname => hnone (hnamesKept.subset hname))
      · intro h
        refine .object ?_ ?_ ?_
        · apply sublist_filter hnodup hnames
          -- a member whose field is gone would be a use for that field
          intro name hname
          by_contra hdropped
          rcases List.mem_map.mp hname with ⟨m, hm, hmname⟩
          rcases exists_field hnames hm with ⟨f, hf, hfm⟩
          rw [← hmname, ← hfm] at hdropped
          have hheld := held_ofMembers (hnames.nodup hnodup) hm (hmembers f m hf hm hfm).ne_null
          rw [← hfm] at hheld
          exact h.unused f hf hdropped _ rfl _ hheld
        · intro f hf hnone
          exact hleft f (List.mem_filter.mp hf).left hnone
        · intro f m hf hm hfm
          exact hmembers f m (List.mem_filter.mp hf).left hm hfm

/-- A call that changes a schema leaves a record of it a record exactly when it spares it. -/
theorem isRecord_iff_spares {call : Call} {s t : Schema} {d : Value}
    (hs : Everywhere WellFormed s) (heffect : Effect call s t)
    (hcall : call.selects = false) (hrecord : s.IsRecord d) :
    t.IsRecord d <-> Spares d s t := by
  have hattributes {a : Attributes} :
      (s.withAttributes a).IsRecord d <-> Spares d s (s.withAttributes a) := by
    constructor
    · intro _h
      exact spares_withAttributes
    · intro _h
      exact isRecord_withAttributes.mpr hrecord
  cases heffect with
  | annotated _ _ =>
      exact hattributes
  | cleared _ _ _ =>
      exact hattributes
  | defaulted _ _ _ _ _ =>
      exact hattributes
  | refined hprimitive _ _ =>
      subst hprimitive
      exact isRecord_refined hrecord
  | extended _ hobject _ hclash =>
      subst hobject
      exact isRecord_extended hclash hrecord
  | narrowed _ hobject =>
      subst hobject
      exact isRecord_narrowed hs hrecord
  | field hselects _ _ =>
      rw [hcall] at hselects
      cases hselects
  | element hselects _ =>
      rw [hcall] at hselects
      cases hselects

/-!
## Fallback values in built schemas

A rule under which every call spares the fallback value that it keeps makes only schemas
whose fallback values are records.
-/

/-- The call spares the fallback value that it keeps. -/
def Guarded (s : Schema) (call : Call) (t : Schema) : Prop :=
  call.selects = false -> forall d, s.fallback? = some d -> t.fallback? = some d -> Spares d s t

theorem selects_of_attaches {call : Call} {c : Constraint} (h : call.Attaches c) :
    call.selects = false := by
  cases h <;> rfl

theorem fallback_isRecord_of_effect {call : Call} {s t : Schema} {d : Value}
    (hs : Everywhere WellFormed s)
    (hrecords : Everywhere (fun u => forall e, u.fallback? = some e -> u.IsRecord e) s)
    (heffect : Effect call s t) (hguarded : Guarded s call t) (hd : t.fallback? = some d) :
    t.IsRecord d := by
  have hschema := hs.self.isSchema
  have hkept (hcall : call.selects = false) (hsd : s.fallback? = some d) : t.IsRecord d :=
    (isRecord_iff_spares hs heffect hcall (hrecords.self d hsd)).mpr (hguarded hcall d hsd hd)
  cases heffect with
  | annotated ha hfallback =>
      rw [fallback?_withAttributes hschema, hfallback, ← fallback?_of_attributes ha] at hd
      exact isRecord_withAttributes.mpr (hrecords.self d hd)
  | cleared _ _ hfallback =>
      rw [fallback?_withAttributes hschema, hfallback] at hd
      cases hd
  | defaulted _ _ hstrict hresult hok =>
      rw [fallback?_withAttributes hschema] at hd
      injection hd with hd
      rw [← hd, isRecord_withAttributes, isRecord_of_withDefault hs hstrict hresult hok]
      intro u e hinjected
      exact hrecords u hinjected.occurs.left e hinjected.occurs.right
  | refined hprimitive hattaches _ =>
      subst hprimitive
      exact hkept (selects_of_attaches hattaches) hd
  | extended hcall hobject _ _ =>
      subst hobject
      exact hkept hcall hd
  | narrowed hcall hobject =>
      subst hobject
      exact hkept hcall hd
  | field _ hobject hf =>
      subst hobject
      exact (hrecords.field hf).self d hd
  | element _ harray =>
      subst harray
      exact hrecords.element.self d hd

theorem Built.fallbacks_areRecords {rule : Schema -> Call -> Schema -> Prop} {s : Schema}
    (h : Built rule s) (hrule : forall s call t, rule s call t -> Guarded s call t) :
    Everywhere (fun t => forall d, t.fallback? = some d -> t.IsRecord d) s := by
  have hboth : Everywhere (fun t => t.WellFormed ∧
      forall d, t.fallback? = some d -> t.IsRecord d) s := by
    refine Built.everywhere (P := fun t => t.WellFormed ∧
      forall d, t.fallback? = some d -> t.IsRecord d) ?_ ?_ ?_ ?_ ?_ h
    · intro kind
      have hbuilt : Built rule (Schema.ofKind kind) := .ofKind kind
      exact ⟨hbuilt.wellFormed.self, fun d => fallback_isRecord_of_fresh rfl⟩
    · intro arguments s hs
      have hbuilt : Built rule s := .enum hs
      rcases enum_eq_ok hs with ⟨values, hvalues, _⟩
      have hfresh : s.attributes? = some .fresh := by
        rw [hvalues]
        rfl
      exact ⟨hbuilt.wellFormed.self, fun d => fallback_isRecord_of_fresh hfresh⟩
    · intro entries fields hfields
      exact ⟨wellFormed_of_fields hfields, fun d => fallback_isRecord_of_fresh rfl⟩
    · intro element
      exact ⟨wellFormed_of_fresh rfl rfl, fun d => fallback_isRecord_of_fresh rfl⟩
    · intro call s t hs _hentries heffect hcall
      have hwell := hs.imp (fun u hu => hu.left)
      have hrecords := hs.imp (fun u hu => hu.right)
      have hguarded := hrule s call t hcall
      exact ⟨wellFormed_of_effect hwell heffect,
        fun d hd => fallback_isRecord_of_effect hwell hrecords heffect hguarded hd⟩
  exact hboth.imp (fun t ht => ht.right)

/-- A fallback value is reproduced by the schema that carries it exactly when it is a record of
that schema.  One that has just been set is reproduced exactly when the fallback values that
were put into it are, and a later call leaves it so exactly when it spares it.  Where every
call spares what it keeps, every fallback value in the tree is reproduced. -/
theorem fallback_reproduced_iff {rule : Schema -> Call -> Schema -> Prop} {s : Schema}
    (hs : Built rule s) :
    (forall d, Reproduces s d <-> s.IsRecord d) ∧
    (forall v t d, s.withDefault v = .ok t -> t.fallback? = some d ->
      (Reproduces t d <-> forall u e, Injected u e s v -> Reproduces u e)) ∧
    (forall (call : Call) t d, call.selects = false -> call.apply s = .ok t -> Built rule t ->
      Reproduces s d -> (Reproduces t d <-> Spares d s t)) ∧
    ((forall s call t, rule s call t -> Guarded s call t) ->
      Everywhere (fun t => forall d, t.fallback? = some d -> Reproduces t d) s) := by
  have hwell := hs.wellFormed
  refine ⟨fun d => reproduces_iff_isRecord hwell, ?_, ?_, ?_⟩
  · intro v t d hdefault hd
    rcases withDefault_eq_ok.mp hdefault with
      ⟨a, strict, result, ha, hstrict, hresult, hok, ht⟩
    have heffect : Effect (.withDefault v) s t := by
      rw [ht]
      exact .defaulted rfl ha hstrict hresult hok
    have hwellAfter : Everywhere WellFormed t := by
      apply heffect.everywhere hwell _ (wellFormed_of_effect hwell heffect)
      intro name child hentry
      cases hentry
    have hvalue : d = result.value := by
      rw [ht, fallback?_withAttributes hwell.self.isSchema] at hd
      injection hd with hd
      exact hd.symm
    rw [reproduces_iff_isRecord hwellAfter, ht, isRecord_withAttributes, hvalue,
      isRecord_of_withDefault hwell hstrict hresult hok]
    constructor
    · intro h u e hinjected
      exact (reproduces_iff_isRecord (hwell.of_occurs hinjected.occurs.left)).mpr
        (h u e hinjected)
    · intro h u e hinjected
      exact (reproduces_iff_isRecord (hwell.of_occurs hinjected.occurs.left)).mp
        (h u e hinjected)
  · intro call t d hcall happly ht hreproduces
    rw [reproduces_iff_isRecord ht.wellFormed]
    exact isRecord_iff_spares hwell (apply_effect happly) hcall
      ((reproduces_iff_isRecord hwell).mp hreproduces)
  · intro hrule t hoccurs d hd
    exact (reproduces_iff_isRecord (hwell.of_occurs hoccurs)).mpr
      (hs.fallbacks_areRecords hrule t hoccurs d hd)

def label : Schema :=
  .primitive ⟨false, some (.text "ab"), []⟩ .string []

def longLabel (n : Int) : Schema :=
  .primitive ⟨false, some (.text "ab"), []⟩ .string [.minLength (.int n)]

theorem apply_label : Call.apply (.withDefault (.text "ab")) string = .ok label :=
  rfl

theorem apply_longLabel {n : Int} (hn : 0 <= n) :
    Call.apply (.min (.int n)) label = .ok (longLabel n) := by
  have hbound : lengthBound "min" (.int n) = .ok (.int n) := by
    rw [lengthBound, if_neg (by omega)]
  show (lengthBound "min" (.int n) >>= fun bound => label.refine (.minLength bound)) = _
  rw [hbound]
  rfl

theorem built_label {rule : Schema -> Call -> Schema -> Prop}
    (hrule : rule string (.withDefault (.text "ab")) label) : Built rule label :=
  .plain (.ofKind .string) rfl apply_label hrule

theorem built_longLabel {rule : Schema -> Call -> Schema -> Prop} {n : Int} (hn : 0 <= n)
    (hlabel : Built rule label) (hrule : rule label (.min (.int n)) (longLabel n)) :
    Built rule (longLabel n) :=
  .plain hlabel rfl (apply_longLabel hn) hrule

theorem label_reproduced :
    Built Guarded (longLabel 2) ∧ Reproduces (longLabel 2) (.text "ab") := by
  have hlabel : Built Guarded label := by
    apply built_label
    intro _hcall d hd
    cases hd
  have hlong : Built Guarded (longLabel 2) := by
    apply built_longLabel (by omega) hlabel
    intro _hcall d hd _hd
    injection hd with hd
    rw [← hd]
    refine ⟨?_, ?_, ?_⟩
    · intro c hc
      injection hc with hc
      rw [← hc]
      rfl
    · intro f hf
      cases hf
    · intro f hf
      cases hf
  have hafter := (fallback_reproduced_iff hlong).2.2.2 (fun _ _ _ h => h)
  exact ⟨hlong, hafter.self _ rfl⟩

/-- Two characters are too few for a least length of three, but nothing stops the call. -/
theorem longLabel_not_reproduced :
    Built (fun _ _ _ => True) (longLabel 3) ∧ (longLabel 3).fallback? = some (.text "ab") ∧
      ¬ Reproduces (longLabel 3) (.text "ab") := by
  have hlong : Built (fun _ _ _ => True) (longLabel 3) :=
    built_longLabel (by omega) (built_label trivial) trivial
  refine ⟨hlong, rfl, ?_⟩
  rw [reproduces_iff_isRecord hlong.wellFormed]
  intro h
  cases h with
  | primitive _ hchecks =>
      have hcheck : (Constraint.minLength (.int 3)).check (.text "ab") = .ok false := rfl
      have hpassed := hchecks _ List.mem_cons_self
      rw [hcheck] at hpassed
      cases hpassed

end Schema
end ContentSchema
