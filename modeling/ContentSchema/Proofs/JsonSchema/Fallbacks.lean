import ContentSchema.Proofs.Calendar.RoundTrip
import ContentSchema.Proofs.JsonSchema.Rendering
import ContentSchema.Proofs.Validation.FixedPoints

/-!
# Exported fallback values

A document states the fallback value of its schema in the form in which content files write it:
tuples as lists, days and moments as texts.  A fallback value that its schema returns as it is
can be read back from this form.
-/

namespace ContentSchema

/-!
## The form of content files
-/

namespace JsonSchema

@[simp] theorem writtenAll_eq_map (items : List Value) : writtenAll items = items.map written := by
  induction items with
  | nil =>
      rfl
  | cons v rest ih =>
      rw [writtenAll, ih, List.map_cons]

@[simp] theorem writtenEntries_eq_map (entries : List (Value × Value)) :
    writtenEntries entries = entries.map (fun e => (e.1, written e.2)) := by
  induction entries with
  | nil =>
      rfl
  | cons e rest ih =>
      rw [writtenEntries, ih, List.map_cons]

theorem written_ofMembers (members : List (String × Value)) :
    written (.ofMembers members) = .ofMembers (members.map (fun m => (m.1, written m.2))) := by
  rw [Value.ofMembers, written, writtenEntries_eq_map, List.map_map, Value.ofMembers,
    List.map_map]
  rfl

end JsonSchema

namespace Value

/-- A value as content files write it, where it can be thawed. -/
def contentForm (v : Value) : Value :=
  JsonSchema.written v.thawedForm

theorem contentForm_ofMembers {members : List (String × Value)}
    (h : forall m, m ∈ members -> m.2.Thaws) :
    (ofMembers members).contentForm =
      .ofMembers (members.map (fun m => (m.1, m.2.contentForm))) := by
  have hform := (thaw?_eq_some.mp (thaw?_ofMembers_eq_some.mpr ⟨h, rfl⟩)).right
  rw [contentForm, ← hform, JsonSchema.written_ofMembers, List.map_map]
  rfl

theorem contentForm_tuple {items : List Value} (h : forall v, v ∈ items -> v.Thaws) :
    (Value.tuple items).contentForm = .list (items.map contentForm) := by
  have hform := (thaw?_eq_some.mp (thaw?_tuple_eq_some.mpr ⟨h, rfl⟩)).right
  rw [contentForm, ← hform, JsonSchema.written, JsonSchema.writtenAll_eq_map, List.map_map]
  rfl

/-- Every day in the value is a day of the calendar, and every moment is one whose offset shows
in its text. -/
structure Legible (v : Value) : Prop where
  date : forall d, Inside (.date d) v -> d.Genuine
  moment : forall t, Inside (.dateTime t) v ->
    t.Genuine ∧ forall o, t.offset = some o -> o.Resolved

theorem Legible.of_inside {v w : Value} (hv : v.Legible)
    (h : forall u, Inside u w -> Inside u v) : w.Legible :=
  ⟨fun d hd => hv.date d (h _ hd), fun t ht => hv.moment t (h _ ht)⟩

theorem legible_ofMembers_iff {members : List (String × Value)} :
    (ofMembers members).Legible <-> forall m, m ∈ members -> m.2.Legible := by
  constructor
  · intro h m hm
    exact h.of_inside (fun _u hu => .entry (List.mem_map.mpr ⟨m, hm, rfl⟩) hu)
  · intro h
    -- names hold no dates, so a date in the mapping is in one of the members
    have hbelow {u : Value} (hu : Inside u (ofMembers members)) :
        u = ofMembers members ∨ (exists t, u = .text t) ∨ exists m, m ∈ members ∧ Inside u m.2 := by
      cases hu with
      | here =>
          exact Or.inl rfl
      | key he hu =>
          rcases List.mem_map.mp he with ⟨m, _hm, hme⟩
          rw [← hme] at hu
          cases hu
          exact Or.inr (Or.inl ⟨m.1, rfl⟩)
      | entry he hu =>
          rcases List.mem_map.mp he with ⟨m, hm, hme⟩
          rw [← hme] at hu
          exact Or.inr (Or.inr ⟨m, hm, hu⟩)
    refine ⟨fun d hd => ?_, fun t ht => ?_⟩
    · rcases hbelow hd with hself | ⟨t, htext⟩ | ⟨m, hm, hd⟩
      · cases hself
      · cases htext
      · exact (h m hm).date d hd
    · rcases hbelow ht with hself | ⟨_, htext⟩ | ⟨m, hm, ht⟩
      · cases hself
      · cases htext
      · exact (h m hm).moment t ht

theorem legible_tuple_iff {items : List Value} :
    (Value.tuple items).Legible <-> forall v, v ∈ items -> v.Legible := by
  constructor
  · intro h v hv
    exact h.of_inside (fun _u hu => .tuple hv hu)
  · intro h
    refine ⟨fun d hd => ?_, fun t ht => ?_⟩
    · cases hd with
      | tuple hv hd => exact (h _ hv).date d hd
    · cases ht with
      | tuple hv ht => exact (h _ hv).moment t ht

theorem legible_text (s : String) : (Value.text s).Legible :=
  ⟨fun _ => nofun, fun _ => nofun⟩

theorem legible_date {d : Date} (hd : d.Genuine) : (Value.date d).Legible :=
  ⟨fun | _, .here => hd, fun _ => nofun⟩

theorem legible_dateTime {t : DateTime} (ht : t.Genuine)
    (hresolved : forall o, t.offset = some o -> o.Resolved) : (Value.dateTime t).Legible :=
  ⟨fun _ => nofun, fun | _, .here => ⟨ht, hresolved⟩⟩

theorem toDate?_isoText_of_legible {t : DateTime} (h : (Value.dateTime t).Legible) :
    toDate? (.text t.isoText) = some (.dateTime t) := by
  rcases h.moment t .here with ⟨ht, hresolved⟩
  rw [toDate?_isoText_dateTime ht, DateTime.asRead_eq_self_iff.mpr hresolved]

end Value

namespace Schema

/-- Values that can be thawed and are legible are read back from the form of content files. -/
theorem readsBack_contentForm :
    ReadsBack Value.contentForm (fun v => v.Thaws ∧ v.Legible) := by
  refine ⟨?_, ?_, ?_⟩
  · intro kind v hv hholds
    cases hholds with
    | text s => exact .text s
    | int n => exact .int n
    | float x => exact .float x
    | bool b => exact .bool b
    | date d =>
        have hread := Value.toDate?_isoText_date (hv.right.date d .here)
        rw [Value.toDate?] at hread
        exact PrimitiveKind.Reads.dateText hread
    | moment t =>
        have hread := Value.toDate?_isoText_of_legible hv.right
        rw [Value.toDate?] at hread
        exact PrimitiveKind.Reads.dateText hread
  · intro members hmembers
    rcases hmembers with ⟨⟨w, hw⟩, hlegible⟩
    have hthaws := (Value.thaw?_ofMembers_eq_some.mp hw).left
    exact ⟨Value.contentForm_ofMembers hthaws,
      fun m hm => ⟨hthaws m hm, Value.legible_ofMembers_iff.mp hlegible m hm⟩⟩
  · intro items hitems
    rcases hitems with ⟨⟨w, hw⟩, hlegible⟩
    have hthaws := (Value.thaw?_tuple_eq_some.mp hw).left
    exact ⟨congrArg sequenceItems? (Value.contentForm_tuple hthaws),
      fun v hv => ⟨hthaws v hv, Value.legible_tuple_iff.mp hlegible v hv⟩⟩

theorem validate_contentForm {s : Schema} {v : Value} (hs : Everywhere WellFormed s)
    (hrecord : s.IsRecord v) (hthaws : v.Thaws) (hlegible : v.Legible) :
    s.validate v.contentForm = .ok (.accepted v) :=
  validate_of_mirrors hs (mirrors_of_isRecord readsBack_contentForm hs hrecord ⟨hthaws, hlegible⟩)

end Schema

/-!
## The fallback value in the document
-/

namespace JsonSchema

theorem attributeKeywords_of_fallback {a : Attributes} {d : Value} {keywords : Keywords}
    (hd : a.fallback = some d) (h : attributeKeywords a = .ok keywords) :
    exists rest, keywords = ("default", d.contentForm) :: rest ∧
      "default" ∉ Entries.keys rest := by
  rcases attributeKeywords_eq_ok.mp h with ⟨fallback, metadata, hfallback, _hmetadata, h⟩
  rw [hd] at hfallback
  rcases fallbackKeywords_eq_ok.mp hfallback with ⟨w, hw, hfallback⟩
  refine ⟨descriptionKeywords metadata ++ contentKeywords metadata, ?_, ?_⟩
  · rw [h, hfallback, Value.contentForm, ← (Value.thaw?_eq_some.mp hw).right]
    rfl
  · intro hdefault
    rcases List.mem_map.mp hdefault with ⟨k, hk, hname⟩
    rcases name_of_mem_annotations hk with hother | hother <;> simp [hname] at hother

theorem Shapes.default_not_mem {s : Schema} {shape : Keywords} (h : Shapes s shape) :
    "default" ∉ Entries.keys shape := by
  intro hdefault
  rcases List.mem_map.mp hdefault with ⟨k, hk, hname⟩
  have hother := h.name_of_mem hk
  rw [hname] at hother
  exact absurd hother (by decide)

theorem field?_default {s : Schema} {d : Value} (hd : s.fallback? = some d) {root : Bool}
    {document : Value} (h : s.toJsonSchema root = .ok document) :
    exists entries, document = .mapping entries ∧
      Value.field? entries "default" = some d.contentForm := by
  rcases Answer.bind_eq_ok.mp h with ⟨keywords, hkeywords, h⟩
  rcases render_eq_ok hkeywords with ⟨a, shape, annotations, ha, hshape, hannotations, hsplit⟩
  rw [Schema.fallback?_of_attributes ha] at hd
  rcases attributeKeywords_of_fallback hd hannotations with ⟨rest, hrest, hnone⟩
  rw [hrest] at hsplit
  refine ⟨_, (Answer.pure_eq_ok.mp h).symm, ?_⟩
  rw [Value.field?_ofMembers, hsplit]
  cases root with
  | true => exact Entries.get?_merge_of_last hnone
  | false => exact Entries.get?_of_first hshape.default_not_mem

end JsonSchema

namespace Schema

/-!
## Round trip
-/

/-- A built schema has a fallback value that it returns as it is and that is legible.  The
document of the schema, where there is one, states the form of the fallback value in content
files, and validating this form gives the fallback value back.  There is a document exactly when
everything in the schema can be rendered. -/
theorem exported_fallback_read_back {rule : Schema -> Call -> Schema -> Prop} {s : Schema}
    {d : Value} (hs : Built rule s) (hd : s.fallback? = some d) (hfixes : s.Fixes d)
    (hlegible : d.Legible) :
    s.validate d.contentForm = .ok (.accepted d) ∧
    (forall root, Answer.Succeeds (s.toJsonSchema root) <->
      Everywhere JsonSchema.Renders s) ∧
    forall root document, s.toJsonSchema root = .ok document ->
      exists entries, document = .mapping entries ∧
        Value.field? entries "default" = some d.contentForm := by
  have hwell := hs.wellFormed
  have hnull : d ≠ .null := by
    intro hnull
    rw [hnull] at hd
    exact hwell.self.fallback hd
  refine ⟨?_, ?_, fun _root _document h => JsonSchema.field?_default hd h⟩
  · exact validate_contentForm hwell (hfixes.isRecord hwell hnull) (hs.fallbacks_thaw.self d hd)
      hlegible
  · intro root
    rw [← JsonSchema.succeeds_render_iff_renders hwell hs.fallbacks_thaw]
    exact Answer.succeeds_bind_pure

def eventFields : List (String × Schema) :=
  [("on", date), ("starts", .array .fresh (some date)),
    ("place", .object .fresh [("room", string)])]

def openDay : Value :=
  .ofMembers [("on", .date ⟨2024, 2, 29⟩),
    ("starts", .tuple [.dateTime ⟨⟨2024, 2, 29⟩, ⟨10, 30, 0, 0⟩, some ⟨3600000000⟩⟩]),
    ("place", .ofMembers [("room", .text "Hall")])]

def event : Schema :=
  .object ⟨false, some openDay, []⟩ eventFields

theorem validate_openDay :
    validate (.object .fresh eventFields) openDay = .ok (.accepted openDay) := by
  with_unfolding_all rfl

theorem built_event {rule : Schema -> Call -> Schema -> Prop}
    (hrule : forall s call t, rule s call t) : Built rule event := by
  have hstarts : Built rule (.array .fresh (some date)) := .array (fun _ => .ofKind .date) rfl
  have hplace : Built rule (.object .fresh [("room", string)]) :=
    .of_fields (List.forall_mem_singleton.mpr (.ofKind .string)) rfl
  have hfields : Built rule (.object .fresh eventFields) :=
    .of_fields (List.forall_mem_cons.mpr ⟨.ofKind .date, List.forall_mem_cons.mpr
      ⟨hstarts, List.forall_mem_singleton.mpr hplace⟩⟩) rfl
  have happly : Call.apply (.withDefault openDay) (.object .fresh eventFields) = .ok event :=
    withDefault_eq_ok.mpr ⟨_, _, _, rfl, rfl, validate_openDay, rfl, rfl⟩
  exact .plain hfields rfl happly (hrule _ _ _)

theorem openDay_read_back :
    Built (fun _ _ _ => True) event ∧
    exists w, w = .mapping [(.text "on", .text "2024-02-29"),
        (.text "starts", .list [.text "2024-02-29T10:30:00+01:00"]),
        (.text "place", .mapping [(.text "room", .text "Hall")])] ∧
      event.validate w = .ok (.accepted openDay) ∧
      exists entries, event.toJsonSchema true = .ok (.mapping entries) ∧
        Value.field? entries "default" = some w := by
  have hbuilt : Built (fun _ _ _ => True) event := built_event (fun _ _ _ => trivial)
  have hfixes : event.Fixes openDay := by
    with_unfolding_all rfl
  have hday : Date.Genuine ⟨2024, 2, 29⟩ := ⟨by decide, by decide, by decide⟩
  have hstart : (Value.dateTime ⟨⟨2024, 2, 29⟩, ⟨10, 30, 0, 0⟩, some ⟨3600000000⟩⟩).Legible := by
    refine Value.legible_dateTime ⟨hday, ⟨by decide, by decide, by decide, by decide⟩, ?_⟩ ?_
    all_goals
      intro o ho
      injection ho with ho
      rw [← ho]
    · show (3600000000 : Int).natAbs < 24 * 60 * 60 * 1000000
      omega
    · refine Or.inr ?_
      show 1000000 <= (3600000000 : Int).natAbs
      omega
  have hlegible : openDay.Legible :=
    Value.legible_ofMembers_iff.mpr (List.forall_mem_cons.mpr ⟨Value.legible_date hday,
      List.forall_mem_cons.mpr ⟨Value.legible_tuple_iff.mpr (List.forall_mem_singleton.mpr hstart),
        List.forall_mem_singleton.mpr (Value.legible_ofMembers_iff.mpr
          (List.forall_mem_singleton.mpr (Value.legible_text "Hall")))⟩⟩)
  have hdayText : Date.isoText ⟨2024, 2, 29⟩ = "2024-02-29" := by
    decide +kernel
  have hstartText : DateTime.isoText ⟨⟨2024, 2, 29⟩, ⟨10, 30, 0, 0⟩, some ⟨3600000000⟩⟩ =
      "2024-02-29T10:30:00+01:00" := by
    decide +kernel
  have hform : openDay.contentForm = .mapping [
      (.text "on", .text (Date.isoText ⟨2024, 2, 29⟩)),
      (.text "starts", .list [.text
        (DateTime.isoText ⟨⟨2024, 2, 29⟩, ⟨10, 30, 0, 0⟩, some ⟨3600000000⟩⟩)]),
      (.text "place", .mapping [(.text "room", .text "Hall")])] :=
    rfl
  rw [hdayText, hstartText] at hform
  rcases exported_fallback_read_back hbuilt rfl hfixes hlegible with
    ⟨hvalidated, _hrendered, hdocument⟩
  have hexport : Answer.Succeeds (event.toJsonSchema true) := ⟨_, rfl⟩
  rcases hexport with ⟨document, hexport⟩
  rcases hdocument true document hexport with ⟨entries, hentries, hdefault⟩
  rw [hentries] at hexport
  exact ⟨hbuilt, openDay.contentForm, hform, hvalidated, entries, hexport, hdefault⟩

/-- A moment that is a microsecond east of universal time is kept as a fallback value, but comes
back from its text as a moment in universal time. -/
theorem microsecond_fallback_changed :
    exists s d w v, Built (fun _ _ _ => True) s ∧ s.fallback? = some d ∧
      Everywhere (fun t => forall e, t.fallback? = some e -> t.Fixes e) s ∧
      w = .text "2024-01-01T00:00:00+00:00:00.000001" ∧
      (exists entries, s.toJsonSchema true = .ok (.mapping entries) ∧
        Value.field? entries "default" = some w) ∧
      s.validate w = .ok (.accepted v) ∧ v ≠ d := by
  let d : Value := .dateTime Value.slightlyEast
  let s : Schema := .primitive ⟨false, some d, []⟩ .date []
  have happly : Call.apply (.withDefault d) date = .ok s := rfl
  have hbuilt : Built (fun _ _ _ => True) s := .plain (.ofKind .date) rfl happly trivial
  have hfixes : Everywhere (fun t => forall e, t.fallback? = some e -> t.Fixes e) s := by
    refine Everywhere.leaf ?_ (by simp [s]) (by simp [s])
    intro e he
    injection he with he
    rw [← he]
    rfl
  have htext : Value.slightlyEast.isoText = "2024-01-01T00:00:00+00:00:00.000001" := by
    decide +kernel
  have hform : d.contentForm = .text Value.slightlyEast.isoText := rfl
  have hexport : Answer.Succeeds (s.toJsonSchema true) := ⟨_, rfl⟩
  rcases hexport with ⟨document, hexport⟩
  rcases JsonSchema.field?_default rfl hexport with ⟨entries, hentries, hdefault⟩
  rw [hentries] at hexport
  have hreads : PrimitiveKind.Reads .date d.contentForm
      (.dateTime Value.slightlyEast.asRead) := by
    have hread := Value.toDate?_isoText_dateTime Value.genuine_slightlyEast
    rw [Value.toDate?] at hread
    exact PrimitiveKind.Reads.dateText hread
  have hvalidated := validate_of_mirrors hbuilt.wellFormed
    (.primitive hreads (fun c hc => absurd hc List.not_mem_nil))
  refine ⟨s, d, d.contentForm, .dateTime Value.slightlyEast.asRead, hbuilt, rfl, hfixes, ?_,
    ⟨entries, hexport, hdefault⟩, hvalidated, ?_⟩
  · rw [hform, htext]
  · intro h
    injection h with h
    exact Value.asRead_slightlyEast_ne h

end Schema
end ContentSchema
