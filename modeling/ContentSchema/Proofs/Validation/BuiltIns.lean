import ContentSchema.Proofs.Journal
import ContentSchema.Proofs.Validation.Testing
import ContentSchema.Validation.Report

/-!
# Schemas with built-in constraints

Field errors are data, so validation should answer whatever it is given.  With built-in
constraints one thing is in the way: the constraint on web addresses has no answer for a text
whose authority cannot be read, such as an opening bracket that is never closed.  Every other
built-in constraint answers for every value of its kind.  So validation answers exactly when
no text of that sort stands where a web address is demanded, and a batch answers exactly when
that holds for each of its documents.
-/

namespace ContentSchema

/-!
## Built-in constraints
-/

/-- A number, for which truth values pass as well. -/
def Value.IsNumber (v : Value) : Prop :=
  exists q, v.quantity? = some q

namespace Constraint

/-- The constraints that the library offers; bounds are numbers. -/
inductive BuiltIn : Constraint -> Prop
  | nonEmpty : BuiltIn nonEmpty
  | minLength {n : Value} : n.IsNumber -> BuiltIn (minLength n)
  | maxLength {n : Value} : n.IsNumber -> BuiltIn (maxLength n)
  | exactLength (n : Value) : BuiltIn (exactLength n)
  | isUrl : BuiltIn isUrl
  | isEmail : BuiltIn isEmail
  | matching {pattern : String} {c : Constraint} :
      Constraint.matching pattern = .ok c -> BuiltIn c
  | positive : BuiltIn positive
  | nonnegative : BuiltIn nonnegative
  | whole : BuiltIn whole
  | atLeast {n : Value} : n.IsNumber -> BuiltIn (atLeast n)
  | atMost {n : Value} : n.IsNumber -> BuiltIn (atMost n)

theorem eq_string_of_contains {kind : PrimitiveKind}
    (h : ["string"].contains kind.name = true) : kind = .string := by
  cases kind <;> simp [PrimitiveKind.name] at h ⊢

theorem eq_number_of_contains {kind : PrimitiveKind}
    (h : ["number"].contains kind.name = true) : kind = .number := by
  cases kind <;> simp [PrimitiveKind.name] at h ⊢

/-!
What the constraints with a bound answer, and the one on web addresses.
-/

theorem check_minLength {n : Value} {q : Quantity} (hn : n.quantity? = some q)
    (s : String) :
    (minLength n).check (.text s) = .ok (q.le (.rational s.length)) := by
  show ConstraintTest.holds (.minLength n) (.text s) = _
  simp only [ConstraintTest.holds, ConstraintTest.measure, hn]
  rfl

theorem check_maxLength {n : Value} {q : Quantity} (hn : n.quantity? = some q)
    (s : String) :
    (maxLength n).check (.text s) = .ok ((Quantity.rational s.length).le q) := by
  show ConstraintTest.holds (.maxLength n) (.text s) = _
  simp only [ConstraintTest.holds, ConstraintTest.measure, hn]
  rfl

theorem check_atLeast {n v : Value} {p q : Quantity} (hn : n.quantity? = some p)
    (hv : v.quantity? = some q) :
    (atLeast n).check v = .ok (p.le q) := by
  show ConstraintTest.holds (.atLeast n) v = _
  simp only [ConstraintTest.holds, ConstraintTest.measure, hn, hv]
  rfl

theorem check_atMost {n v : Value} {p q : Quantity} (hn : n.quantity? = some p)
    (hv : v.quantity? = some q) :
    (atMost n).check v = .ok (q.le p) := by
  show ConstraintTest.holds (.atMost n) v = _
  simp only [ConstraintTest.holds, ConstraintTest.measure, hn, hv]
  rfl

theorem check_positive {v : Value} {q : Quantity} (hv : v.quantity? = some q) :
    positive.check v = .ok ((Quantity.rational 0).lt q) := by
  show ConstraintTest.holds .positive v = _
  simp only [ConstraintTest.holds, ConstraintTest.measure, hv]
  rfl

theorem check_nonnegative {v : Value} {q : Quantity} (hv : v.quantity? = some q) :
    nonnegative.check v = .ok ((Quantity.rational 0).le q) := by
  show ConstraintTest.holds .nonnegative v = _
  simp only [ConstraintTest.holds, ConstraintTest.measure, hv]
  rfl

theorem check_isUrl_readable {t : String} {url : Address.Url}
    (h : Address.Url.read? t = some url) :
    isUrl.check (.text t) = .ok url.isWellShaped := by
  show ConstraintTest.holds .url (.text t) = _
  simp only [ConstraintTest.holds, ConstraintTest.textOf, Value.text?, orFault, bind,
    Except.bind, h]
  rfl

theorem check_isUrl_unreadable {t : String} (h : Address.Url.read? t = none) :
    isUrl.check (.text t) = .error .badValue := by
  show ConstraintTest.holds .url (.text t) = _
  simp only [ConstraintTest.holds, ConstraintTest.textOf, Value.text?, orFault, bind,
    Except.bind, h]
  rfl

theorem quantity_of_number {v : Value} (hv : PrimitiveKind.Holds .number v) :
    exists q, v.quantity? = some q := by
  cases hv with
  | int n => exact ⟨_, rfl⟩
  | float x => exact ⟨_, rfl⟩

theorem BuiltIn.check_cases {c : Constraint} (hc : BuiltIn c) {kind : PrimitiveKind}
    (happlies : c.appliesTo.contains kind.name = true) {v : Value} (hv : kind.Holds v) :
    Answer.Succeeds (c.check v) ∨
      c = Constraint.isUrl ∧ exists t, v = .text t ∧ Address.Url.read? t = none := by
  cases hc with
  | nonEmpty =>
      rw [eq_string_of_contains happlies] at hv
      cases hv with
      | text s => exact Or.inl ⟨_, rfl⟩
  | minLength hn =>
      rcases hn with ⟨q, hq⟩
      rw [eq_string_of_contains happlies] at hv
      cases hv with
      | text s => exact Or.inl ⟨_, check_minLength hq s⟩
  | maxLength hn =>
      rcases hn with ⟨q, hq⟩
      rw [eq_string_of_contains happlies] at hv
      cases hv with
      | text s => exact Or.inl ⟨_, check_maxLength hq s⟩
  | exactLength n =>
      rw [eq_string_of_contains happlies] at hv
      cases hv with
      | text s => exact Or.inl ⟨_, rfl⟩
  | isUrl =>
      rw [eq_string_of_contains happlies] at hv
      cases hv with
      | text s =>
          cases hread : Address.Url.read? s with
          | none => exact Or.inr ⟨rfl, s, rfl, hread⟩
          | some url => exact Or.inl ⟨_, check_isUrl_readable hread⟩
  | isEmail =>
      rw [eq_string_of_contains happlies] at hv
      cases hv with
      | text s => exact Or.inl ⟨_, rfl⟩
  | matching hpattern =>
      rcases Constraint.matching_eq_ok.mp hpattern with ⟨tree, _htree, hc⟩
      rw [hc] at happlies ⊢
      rw [eq_string_of_contains happlies] at hv
      cases hv with
      | text s => exact Or.inl ⟨_, rfl⟩
  | positive =>
      rw [eq_number_of_contains happlies] at hv
      cases hv <;> exact Or.inl ⟨_, rfl⟩
  | nonnegative =>
      rw [eq_number_of_contains happlies] at hv
      cases hv <;> exact Or.inl ⟨_, rfl⟩
  | whole =>
      exact Or.inl ⟨_, rfl⟩
  | atLeast hn =>
      rcases hn with ⟨p, hp⟩
      rw [eq_number_of_contains happlies] at hv
      rcases quantity_of_number hv with ⟨q, hq⟩
      exact Or.inl ⟨_, check_atLeast hp hq⟩
  | atMost hn =>
      rcases hn with ⟨p, hp⟩
      rw [eq_number_of_contains happlies] at hv
      rcases quantity_of_number hv with ⟨q, hq⟩
      exact Or.inl ⟨_, check_atMost hp hq⟩

end Constraint

namespace Schema

/-!
## Schemas assembled from them
-/

/-- The call brings in no constraints but built-in ones, and bounds that are numbers. -/
def Call.UsesBuiltIns : Call -> Prop
  | .refine c => c.BuiltIn
  | .min bound => bound.IsNumber
  | .max bound => bound.IsNumber
  | _ => True

theorem int_isNumber (n : Int) : (Value.int n).IsNumber :=
  ⟨_, rfl⟩

theorem builtIn_of_attaches {call : Call} {c : Constraint} (hcall : call.UsesBuiltIns)
    (h : call.Attaches c) : c.BuiltIn := by
  cases h with
  | refine c => exact hcall
  | minLength bound n => exact .minLength (int_isNumber n)
  | maxLength bound n => exact .maxLength (int_isNumber n)
  | exactLength bound n => exact .exactLength _
  | atLeast bound => exact .atLeast hcall
  | atMost bound => exact .atMost hcall
  | matching hpattern => exact .matching hpattern

theorem Built.constraints_builtIn {s : Schema}
    (h : Built (fun _ call _ => call.UsesBuiltIns) s) :
    Everywhere (fun t => forall c, c ∈ t.ownConstraints -> c.BuiltIn) s :=
  h.everywhere_constraints (fun _s _call _t _c hcall hattaches =>
    builtIn_of_attaches hcall hattaches)

/-- Every text that is tested as a web address can be read as one. -/
def UrlsReadable (s : Schema) (raw : Value) : Prop :=
  forall t, Tested .isUrl (.text t) s raw -> (Address.Url.read? t).isSome = true

theorem check_cases_of_tested {s : Schema} {raw v : Value} {c : Constraint}
    (hs : Built (fun _ call _ => call.UsesBuiltIns) s) (h : Tested c v s raw) :
    Answer.Succeeds (c.check v) ∨
      c = Constraint.isUrl ∧ exists t, v = .text t ∧ Address.Url.read? t = none := by
  rcases h.occurs with ⟨a, kind, constraints, place, hoccurs, hc, hreads⟩
  have hbuiltIn := hs.constraints_builtIn _ hoccurs c hc
  have happlies := (hs.wellFormed _ hoccurs).shape c hc
  exact hbuiltIn.check_cases happlies hreads.holds

theorem succeeds_validate_iff_urlsReadable {s : Schema} {raw : Value}
    (hs : Built (fun _ call _ => call.UsesBuiltIns) s) :
    Answer.Succeeds (s.validate raw) <-> UrlsReadable s raw := by
  rw [succeeds_validate_iff hs.wellFormed]
  constructor
  · intro h t htested
    rcases h _ _ htested with ⟨passed, hpassed⟩
    cases hread : Address.Url.read? t with
    | none =>
        rw [Constraint.check_isUrl_unreadable hread] at hpassed
        cases hpassed
    | some url =>
        rfl
  · intro h c v htested
    rcases check_cases_of_tested hs htested with hanswers | ⟨hc, t, hv, hread⟩
    · exact hanswers
    · rw [hc, hv] at htested
      have hreadable := h t htested
      rw [hread] at hreadable
      cases hreadable

theorem validate_fault {s : Schema} {raw : Value} {fault : Fault}
    (hs : Built (fun _ call _ => call.UsesBuiltIns) s)
    (h : s.validate raw = .error fault) : fault = .badValue := by
  rcases validate_eq_error hs.wellFormed h with ⟨c, v, htested, hcheck⟩
  rcases check_cases_of_tested hs htested with hanswers | ⟨hc, t, hv, hread⟩
  · rw [hcheck] at hanswers
    exact absurd hanswers (Answer.not_succeeds_error fault)
  · rw [hc, hv, Constraint.check_isUrl_unreadable hread] at hcheck
    injection hcheck with hcheck
    exact hcheck.symm

/-!
## Batches

A batch goes through its documents in order and adds one outcome for each.
-/

def Outcomes (s : Schema) (documents : List (String × Value))
    (results : List DocumentResult) : Prop :=
  List.Forall₂ (fun document result =>
    result.document = document.1 ∧ s.validate document.2 = .ok result.result)
    documents results

@[simp] theorem validateInto_outcome {s : Schema} {report : ValidationReport} {document : String}
    {raw : Value} {rest : List (String × Value)} :
    (s.validateInto report ((document, raw) :: rest)).outcome =
      s.validate raw >>= fun result =>
        (s.validateInto (report.add document result) rest).outcome := by
  simp only [validateInto, Journal.outcome_bind, Journal.outcome_ofAnswer]
  congr 1
  funext result
  cases hok : result.ok <;> simp

theorem validateInto_eq_ok {s : Schema} {documents : List (String × Value)}
    {before after : ValidationReport} :
    (s.validateInto before documents).outcome = .ok after ->
      exists results, after.results = before.results ++ results ∧
        Outcomes s documents results := by
  induction documents generalizing before with
  | nil =>
      intro h
      injection h with h
      exact ⟨[], by rw [h, List.append_nil], List.Forall₂.nil⟩
  | cons document rest ih =>
      intro h
      rw [validateInto_outcome] at h
      rcases Answer.bind_eq_ok.mp h with ⟨result, hresult, h⟩
      rcases ih h with ⟨results, hresults, houtcomes⟩
      refine ⟨⟨document.1, result⟩ :: results, ?_,
        List.Forall₂.cons ⟨rfl, hresult⟩ houtcomes⟩
      rw [hresults]
      simp [ValidationReport.add]

theorem succeeds_validateInto_iff {s : Schema} {documents : List (String × Value)}
    {report : ValidationReport} :
    Answer.Succeeds (s.validateInto report documents).outcome <->
      forall d, d ∈ documents -> Answer.Succeeds (s.validate d.2) := by
  induction documents generalizing report with
  | nil =>
      simp [validateInto, Answer.Succeeds, pure]
  | cons document rest ih =>
      rw [validateInto_outcome, Answer.succeeds_bind]
      simp only [ih, List.mem_cons]
      constructor
      · intro h d hd
        rcases h with ⟨result, hresult, hrest⟩
        rcases hd with hd | hd
        · rw [hd]
          exact ⟨result, hresult⟩
        · exact hrest d hd
      · intro h
        rcases h document (Or.inl rfl) with ⟨result, hresult⟩
        exact ⟨result, hresult, fun d hd => h d (Or.inr hd)⟩

/-!
## Validation answers
-/

/-- With built-in constraints, validation answers exactly when every text that is tested as a
web address can be read as one; otherwise it is stopped by a bad value.  A batch answers
exactly when this holds of all its documents, and then with one outcome for each of them, in
order. -/
theorem answers_iff_urlsReadable {s : Schema}
    (hs : Built (fun _ call _ => call.UsesBuiltIns) s) :
    (forall raw, Answer.Succeeds (s.validate raw) <-> UrlsReadable s raw) ∧
    (forall raw fault, s.validate raw = .error fault -> fault = .badValue) ∧
    (forall documents,
      (exists report, (s.validateBatch documents).outcome = .ok report ∧
        Outcomes s documents report.results) <->
      forall d, d ∈ documents -> UrlsReadable s d.2) := by
  refine ⟨fun raw => succeeds_validate_iff_urlsReadable hs,
    fun raw fault h => validate_fault hs h, ?_⟩
  intro documents
  have hbatch : Answer.Succeeds (s.validateBatch documents).outcome <->
      forall d, d ∈ documents -> UrlsReadable s d.2 := by
    simp only [validateBatch, succeeds_validateInto_iff,
      succeeds_validate_iff_urlsReadable hs]
  constructor
  · intro h
    rcases h with ⟨report, hreport, _houtcomes⟩
    exact hbatch.mp ⟨report, hreport⟩
  · intro h
    rcases hbatch.mpr h with ⟨report, hreport⟩
    rcases validateInto_eq_ok hreport with ⟨results, hresults, houtcomes⟩
    refine ⟨report, hreport, ?_⟩
    rw [hresults]
    exact houtcomes

def links : Schema :=
  .array .fresh (some (.primitive .fresh .string [.isUrl]))

theorem built_links : Built (fun _ call _ => call.UsesBuiltIns) links := by
  have hlink : Built (fun _ call _ => call.UsesBuiltIns)
      (.primitive .fresh .string [.isUrl]) := by
    have happly : Call.apply (.refine .isUrl) string =
        .ok (.primitive .fresh .string [.isUrl]) := rfl
    refine .call (.ofKind .string) ?_ happly Constraint.BuiltIn.isUrl
    intro name child h
    cases h
  exact .array (fun _ => hlink) rfl

theorem links_batch_answers :
    Built (fun _ call _ => call.UsesBuiltIns) links ∧
    (forall d, d ∈ [("a", Value.list [.text "https://example.org/"]), ("b", .text "none")] ->
      UrlsReadable links d.2) ∧
    exists report,
      (links.validateBatch
        [("a", .list [.text "https://example.org/"]), ("b", .text "none")]).outcome =
          .ok report ∧
      Outcomes links [("a", .list [.text "https://example.org/"]), ("b", .text "none")]
        report.results := by
  have hreadable : forall d,
      d ∈ [("a", Value.list [.text "https://example.org/"]), ("b", .text "none")] ->
      UrlsReadable links d.2 := by
    intro d hd t htested
    simp only [List.mem_cons, List.not_mem_nil, or_false] at hd
    rcases hd with hd | hd
    · subst hd
      cases htested with
      | element hitems hitem htested =>
          injection hitems with hitems
          rw [← hitems] at hitem
          rw [List.mem_singleton.mp hitem] at htested
          cases htested with
          | leaf _ hreads =>
              cases hreads with
              | text s => rfl
    · subst hd
      cases htested with
      | element hitems _ _ =>
          cases hitems
  exact ⟨built_links, hreadable, ((answers_iff_urlsReadable built_links).2.2 _).mpr hreadable⟩

/-- An opening bracket that is never closed stops validation. -/
theorem links_unclosed_bracket :
    Built (fun _ call _ => call.UsesBuiltIns) links ∧
      links.validate (.list [.text "http://["]) = .error .badValue := by
  exact ⟨built_links, rfl⟩

end Schema
end ContentSchema
