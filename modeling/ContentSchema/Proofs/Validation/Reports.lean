import ContentSchema.Collection.Registry
import ContentSchema.Proofs.Validation.BuiltIns

/-!
# What reports say

A report says of a document what came of its validation, or why it could not be read.  Merging
reports keeps all that they say.  The report of a batch has one result for each document, which
is the one that the collection has for it on its own.
-/

namespace ContentSchema

inductive Verdict
  | checked (result : ValidationResult)
  | unreadable (reason : String)

namespace ValidationReport

def entries (report : ValidationReport) : List (String × Verdict) :=
  report.results.map (fun d => (d.document, .checked d.result)) ++
    report.unreadable.map (fun u => (u.1, .unreadable u.2))

def verdicts (report : ValidationReport) (document : String) : List Verdict :=
  (report.entries.filter (fun e => e.1 = document)).map Prod.snd

theorem documents_entries (report : ValidationReport) :
    report.entries.map Prod.fst =
      report.results.map DocumentResult.document ++ report.unreadable.map Prod.fst := by
  rw [entries, List.map_append, List.map_map, List.map_map]
  rfl

@[simp] theorem mem_verdicts {report : ValidationReport} {document : String} {v : Verdict} :
    v ∈ report.verdicts document <-> (document, v) ∈ report.entries := by
  simp only [verdicts, List.mem_map, List.mem_filter, decide_eq_true_eq]
  constructor
  · intro h
    rcases h with ⟨e, ⟨he, hdocument⟩, hv⟩
    rw [← hdocument, ← hv]
    exact he
  · intro h
    exact ⟨_, ⟨h, rfl⟩, rfl⟩

theorem verdicts_of_nodup {report : ValidationReport} {document : String} {v : Verdict}
    (hnodup : (report.entries.map Prod.fst).Nodup) (h : (document, v) ∈ report.entries) :
    report.verdicts document = [v] := by
  have hothers : forall e, e ∈ report.entries -> e.1 = document -> e = (document, v) := by
    intro e he hdocument
    exact List.inj_on_of_nodup_map hnodup he h hdocument
  have hsame : report.entries.filter (fun e => e.1 = document) = [(document, v)] := by
    have hperm : [(document, v)].Perm (report.entries.filter (fun e => e.1 = document)) := by
      refine (List.perm_ext_iff_of_nodup (List.nodup_singleton _)
        ((List.Nodup.of_map _ hnodup).filter _)).mpr ?_
      intro e
      rw [List.mem_singleton, List.mem_filter, decide_eq_true_eq]
      constructor
      · intro he
        rw [he]
        exact ⟨h, rfl⟩
      · intro he
        exact hothers e he.left he.right
    exact (List.singleton_perm.mp hperm).symm
  rw [verdicts, hsame]
  rfl

theorem foldl_add (results : List DocumentResult) (r : ValidationReport) :
    (results.foldl (fun acc d => acc.add d.document d.result) r).results = r.results ++ results ∧
      (results.foldl (fun acc d => acc.add d.document d.result) r).unreadable = r.unreadable := by
  induction results generalizing r with
  | nil =>
      exact ⟨(List.append_nil _).symm, rfl⟩
  | cons d rest ih =>
      rcases ih (r.add d.document d.result) with ⟨hresults, hunreadable⟩
      rw [List.foldl_cons]
      exact ⟨by rw [hresults, add, List.append_assoc, List.singleton_append], hunreadable⟩

@[simp] theorem results_merge (r other : ValidationReport) :
    (r.merge other).results = r.results ++ other.results :=
  (foldl_add other.results r).left

@[simp] theorem unreadable_merge (r other : ValidationReport) :
    (r.merge other).unreadable = r.unreadable ++ other.unreadable :=
  congrArg (· ++ other.unreadable) (foldl_add other.results r).right

/-!
## Counts

The counters are kept up with each result that is added, also when another report is merged in.
-/

/-- The counters agree with the results that stand in the report. -/
structure Counted (report : ValidationReport) : Prop where
  checked : report.documentsChecked = report.results.length
  withErrors : report.documentsWithErrors = report.failed.length
  errors : report.totalErrors = (report.results.flatMap (fun d => d.result.errors)).length

theorem counted_of_no_results (unreadable : List (String × String)) :
    Counted { empty with unreadable := unreadable } :=
  ⟨rfl, rfl, rfl⟩

theorem Counted.add {report : ValidationReport} (h : report.Counted) (document : String)
    (result : ValidationResult) : (report.add document result).Counted where
  checked := by
    simp [ValidationReport.add, h.checked]
  withErrors := by
    have hfailed := h.withErrors
    cases hok : result.ok <;>
      simp [ValidationReport.add, failed, List.filter_append, hok, hfailed]
  errors := by
    simp [ValidationReport.add, h.errors]

theorem Counted.merge {report : ValidationReport} (h : report.Counted)
    (other : ValidationReport) : (report.merge other).Counted := by
  have hadded : forall (results : List DocumentResult) (r : ValidationReport), r.Counted ->
      (results.foldl (fun acc d => acc.add d.document d.result) r).Counted := by
    intro results
    induction results with
    | nil =>
        exact fun _r hr => hr
    | cons d rest ih =>
        exact fun r hr => ih _ (hr.add d.document d.result)
  have hall := hadded other.results report h
  exact ⟨hall.checked, hall.withErrors, hall.errors⟩

theorem Counted.isHealthy_iff {report : ValidationReport} (h : report.Counted) :
    report.isHealthy = true <-> report.failed = [] ∧ report.unreadable = [] := by
  rw [isHealthy, hasErrors, h.withErrors, Bool.not_eq_true', Bool.or_eq_false_iff,
    decide_eq_false_iff_not, Nat.not_lt, Nat.le_zero, List.length_eq_zero_iff, Bool.not_eq_false',
    List.isEmpty_iff]

end ValidationReport

/-!
## Batches
-/

theorem Schema.unreadable_validateInto {s : Schema} {documents : List (String × Value)}
    {before after : ValidationReport} (h : (s.validateInto before documents).outcome = .ok after) :
    after.unreadable = before.unreadable := by
  induction documents generalizing before with
  | nil =>
      rw [← Answer.pure_eq_ok.mp h]
  | cons document rest ih =>
      rw [validateInto_outcome] at h
      rcases Answer.bind_eq_ok.mp h with ⟨result, _hresult, hrest⟩
      have hunreadable := ih hrest
      exact hunreadable

namespace Registry

theorem validateBatch_outcome (r : Registry) (name : String) (documents : List (String × Value)) :
    (r.validateBatch name documents).outcome =
      r.schemaFor name >>= fun schema => (schema.validateBatch documents).outcome := by
  simp [validateBatch]

theorem validate_of_schemaFor {r : Registry} {name : String} {schema : Schema}
    (h : r.schemaFor name = .ok schema) (raw : Value) :
    r.validate name raw = schema.validate raw := by
  rw [validate, h]
  rfl

theorem validateBatch_eq_ok {r : Registry} {name : String} {documents : List (String × Value)}
    {report : ValidationReport} (h : (r.validateBatch name documents).outcome = .ok report) :
    report.unreadable = [] ∧
      List.Forall₂ (fun document d => d.document = document.1 ∧
        r.validate name document.2 = .ok d.result) documents report.results := by
  rw [validateBatch_outcome] at h
  rcases Answer.bind_eq_ok.mp h with ⟨schema, hschema, h⟩
  rcases Schema.validateInto_eq_ok h with ⟨results, hresults, houtcomes⟩
  have hsame : report.results = results := hresults
  refine ⟨Schema.unreadable_validateInto h, ?_⟩
  rw [hsame]
  simp only [validate_of_schemaFor hschema]
  exact houtcomes

theorem succeeds_validateBatch {r : Registry} {name : String} {documents : List (String × Value)}
    (hschema : Answer.Succeeds (r.schemaFor name))
    (h : forall d, d ∈ documents -> Answer.Succeeds (r.validate name d.2)) :
    Answer.Succeeds (r.validateBatch name documents).outcome := by
  rcases hschema with ⟨schema, hschema⟩
  rw [validateBatch_outcome, hschema]
  refine Schema.succeeds_validateInto_iff.mpr ?_
  intro d hd
  rw [← validate_of_schemaFor hschema]
  exact h d hd

end Registry
end ContentSchema
