import ContentSchema.Proofs.Validation.Reports
import Mathlib.Algebra.GroupWithZero.Nat

/-!
# The algebra of reports

A report is made from the empty one by adding results, by noting documents that could not be
read, and by merging in another report that was made in this way.  Its counters then agree with
what stands in it, merging is associative with the empty report as unit, and the report of some
documents after others is the one merged into the other.
-/

namespace ContentSchema
namespace ValidationReport

/-- A report that was made step by step. -/
inductive Made : ValidationReport -> Prop
  | empty : Made empty
  | add {r : ValidationReport} (document : String) (result : ValidationResult) :
      Made r -> Made (r.add document result)
  | addUnreadable {r : ValidationReport} (document reason : String) :
      Made r -> Made (r.addUnreadable document reason)
  | merge {r other : ValidationReport} : Made r -> Made other -> Made (r.merge other)

/-!
## Counters
-/

theorem Made.counted {r : ValidationReport} (h : Made r) : Counted r := by
  induction h with
  | empty =>
      exact counted_of_no_results []
  | add document result _h ih =>
      exact ih.add document result
  | addUnreadable document reason _h ih =>
      exact ⟨ih.checked, ih.withErrors, ih.errors⟩
  | merge _h _hother ih _ihother =>
      exact ih.merge _

def passed (r : ValidationReport) : List DocumentResult :=
  r.results.filter (fun d => d.result.ok)

/-- Every result is on one of the two sides, which keep the order: those that fail on the first,
those that pass on the second. -/
structure Parted (results failing passing : List DocumentResult) : Prop where
  all : (failing ++ passing).Perm results
  failing_inOrder : failing.Sublist results
  passing_inOrder : passing.Sublist results
  fail : forall d, d ∈ failing -> d.result.errors ≠ []
  pass : forall d, d ∈ passing -> d.result.errors = []

/-- The counters and verdicts of a report agree with what stands in it. -/
structure AddsUp (r : ValidationReport) : Prop where
  checked : r.documentsChecked = r.results.length
  withErrors : r.documentsWithErrors = r.results.countP (fun d => !d.result.ok)
  errors : r.totalErrors = (r.results.map (fun d => d.result.errors.length)).sum
  hasErrors : r.hasErrors = true <->
    (exists d, d ∈ r.results ∧ d.result.errors ≠ []) ∨ r.unreadable ≠ []
  parted : Parted r.results r.failed r.passed

theorem parted_failed_passed (r : ValidationReport) :
    Parted r.results r.failed r.passed where
  all := by
    have hperm := List.filter_append_perm (fun d => !d.result.ok) r.results
    simp only [Bool.not_not] at hperm
    exact hperm
  failing_inOrder := List.filter_sublist
  passing_inOrder := List.filter_sublist
  fail := by
    intro d hd
    have hok := (List.mem_filter.mp hd).right
    rw [ValidationResult.ok, Bool.not_eq_true', List.isEmpty_eq_false_iff] at hok
    exact hok
  pass := by
    intro d hd
    exact List.isEmpty_iff.mp (List.mem_filter.mp hd).right

theorem exists_failing_iff (r : ValidationReport) :
    (exists d, d ∈ r.results ∧ d.result.errors ≠ []) <-> r.failed ≠ [] := by
  have hparted := parted_failed_passed r
  constructor
  · intro h
    rcases h with ⟨d, hd, herrors⟩
    rcases List.mem_append.mp (hparted.all.mem_iff.mpr hd) with hfailed | hpassed
    · exact List.ne_nil_of_mem hfailed
    · exact absurd (hparted.pass d hpassed) herrors
  · intro h
    rcases List.exists_mem_of_ne_nil r.failed h with ⟨d, hd⟩
    exact ⟨d, hparted.failing_inOrder.subset hd, hparted.fail d hd⟩

theorem Counted.addsUp {r : ValidationReport} (h : Counted r) : r.AddsUp where
  checked := h.checked
  withErrors := by
    rw [h.withErrors, failed, List.countP_eq_length_filter]
  errors := by
    rw [h.errors, List.length_flatMap]
  hasErrors := by
    have hhealthy := h.isHealthy_iff
    rw [isHealthy, Bool.not_eq_true'] at hhealthy
    rw [exists_failing_iff, ← Bool.not_eq_false, hhealthy, not_and_or]
  parted := parted_failed_passed r

/-!
## Merging
-/

theorem merge_eq (r other : ValidationReport) :
    r.merge other =
      { documentsChecked := r.documentsChecked + other.results.length
        documentsWithErrors :=
          r.documentsWithErrors + other.results.countP (fun d => !d.result.ok)
        totalErrors := r.totalErrors + (other.results.map (fun d => d.result.errors.length)).sum
        results := r.results ++ other.results
        unreadable := r.unreadable ++ other.unreadable } := by
  have hfold : forall (results : List DocumentResult) (r : ValidationReport),
      results.foldl (fun acc d => acc.add d.document d.result) r =
        { r with
          documentsChecked := r.documentsChecked + results.length
          documentsWithErrors :=
            r.documentsWithErrors + results.countP (fun d => !d.result.ok)
          totalErrors := r.totalErrors + (results.map (fun d => d.result.errors.length)).sum
          results := r.results ++ results } := by
    intro results
    induction results with
    | nil =>
        intro r
        simp
    | cons d rest ih =>
        intro r
        rw [List.foldl_cons, ih]
        cases hok : d.result.ok <;>
          simp [add, hok, Nat.add_assoc, Nat.add_comm, Nat.add_left_comm]
  rw [merge, hfold]

theorem merge_assoc (a b c : ValidationReport) :
    (a.merge b).merge c = a.merge (b.merge c) := by
  simp only [merge_eq, List.length_append, List.countP_append, List.map_append, List.sum_append,
    List.append_assoc, Nat.add_assoc]

@[simp] theorem merge_empty (r : ValidationReport) : r.merge empty = r := by
  rw [merge_eq]
  simp [empty]

theorem Counted.empty_merge {r : ValidationReport} (h : Counted r) : empty.merge r = r := by
  have haddsUp := h.addsUp
  rw [merge_eq, ← haddsUp.checked, ← haddsUp.withErrors, ← haddsUp.errors]
  simp [empty]

theorem Counted.counters_merge {other : ValidationReport} (h : Counted other)
    (r : ValidationReport) :
    (r.merge other).documentsChecked = r.documentsChecked + other.documentsChecked ∧
    (r.merge other).documentsWithErrors = r.documentsWithErrors + other.documentsWithErrors ∧
    (r.merge other).totalErrors = r.totalErrors + other.totalErrors := by
  have haddsUp := h.addsUp
  rw [merge_eq, haddsUp.checked, haddsUp.withErrors, haddsUp.errors]
  exact ⟨rfl, rfl, rfl⟩

theorem add_eq_merge (r : ValidationReport) (document : String) (result : ValidationResult) :
    r.add document result = r.merge (empty.add document result) := by
  rw [merge]
  exact congrArg (fun u => { r.add document result with unreadable := u })
    (List.append_nil r.unreadable).symm

end ValidationReport

/-!
## Batches
-/

namespace Schema

open ValidationReport (Made)

def noteRejection (document : String) (result : ValidationResult) : Journal Unit :=
  if !result.ok then Journal.note (.rejected document result.errors) else pure ()

theorem validateInto_cons (s : Schema) (document : String × Value)
    (rest : List (String × Value)) (report : ValidationReport) :
    s.validateInto report (document :: rest) =
      Journal.ofAnswer (s.validate document.2) >>= fun result =>
        noteRejection document.1 result >>= fun _ =>
          s.validateInto (report.add document.1 result) rest := by
  rw [validateInto]
  congr 1
  funext result
  unfold noteRejection
  split
  · rfl
  · rw [Journal.pure_bind]

/-- Documents that are validated into a report are validated apart and merged in. -/
theorem validateInto_eq_merge (s : Schema) (documents : List (String × Value))
    (report : ValidationReport) :
    s.validateInto report documents = do
      let batch ← s.validateBatch documents
      return report.merge batch := by
  induction documents generalizing report with
  | nil =>
      show pure report = (pure ValidationReport.empty >>= fun batch => pure (report.merge batch))
      simp
  | cons document rest ih =>
      simp only [validateBatch, validateInto_cons, Journal.bind_assoc]
      congr 1
      funext result
      congr 1
      funext _
      rw [ih (report.add _ _), ih (ValidationReport.empty.add _ _), report.add_eq_merge]
      simp [Journal.bind_assoc, ValidationReport.merge_assoc]

theorem validateInto_append (s : Schema) (first second : List (String × Value))
    (report : ValidationReport) :
    s.validateInto report (first ++ second) =
      s.validateInto report first >>= fun front => s.validateInto front second := by
  induction first generalizing report with
  | nil =>
      exact (Journal.pure_bind _ _).symm
  | cons document rest ih =>
      simp only [List.cons_append, validateInto_cons, Journal.bind_assoc, ih]

theorem validateBatch_append (s : Schema) (first second : List (String × Value)) :
    s.validateBatch (first ++ second) = do
      let front ← s.validateBatch first
      let back ← s.validateBatch second
      return front.merge back := by
  rw [validateBatch, validateInto_append]
  simp only [validateInto_eq_merge s second]
  rfl

theorem made_of_validateInto {s : Schema} {documents : List (String × Value)}
    {before after : ValidationReport} (hbefore : Made before)
    (h : (s.validateInto before documents).outcome = .ok after) : Made after := by
  induction documents generalizing before with
  | nil =>
      rw [← Answer.pure_eq_ok.mp h]
      exact hbefore
  | cons document rest ih =>
      rw [validateInto_outcome] at h
      rcases Answer.bind_eq_ok.mp h with ⟨result, _hresult, h⟩
      exact ih (hbefore.add document.1 result) h

/-- The report of a batch is made of the results of its documents on their own, each at the
place of its document. -/
structure BatchReport (s : Schema) (documents : List (String × Value))
    (report : ValidationReport) : Prop where
  made : Made report
  unreadable : report.unreadable = []
  length : report.results.length = documents.length
  entry : forall (i : Nat) (document : String × Value), documents[i]? = some document ->
    exists result, report.results[i]? = some (DocumentResult.mk document.1 result) ∧
      s.validate document.2 = .ok result

theorem batchReport_of_validateBatch {s : Schema} {documents : List (String × Value)}
    {report : ValidationReport} (h : (s.validateBatch documents).outcome = .ok report) :
    s.BatchReport documents report := by
  rcases validateInto_eq_ok h with ⟨results, hresults, houtcomes⟩
  have hsame : report.results = results := hresults
  refine ⟨made_of_validateInto .empty h, unreadable_validateInto h, ?_, ?_⟩
  · rw [hsame, houtcomes.length_eq]
  · intro i document hdocument
    rcases forall₂_exists_getElem? houtcomes hdocument with ⟨d, hd, hname, hvalid⟩
    refine ⟨d.result, ?_, hvalid⟩
    rw [hsame, hd, ← hname]

end Schema

/-!
## The account of a report
-/

namespace ValidationReport

/-- Every report that was made adds up.  Merging puts results and unreadable documents one behind
the other and adds the counters; it is associative, and the empty report is its unit.  A batch
of documents is validated, and its events are noted, as its two parts one after the other, with
the second report merged into the first.  It has a report exactly when each document has a
result, and then these are its entries. -/
theorem made_adds_up :
    (forall r, Made r -> r.AddsUp) ∧
    (forall r other, Made r -> Made other ->
      (r.merge other).results = r.results ++ other.results ∧
      (r.merge other).unreadable = r.unreadable ++ other.unreadable ∧
      (r.merge other).documentsChecked = r.documentsChecked + other.documentsChecked ∧
      (r.merge other).documentsWithErrors = r.documentsWithErrors + other.documentsWithErrors ∧
      (r.merge other).totalErrors = r.totalErrors + other.totalErrors) ∧
    (forall a b c : ValidationReport, (a.merge b).merge c = a.merge (b.merge c)) ∧
    (forall r, Made r -> empty.merge r = r ∧ r.merge empty = r) ∧
    (forall (s : Schema) xs ys,
      s.validateBatch (xs ++ ys) = do
        let front ← s.validateBatch xs
        let back ← s.validateBatch ys
        return front.merge back) ∧
    (forall (s : Schema) documents,
      (Answer.Succeeds (s.validateBatch documents).outcome <->
        forall d, d ∈ documents -> Answer.Succeeds (s.validate d.2)) ∧
      forall report, (s.validateBatch documents).outcome = .ok report ->
        s.BatchReport documents report) := by
  refine ⟨fun r hr => hr.counted.addsUp, ?_, merge_assoc,
    fun r hr => ⟨hr.counted.empty_merge, r.merge_empty⟩, Schema.validateBatch_append,
    fun s documents => ⟨Schema.succeeds_validateInto_iff,
      fun report h => Schema.batchReport_of_validateBatch h⟩⟩
  intro r other _hr hother
  exact ⟨results_merge r other, unreadable_merge r other, hother.counted.counters_merge r⟩

def readingReport : ValidationReport :=
  (empty.add "a" (.accepted (.int 1))).addUnreadable "b" "no mapping"

def failingReport : ValidationReport :=
  empty.add "c" ⟨.null, [Schema.missingField "" "title"]⟩

theorem merged_pair_adds_up :
    Made readingReport ∧ Made failingReport ∧
    (readingReport.merge failingReport).documentsChecked = 2 ∧
    (readingReport.merge failingReport).AddsUp ∧
    empty.merge failingReport = failingReport ∧
    (exists report, (Schema.string.validateBatch [("a", .text "x"), ("b", .int 1)]).outcome =
        .ok report ∧
      Schema.string.BatchReport [("a", .text "x"), ("b", .int 1)] report) := by
  have hreading : Made readingReport := .addUnreadable _ _ (.add _ _ .empty)
  have hfailing : Made failingReport := .add _ _ .empty
  rcases made_adds_up with ⟨haddsUp, hmerge, _hassoc, hunit, _happend, hbatch⟩
  have hchecked := (hmerge _ _ hreading hfailing).right.right.left
  have hcovered := (hbatch Schema.string [("a", .text "x"), ("b", .int 1)]).right _ rfl
  exact ⟨hreading, hfailing, hchecked, haddsUp _ (.merge hreading hfailing),
    (hunit _ hfailing).left, _, rfl, hcovered⟩

end ValidationReport
end ContentSchema
