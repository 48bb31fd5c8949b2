import ContentSchema.Proofs.Content.Accounting
import ContentSchema.Proofs.Validation.ReportAlgebra
import Mathlib.Algebra.BigOperators.Group.List.Basic
import Mathlib.Algebra.Group.Prod
import Mathlib.Algebra.Ring.Int.Defs

/-!
# What a load tells its log

A load makes calls on its log while the report comes about: a warning for each file that cannot
be read, the field errors of each rejected document, and the figures of each batch.  The calls
recount the report.  Read in order they give its unreadable files and its failed documents, and
their figures add up to its counters, save for the results that stand for included collections
without files and were never in a batch.
-/

namespace ContentSchema

/-!
## Calls
-/

namespace LogEntry

def isRejection : LogEntry -> Bool
  | fieldErrors _ _ => true
  | _ => false

def isUnreadable : LogEntry -> Bool
  | warning message _ => message == "Unreadable document"
  | _ => false

def number (details : Value) (name : String) : Int :=
  match details with
  | .mapping entries =>
      match Value.field? entries name with
      | some (.int n) => n
      | _ => 0
  | _ => 0

def figures : LogEntry -> Int × Int × Int
  | operation name details =>
      if name = "validate_collection" then
        (number details "documents", number details "invalid", number details "errors")
      else 0
  | _ => 0

theorem figures_checked (collection : String) (documents invalid errors : Nat) :
    (Event.checked collection documents invalid errors).entry.figures =
      ((documents : Int), (invalid : Int), (errors : Int)) := by
  simp [Event.entry, Event.details, figures, number, Value.field?, Entries.get?_cons]

end LogEntry

/-!
## Reports as calls
-/

/-- The result stands for an included collection without files, and for no document. -/
def DocumentResult.isStandIn (d : DocumentResult) : Bool :=
  d.result.errors.any (fun e => e.kind = .unresolvableInclude)

namespace ValidationReport

def rejections (report : ValidationReport) : List LogEntry :=
  report.failed.map (fun d => .fieldErrors d.document d.result.errors)

def warnings (report : ValidationReport) : List LogEntry :=
  report.unreadable.map (fun u => .warning "Unreadable document"
    (.ofMembers [("document", .text u.1), ("reason", .text u.2)]))

def standIns (report : ValidationReport) : List DocumentResult :=
  report.results.filter DocumentResult.isStandIn

/-- The counters less what is counted for stand-ins. -/
def figures (report : ValidationReport) : Int × Int × Int :=
  (report.documentsChecked - report.standIns.length,
    report.documentsWithErrors - report.standIns.countP (fun d => !d.result.ok),
    report.totalErrors - (report.standIns.map (fun d => d.result.errors.length)).sum)

theorem figures_merge {r other : ValidationReport} (h : other.Counted) :
    (r.merge other).figures = r.figures + other.figures := by
  rcases h.counters_merge r with ⟨hchecked, hwithErrors, herrors⟩
  simp only [figures, standIns, hchecked, hwithErrors, herrors, results_merge,
    List.filter_append, List.length_append, List.countP_append, List.map_append, List.sum_append,
    Prod.mk_add_mk, Int.natCast_add]
  congr 1
  · omega
  · congr 1 <;> omega

theorem figures_of_no_standIns {r : ValidationReport} (h : r.standIns = []) :
    r.figures = ((r.documentsChecked : Int), (r.documentsWithErrors : Int),
      (r.totalErrors : Int)) := by
  simp [figures, h]

@[simp] theorem rejections_merge (r other : ValidationReport) :
    (r.merge other).rejections = r.rejections ++ other.rejections := by
  rw [rejections, failed, results_merge, List.filter_append, List.map_append]
  rfl

@[simp] theorem warnings_merge (r other : ValidationReport) :
    (r.merge other).warnings = r.warnings ++ other.warnings := by
  rw [warnings, unreadable_merge, List.map_append]
  rfl

end ValidationReport

/-!
## What validation finds

An include that cannot be resolved is nothing that validation finds in a document, so stand-ins
are told from results by their errors.
-/

namespace Schema

def NoneAboutIncludes (errors : List FieldError) : Prop :=
  forall e, e ∈ errors -> e.kind ≠ .unresolvableInclude

theorem noneAboutIncludes_nil : NoneAboutIncludes [] :=
  fun _e he => absurd he List.not_mem_nil

theorem noneAboutIncludes_append {xs ys : List FieldError} (hxs : NoneAboutIncludes xs)
    (hys : NoneAboutIncludes ys) : NoneAboutIncludes (xs ++ ys) := by
  intro e he
  rcases List.mem_append.mp he with he | he
  · exact hxs e he
  · exact hys e he

theorem noneAboutIncludes_singleton {e : FieldError} (h : e.kind ≠ .unresolvableInclude) :
    NoneAboutIncludes [e] := by
  intro f hf
  rw [List.mem_singleton.mp hf]
  exact h

theorem violations_noneAboutIncludes {constraints : List Constraint} {typed raw : Value}
    {path : String} {errors : List FieldError}
    (h : violations constraints typed raw path = .ok errors) : NoneAboutIncludes errors := by
  induction constraints generalizing errors with
  | nil =>
      injection h with h
      rw [← h]
      exact noneAboutIncludes_nil
  | cons c rest ih =>
      rcases Answer.bind_eq_ok.mp h with ⟨passed, _hpassed, h⟩
      rcases Answer.bind_eq_ok.mp h with ⟨later, hlater, h⟩
      cases passed with
      | true =>
          rw [← Answer.pure_eq_ok.mp h]
          exact ih hlater
      | false =>
          rw [← Answer.pure_eq_ok.mp h]
          exact noneAboutIncludes_append (noneAboutIncludes_singleton (by simp)) (ih hlater)

theorem noneAboutIncludes_flatMap {α β : Type} {R : α -> β -> Prop} {errors : β -> List FieldError}
    {xs : List α} {parts : List β} (hparts : List.Forall₂ R xs parts)
    (h : forall x part, x ∈ xs -> R x part -> NoneAboutIncludes (errors part)) :
    NoneAboutIncludes (parts.flatMap errors) := by
  induction hparts with
  | nil =>
      exact noneAboutIncludes_nil
  | cons hpart _hrest ih =>
      rw [List.flatMap_cons]
      exact noneAboutIncludes_append (h _ _ List.mem_cons_self hpart)
        (ih (fun x part hx => h x part (List.mem_cons_of_mem _ hx)))

theorem examine_noneAboutIncludes {s : Schema} {raw : Value} {path : String} {found : Findings}
    (h : s.examine raw path = .ok found) : NoneAboutIncludes found.errors := by
  induction s using tree_induction generalizing raw path found with
  | primitive a kind constraints =>
      cases examined_of_examine h with
      | read _hreads herrors =>
          exact violations_noneAboutIncludes herrors
      | unread _hunread =>
          refine noneAboutIncludes_singleton ?_
          cases kind <;> cases raw <;> simp [unread, mistyped]
  | enumeration a values =>
      cases examined_of_examine h with
      | listed _hlisted => exact noneAboutIncludes_nil
      | unlisted _hunlisted => exact noneAboutIncludes_singleton (by simp [Schema.unlisted])
      | noText _hother => exact noneAboutIncludes_singleton (by simp [mistyped])
  | object a fields ih =>
      cases examined_of_examine h with
      | mapping hparts =>
          refine noneAboutIncludes_flatMap hparts ?_
          intro f part hf hpart
          cases hpart with
          | held _hheld hexamined => exact ih f hf hexamined
          | missing _ _ =>
              exact noneAboutIncludes_singleton (by simp [missingField, FieldError.plain])
          | filled _ _ => exact noneAboutIncludes_nil
          | leftOut _ _ => exact noneAboutIncludes_nil
      | noMapping _hother => exact noneAboutIncludes_singleton (by simp [mistyped])
  | missing a =>
      cases h
  | array a element ih =>
      cases examined_of_examine h with
      | sequence _hitems hparts =>
          exact noneAboutIncludes_flatMap hparts (fun _item _part _hitem hpart => ih hpart)
      | noSequence _hother => exact noneAboutIncludes_singleton (by simp [mistyped])
  | bare a =>
      cases h
  | foreign v =>
      cases h

theorem validate_noneAboutIncludes {s : Schema} {raw : Value} {result : ValidationResult}
    (h : s.validate raw = .ok result) : NoneAboutIncludes result.errors := by
  unfold validate at h
  cases ha : s.attributes? with
  | none =>
      rw [ha] at h
      cases h
  | some a =>
      simp only [ha] at h
      split at h
      · injection h with h
        rw [← h]
        exact noneAboutIncludes_nil
      · rcases Answer.bind_eq_ok.mp h with ⟨found, hfound, h⟩
        split at h
        · rw [← Answer.pure_eq_ok.mp h]
          exact noneAboutIncludes_nil
        · rw [← Answer.pure_eq_ok.mp h]
          exact examine_noneAboutIncludes hfound

end Schema

/-!
## Recounting

What one call recounts is said once for each kind of call; the calls of an operation are put
together from those of its steps.
-/

/-- The calls recount how the second report has come out of the first: the documents that failed,
those that could not be read, and the figures of what was validated. -/
structure Recounts (calls : List LogEntry) (before after : ValidationReport) : Prop where
  rejections : after.rejections = before.rejections ++ calls.filter LogEntry.isRejection
  warnings : after.warnings = before.warnings ++ calls.filter LogEntry.isUnreadable
  figures : after.figures = before.figures + (calls.map LogEntry.figures).sum

namespace Recounts

open ContentFolder (missingInclude)

theorem nothing (r : ValidationReport) : Recounts [] r r :=
  ⟨(List.append_nil _).symm, (List.append_nil _).symm, (add_zero _).symm⟩

theorem append {first second : List LogEntry} {a b c : ValidationReport}
    (hfirst : Recounts first a b) (hsecond : Recounts second b c) :
    Recounts (first ++ second) a c where
  rejections := by
    rw [hsecond.rejections, hfirst.rejections, List.filter_append, List.append_assoc]
  warnings := by
    rw [hsecond.warnings, hfirst.warnings, List.filter_append, List.append_assoc]
  figures := by
    rw [hsecond.figures, hfirst.figures, List.map_append, List.sum_append, add_assoc]

theorem aside {call : LogEntry} (r : ValidationReport) (hrejection : call.isRejection = false)
    (hunreadable : call.isUnreadable = false) (hfigures : call.figures = 0) :
    Recounts [call] r r := by
  refine ⟨?_, ?_, ?_⟩
  · simp [hrejection]
  · simp [hunreadable]
  · simp [hfigures]

theorem unreadable (r : ValidationReport) (document reason : String) :
    Recounts [(Event.unreadable document reason).entry] r (r.addUnreadable document reason) := by
  refine ⟨?_, ?_, ?_⟩
  · exact (List.append_nil _).symm
  · rw [ValidationReport.warnings, ValidationReport.addUnreadable, List.map_append]
    rfl
  · exact (add_zero _).symm

theorem standIn (r : ValidationReport) (name : String) (patterns : List String) :
    Recounts [(Event.rejected ("include:" ++ name) [missingInclude name patterns]).entry] r
      (r.add ("include:" ++ name) ⟨.null, [missingInclude name patterns]⟩) := by
  rw [ValidationReport.add_eq_merge]
  refine ⟨?_, ?_, ?_⟩
  · rw [ValidationReport.rejections_merge]
    rfl
  · rw [ValidationReport.warnings_merge]
    rfl
  · have hcounted : (ValidationReport.empty.add ("include:" ++ name)
        ⟨.null, [missingInclude name patterns]⟩).Counted :=
      (ValidationReport.counted_of_no_results []).add _ _
    rw [ValidationReport.figures_merge hcounted]
    rfl

end Recounts

/-!
## Batches

The calls of a batch are the rejections of its report, and behind them its figures.
-/

@[simp] theorem Schema.calls_noteRejection (document : String) (result : ValidationResult) :
    (noteRejection document result).calls =
      (ValidationReport.empty.add document result).rejections := by
  cases hok : result.ok <;>
    simp [noteRejection, ValidationReport.rejections, ValidationReport.failed,
      ValidationReport.add, ValidationReport.empty, hok, Event.entry]

theorem Schema.rejections_validateInto {s : Schema} {documents : List (String × Value)}
    {before after : ValidationReport} (h : (s.validateInto before documents).outcome = .ok after) :
    after.rejections = before.rejections ++ (s.validateInto before documents).calls := by
  induction documents generalizing before with
  | nil =>
      rw [← Answer.pure_eq_ok.mp h]
      exact (List.append_nil _).symm
  | cons document rest ih =>
      rw [validateInto_cons] at h ⊢
      rcases Journal.bind_eq_ok h with ⟨result, _hresult, h, hcalls⟩
      rcases Journal.bind_eq_ok h with ⟨_, _hnoted, h, hlater⟩
      rw [ih h, hcalls, hlater, before.add_eq_merge]
      simp

namespace Registry

variable {r : Registry} {name : String} {documents : List (String × Value)}
  {batch : ValidationReport}

theorem not_isStandIn {d : DocumentResult} {raw : Value} (h : r.validate name raw = .ok d.result) :
    ¬d.isStandIn = true := by
  rcases Answer.bind_eq_ok.mp h with ⟨_schema, _hschema, hvalid⟩
  rw [DocumentResult.isStandIn, List.any_eq_true]
  intro hany
  rcases hany with ⟨e, he, hkind⟩
  exact Schema.validate_noneAboutIncludes hvalid e he (of_decide_eq_true hkind)

theorem standIns_validateBatch (h : (r.validateBatch name documents).outcome = .ok batch) :
    batch.standIns = [] := by
  rw [ValidationReport.standIns, List.filter_eq_nil_iff]
  intro d hd
  rcases forall₂_of_mem (validateBatch_eq_ok h).right.flip hd with
    ⟨_document, _hdocument, _hname, hvalid⟩
  exact not_isStandIn hvalid

theorem calls_validateBatch (h : (r.validateBatch name documents).outcome = .ok batch) :
    (r.validateBatch name documents).calls = batch.rejections ++ [(Event.checked name
      batch.documentsChecked batch.documentsWithErrors batch.totalErrors).entry] := by
  rcases Journal.bind_eq_ok h with ⟨schema, _hschema, h, hcalls⟩
  rcases Journal.bind_eq_ok h with ⟨report, hreport, h, hbatch⟩
  rcases Journal.bind_eq_ok h with ⟨_, _hnoted, h, hchecked⟩
  have hsame := Answer.pure_eq_ok.mp h
  have hrejections := Schema.rejections_validateInto hreport
  rw [validateBatch, hcalls, hbatch, hchecked, hsame]
  rw [hsame] at hrejections
  rw [hrejections]
  rfl

/-- The calls of a batch recount how its report is merged into another. -/
theorem recounts_validateBatch (report : ValidationReport)
    (h : (r.validateBatch name documents).outcome = .ok batch) :
    Recounts (r.validateBatch name documents).calls report (report.merge batch) := by
  have hrejections : forall call, call ∈ batch.rejections ->
      call.isRejection = true ∧ call.isUnreadable = false ∧ call.figures = 0 := by
    intro call hcall
    rcases List.mem_map.mp hcall with ⟨d, _hd, hcall⟩
    rw [← hcall]
    exact ⟨rfl, rfl, rfl⟩
  have hcounted : batch.Counted := by
    rw [validateBatch_outcome] at h
    rcases Answer.bind_eq_ok.mp h with ⟨schema, _hschema, hbatch⟩
    exact (Schema.batchReport_of_validateBatch hbatch).made.counted
  rw [calls_validateBatch h]
  refine ⟨?_, ?_, ?_⟩
  · rw [ValidationReport.rejections_merge, List.filter_append,
      List.filter_eq_self.mpr (fun call hcall => (hrejections call hcall).left)]
    simp [Event.entry, LogEntry.isRejection]
  · have hnone : batch.warnings = [] := by
      rw [ValidationReport.warnings, (validateBatch_eq_ok h).left]
      rfl
    rw [ValidationReport.warnings_merge, hnone, List.filter_append, List.filter_eq_nil_iff.mpr
      (fun call hcall => by simp [(hrejections call hcall).right.left])]
    simp [Event.entry, LogEntry.isUnreadable]
  · have hsilent : (batch.rejections.map LogEntry.figures).sum = 0 := by
      refine List.sum_eq_zero ?_
      intro x hx
      rcases List.mem_map.mp hx with ⟨call, hcall, hx⟩
      rw [← hx]
      exact (hrejections call hcall).right.right
    rw [ValidationReport.figures_merge hcounted,
      ValidationReport.figures_of_no_standIns (standIns_validateBatch h), List.map_append,
      List.sum_append, hsilent, zero_add, List.map_singleton, List.sum_singleton,
      LogEntry.figures_checked]

end Registry

/-!
## Loads
-/

namespace ContentFolder

theorem recounts_validateBatches {r : Registry} {batches : List (String × List (String × Value))}
    {before after : ValidationReport} (h : (validateBatches r before batches).outcome = .ok after) :
    Recounts (validateBatches r before batches).calls before after := by
  induction batches generalizing before with
  | nil =>
      rw [← Answer.pure_eq_ok.mp h]
      exact .nothing before
  | cons batch rest ih =>
      rcases Journal.bind_eq_ok h with ⟨checked, hchecked, h, hcalls⟩
      rw [validateBatches, hcalls]
      exact (Registry.recounts_validateBatch before hchecked).append (ih h)

theorem recounts_reportIncludes {r : Registry} {includes : List String}
    {before after : ValidationReport}
    (h : (reportIncludes r before includes).outcome = .ok after) :
    Recounts (reportIncludes r before includes).calls before after := by
  induction includes generalizing before with
  | nil =>
      rw [← Answer.pure_eq_ok.mp h]
      exact .nothing before
  | cons name rest ih =>
      rcases Journal.bind_eq_ok h with ⟨patterns, _hpatterns, h, hexpanded⟩
      rcases Journal.bind_eq_ok h with ⟨_, _hnoted, h, hcalls⟩
      rw [reportIncludes, hexpanded, hcalls]
      exact (Recounts.standIn before name patterns).append (ih h)

def Harvest.report (h : Harvest) : ValidationReport :=
  { ValidationReport.empty with unreadable := h.unreadable }

theorem recounts_harvestFile [YamlReader] {folder : ContentFolder} {r : Registry}
    {before after : Harvest} {f : Found} (h : (folder.harvestFile r before f).outcome = .ok after) :
    Recounts (folder.harvestFile r before f).calls before.report after.report := by
  rcases Journal.bind_eq_ok h with ⟨owner, _howner, h, hcalls⟩
  rw [harvestFile, hcalls]
  cases hread : RawDocument.read (folder.locationOf f) (some (.file f.file.contents))
      (.ok owner.kind) with
  | ok raw =>
      simp only [hread] at h ⊢
      rw [← Answer.pure_eq_ok.mp h]
      exact .nothing _
  | error fault =>
      cases fault with
      | unreadable path cause =>
          simp only [hread] at h ⊢
          rcases Journal.bind_eq_ok h with ⟨_, _hnoted, h, hcalls⟩
          rw [hcalls, ← Answer.pure_eq_ok.mp h]
          exact .unreadable before.report (documentOf f) _
      | _ => simp [hread] at h

theorem recounts_harvest [YamlReader] {folder : ContentFolder} {r : Registry} {found : List Found}
    {before after : Harvest} (h : (folder.harvest r before found).outcome = .ok after) :
    Recounts (folder.harvest r before found).calls before.report after.report := by
  induction found generalizing before with
  | nil =>
      rw [← Answer.pure_eq_ok.mp h]
      exact .nothing _
  | cons f rest ih =>
      rcases Journal.bind_eq_ok h with ⟨harvest, hharvest, h, hcalls⟩
      rw [ContentFolder.harvest, hcalls]
      exact (recounts_harvestFile hharvest).append (ih h)

theorem recounts_includesIf {r : Registry} {includes : List String}
    {before after : ValidationReport} {occasion : Bool}
    (h : (if occasion then reportIncludes r before includes else pure before).outcome =
      .ok after) :
    Recounts (if occasion then reportIncludes r before includes else pure before).calls before
      after ∧ after.unreadable = before.unreadable := by
  cases occasion with
  | true =>
      exact ⟨recounts_reportIncludes h, (reportIncludes_eq_ok h).left⟩
  | false =>
      rw [← Answer.pure_eq_ok.mp h]
      exact ⟨.nothing before, rfl⟩

/-- A load reads the files first, and validates nothing before that is done. -/
theorem load_recounts [YamlReader] {folder : ContentFolder} {r : Registry} {name : String}
    {report : ValidationReport} (h : (folder.load r name).outcome = .ok report) :
    exists (harvest : Harvest) (first second : List LogEntry),
      (folder.load r name).calls = first ++ second ∧
      Recounts first ValidationReport.empty harvest.report ∧
      Recounts second harvest.report report ∧ report.unreadable = harvest.unreadable := by
  rcases Journal.bind_eq_ok h with ⟨d, _hd, h, hresolved⟩
  rcases Journal.bind_eq_ok h with ⟨_, _hnoted, h, hloading⟩
  rcases Journal.bind_eq_ok h with ⟨found, _hfound, h, hdiscovered⟩
  rcases Journal.bind_eq_ok h with ⟨harvest, hharvest, h, hread⟩
  rcases Journal.bind_eq_ok h with ⟨checked, hchecked, h, hvalidated⟩
  rcases recounts_includesIf h with ⟨hincludes, hunread⟩
  refine ⟨harvest, (Event.loading name folder.location.text).entry ::
      (folder.harvest r ⟨[], []⟩ found).calls, _, ?_, ?_,
    (recounts_validateBatches hchecked).append hincludes,
    hunread.trans (validateBatches_eq_ok hchecked).left⟩
  · rw [load, hresolved, hloading, hdiscovered, hread, hvalidated]
    rfl
  · exact (Recounts.aside ValidationReport.empty rfl rfl
      (by simp [Event.entry, LogEntry.figures])).append (recounts_harvest hharvest)

/-!
## The story
-/

theorem isStandIn_includeResult (name : String) (patterns : List String) :
    (includeResult name patterns).isStandIn = true := by
  simp [includeResult, DocumentResult.isStandIn, missingInclude]

theorem isStandIn_iff [YamlReader] {folder : ContentFolder} {r : Registry} {name : String}
    {report : ValidationReport} (h : (folder.load r name).outcome = .ok report)
    {d : DocumentResult} (hd : d ∈ report.results) :
    d.isStandIn = true <-> exists included patterns, d = includeResult included patterns := by
  constructor
  · intro hstandIn
    rcases accounts_of_load h with ⟨_collection, found, _hresolved, _hfound, hsome, hnone⟩
    by_cases hfiles : found = []
    · rcases forall₂_of_mem (hnone hfiles).right.flip hd with
        ⟨included, _hincluded, patterns, _hpatterns, hd⟩
      exact ⟨included, patterns, hd⟩
    · rcases forall₂_of_mem (hsome hfiles).results.flip hd with ⟨_e, _he, _hdocument, hvalid⟩
      exact absurd hstandIn (Registry.not_isStandIn hvalid)
  · intro hincluded
    rcases hincluded with ⟨included, patterns, hd⟩
    rw [hd]
    exact isStandIn_includeResult included patterns

/-- The calls of a load that comes to an end tell the same as its report.  The rejections are the
failed documents in order, those for included collections without files among them, each with its
errors.  The warnings are the unreadable documents in order with their reasons, and all of them
come before the first rejection.  The figures of the batches add up to the counters of the report
less what is counted there for included collections. -/
theorem load_tells_report [YamlReader] {folder : ContentFolder} {r : Registry} {name : String}
    {report : ValidationReport} (h : (folder.load r name).outcome = .ok report) :
    (folder.load r name).calls.filter LogEntry.isRejection =
      report.failed.map (fun d => .fieldErrors d.document d.result.errors) ∧
    (folder.load r name).calls.filter LogEntry.isUnreadable =
      report.unreadable.map (fun u => .warning "Unreadable document"
        (.ofMembers [("document", .text u.1), ("reason", .text u.2)])) ∧
    (exists first second, (folder.load r name).calls = first ++ second ∧
      (forall call, call ∈ first -> call.isRejection = false) ∧
      (forall call, call ∈ second -> call.isUnreadable = false)) ∧
    ((folder.load r name).calls.map LogEntry.figures).sum =
      ((report.documentsChecked : Int) - report.standIns.length,
        (report.documentsWithErrors : Int) - report.standIns.countP (fun d => !d.result.ok),
        (report.totalErrors : Int) -
          (report.standIns.map (fun d => d.result.errors.length)).sum) ∧
    (forall d, d ∈ report.standIns <->
      d ∈ report.results ∧ exists included patterns, d = includeResult included patterns) := by
  rcases load_recounts h with ⟨harvest, first, second, hcalls, hfirst, hsecond, hunreadable⟩
  have hall := hfirst.append hsecond
  rw [← hcalls] at hall
  have hnoRejections : first.filter LogEntry.isRejection = [] := hfirst.rejections.symm
  have hnoWarnings : second.filter LogEntry.isUnreadable = [] := by
    have hwarnings := hsecond.warnings
    rw [ValidationReport.warnings, ValidationReport.warnings, hunreadable] at hwarnings
    exact List.self_eq_append_right.mp hwarnings
  refine ⟨hall.rejections.symm, hall.warnings.symm, ⟨first, second, hcalls, ?_, ?_⟩, ?_, ?_⟩
  · intro call hcall
    exact Bool.eq_false_iff.mpr (List.filter_eq_nil_iff.mp hnoRejections call hcall)
  · intro call hcall
    exact Bool.eq_false_iff.mpr (List.filter_eq_nil_iff.mp hnoWarnings call hcall)
  · exact (zero_add _).symm.trans hall.figures.symm
  · intro d
    rw [ValidationReport.standIns, List.mem_filter]
    exact and_congr_right (fun hd => isStandIn_iff h hd)

theorem library_told :
    exists report, (library.load shelf "digest").outcome = .ok report ∧
      (library.load shelf "digest").calls.filter LogEntry.isRejection =
        report.failed.map (fun d => .fieldErrors d.document d.result.errors) ∧
      report.failed.map DocumentResult.document = ["notes/a.md"] ∧
      (library.load shelf "digest").calls.filter LogEntry.isUnreadable =
        report.unreadable.map (fun u => .warning "Unreadable document"
          (.ofMembers [("document", .text u.1), ("reason", .text u.2)])) ∧
      report.unreadable.map Prod.fst = ["notes/b.md"] ∧
      ((library.load shelf "digest").calls.map LogEntry.figures).sum = (2, 1, 1) := by
  have hreported : (library.load shelf "digest").outcome.toOption.map (fun report =>
      (report.failed.map DocumentResult.document, report.unreadable.map Prod.fst,
        report.documentsChecked, report.documentsWithErrors, report.totalErrors,
        report.standIns.length)) =
      some (["notes/a.md"], ["notes/b.md"], 2, 1, 1, 0) := by
    rw [load_outcome, discoverOwned_library.right]
    decide +kernel
  rcases succeeds_load_library.right with ⟨report, hreport⟩
  rcases load_tells_report hreport with ⟨hrejections, hwarnings, _hparts, hfigures, _hstandIns⟩
  rw [hreport] at hreported
  simp only [Except.toOption, Option.map_some, Option.some.injEq, Prod.mk.injEq] at hreported
  rcases hreported with ⟨hfailed, hunreadable, hchecked, hwithErrors, herrors, hnone⟩
  refine ⟨report, hreport, hrejections, hfailed, hwarnings, hunreadable, ?_⟩
  rw [hfigures, hchecked, hwithErrors, herrors, List.length_eq_zero_iff.mp hnone]
  rfl

end ContentFolder
end ContentSchema
