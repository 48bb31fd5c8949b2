import ContentSchema.Command.Run
import ContentSchema.Proofs.Content.Chronicle
import ContentSchema.Proofs.FirstOccurrences
import ContentSchema.Proofs.Log.Writing
import Mathlib.Algebra.BigOperators.Group.Finset.Basic
import Mathlib.Algebra.GroupWithZero.Nat

/-!
# The verdict on a content folder

What the exit status says about the content folder that is validated.  A run of the command can
only come to a few ends, and each of them says whether the selected collections could be loaded
and what their reports count.  Since the counters of a report agree with its results, no invalid
document is counted only where none has failed and all could be read.

The command tells its log what it finds, and a value that the log cannot write stops the run.  Only
rejected documents have such values, so where no document is rejected this does not happen.
-/

namespace ContentSchema

/-!
## What the log takes
-/

theorem takes_of_not_isRejection {l : Logger} {e : Event} (h : e.entry.isRejection = false) :
    l.takes e = true := by
  have htexts (texts : List String) : Json.acceptsAll true (texts.map Value.text) = true := by
    induction texts with
    | nil => rfl
    | cons t rest ih =>
        rw [List.map_cons, Json.acceptsAll, ih]
        rfl
  cases l with
  | silent =>
      rfl
  | component component =>
      cases e with
      | rejected document errors =>
          cases h
      | _ =>
          simp [Logger.takes, Event.entry, LogEntry.isWritable, Value.isWritable, Event.details,
            Event.textList, Json.accepts, Json.acceptsEntries, Json.isKey, htexts]

theorem Journal.outcome_of_no_rejections {α : Type} {l : Logger} {j : Journal α} {a : α}
    (h : j.outcome = .ok a) (hcalls : forall call, call ∈ j.calls -> call.isRejection = false) :
    (j.writtenBy l).outcome = .ok a :=
  Journal.outcome_writtenBy_eq_ok.mpr
    ⟨h, fun _e he => takes_of_not_isRejection (hcalls _ (List.mem_map_of_mem he))⟩

theorem Registry.Grows.no_rejections {r r' : Registry} {events : List Event}
    (h : Grows r events r') : forall e, e ∈ events -> e.entry.isRejection = false := by
  induction h with
  | refl =>
      exact fun e he => absurd he List.not_mem_nil
  | entered _ _ _ ih =>
      exact List.forall_mem_append.mpr ⟨ih, List.forall_mem_singleton.mpr rfl⟩
  | frozen _ ih =>
      exact List.forall_mem_append.mpr ⟨ih, List.forall_mem_singleton.mpr rfl⟩

theorem Site.buildRegistry_outcome (l : Logger) :
    (Site.buildRegistry.writtenBy l).outcome = .ok Site.registry := by
  have hall : (Registry.empty.registerAll Site.collections).2.outcome = .ok () := by
    have hsucceeds : Answer.Succeeds (Registry.empty.registerAll Site.collections).2.outcome :=
      Answer.succeeds_iff_isOk.mpr (by decide +kernel)
    rcases hsucceeds with ⟨_, h⟩
    exact h
  have hgrows := @Registry.registerAll_grows .empty rfl Site.collections
  have hregistered : ((Registry.empty.registerAll Site.collections).2.writtenBy l).outcome =
      .ok () := by
    refine Journal.outcome_of_no_rejections hall fun call hcall => ?_
    rcases List.mem_map.mp hcall with ⟨e, he, hcall⟩
    rw [← hcall]
    exact hgrows.no_rejections e he
  show (((Registry.empty.registerAll Site.collections).2 >>= fun _ =>
    (Registry.empty.registerAll Site.collections).1.freeze).writtenBy l).outcome = _
  simp only [Journal.writtenBy_bind, Journal.outcome_bind, hregistered, Answer.ok_bind]
  refine Journal.outcome_of_no_rejections (a := Site.registry) rfl fun call hcall => ?_
  rw [List.mem_singleton.mp hcall]
  rfl

/-!
## Several loads
-/

namespace ContentFolder

variable [YamlReader] {folder : ContentFolder} {r : Registry} {name : String}
  {names : List String}

/-- The report that the command gets on a collection while it tells its log of the load. -/
def reported (folder : ContentFolder) (r : Registry) (name : String) : Answer ValidationReport :=
  ((folder.load r name).writtenBy Command.logger).outcome

theorem load_of_reported {report : ValidationReport} (h : folder.reported r name = .ok report) :
    (folder.load r name).outcome = .ok report :=
  (Journal.outcome_writtenBy_eq_ok.mp h).left

/-- Where no document fails, nothing is rejected and the log takes everything. -/
theorem reported_of_load {report : ValidationReport}
    (h : (folder.load r name).outcome = .ok report) (hclean : report.failed = []) :
    folder.reported r name = .ok report := by
  rcases load_recounts h with ⟨harvest, first, second, hcalls, hfirst, hsecond, _hunreadable⟩
  have hrejections := (hfirst.append hsecond).rejections
  rw [← hcalls, ValidationReport.rejections, hclean] at hrejections
  refine Journal.outcome_of_no_rejections h fun call hcall => ?_
  exact Bool.eq_false_iff.mpr (List.filter_eq_nil_iff.mp hrejections.symm call hcall)

def reportOn (folder : ContentFolder) (r : Registry) (name : String) : ValidationReport :=
  (folder.reported r name).toOption.getD .empty

theorem reportOn_eq {report : ValidationReport} (h : folder.reported r name = .ok report) :
    folder.reportOn r name = report := by
  rw [reportOn, h]
  rfl

theorem reported_reportOn (h : Answer.Succeeds (folder.reported r name)) :
    folder.reported r name = .ok (folder.reportOn r name) := by
  rcases h with ⟨report, hreport⟩
  rw [reportOn_eq hreport]
  exact hreport

theorem reported_unknown (h : name ∉ r.names) :
    folder.reported r name = .error (.unknownCollection (.text name)) := by
  simp [reported, load, Registry.resolve_unknown h]

theorem loadEach_cons_outcome {rest : List String} :
    ((folder.loadEach r (name :: rest)).writtenBy Command.logger).outcome =
      folder.reported r name >>= fun report =>
        ((folder.loadEach r rest).writtenBy Command.logger).outcome >>= fun later =>
          .ok ((name, report) :: later) := by
  simp [loadEach, reported]

theorem loadEach_eq_ok {loaded : List (String × ValidationReport)} :
    ((folder.loadEach r names).writtenBy Command.logger).outcome = .ok loaded <->
      (forall name, name ∈ names -> Answer.Succeeds (folder.reported r name)) ∧
        loaded = names.map (fun name => (name, folder.reportOn r name)) := by
  induction names generalizing loaded with
  | nil =>
      rw [loadEach, List.map_nil]
      refine ⟨fun h => ⟨fun name hname => absurd hname List.not_mem_nil, ?_⟩, fun h => ?_⟩
      · exact (Answer.pure_eq_ok.mp h).symm
      · rw [h.right]
        rfl
  | cons name rest ih =>
      rw [loadEach_cons_outcome, Answer.bind_eq_ok, List.forall_mem_cons]
      constructor
      · intro h
        rcases h with ⟨report, hreport, h⟩
        rcases Answer.bind_eq_ok.mp h with ⟨later, hlater, h⟩
        injection h with h
        rcases ih.mp hlater with ⟨hrest, hlaterEq⟩
        refine ⟨⟨⟨report, hreport⟩, hrest⟩, ?_⟩
        rw [← h, hlaterEq, List.map_cons, reportOn_eq hreport]
      · intro h
        rcases h with ⟨⟨hname, hrest⟩, hloaded⟩
        refine ⟨_, reported_reportOn hname, Answer.bind_eq_ok.mpr ⟨_, ih.mpr ⟨hrest, rfl⟩, ?_⟩⟩
        rw [hloaded, List.map_cons]

theorem loadEach_eq_error {fault : Fault}
    (h : ((folder.loadEach r names).writtenBy Command.logger).outcome = .error fault) :
    exists name, name ∈ names ∧ folder.reported r name = .error fault := by
  induction names with
  | nil =>
      cases h
  | cons name rest ih =>
      rw [loadEach_cons_outcome] at h
      rcases Answer.bind_eq_error.mp h with h | ⟨report, _hreport, h⟩
      · exact ⟨name, List.mem_cons_self, h⟩
      rcases Answer.bind_eq_error.mp h with h | ⟨later, _hlater, h⟩
      · rcases ih h with ⟨other, hother, h⟩
        exact ⟨other, List.mem_cons_of_mem _ hother, h⟩
      · cases h

end ContentFolder

namespace Command

/-!
## Names among the arguments
-/

theorem parse_names (names : List String) {fuel : Nat}
    (hfuel : (names.flatMap fun name => ["-c", name]).length <= fuel) :
    parse Invocation.validateOptions false fuel (names.flatMap fun name => ["-c", name]) =
      .ok ⟨names.map (Given.mk "collection"), []⟩ := by
  induction names generalizing fuel with
  | nil =>
      cases fuel <;> rfl
  | cons name rest ih =>
      cases fuel with
      | zero =>
          cases hfuel
      | succ fuel =>
          have hrest : (rest.flatMap fun name => ["-c", name]).length <= fuel := by
            simp only [List.flatMap_cons, List.length_append, List.length_cons,
              List.length_nil] at hfuel
            omega
          show (do
            let taken ← takeOption Invocation.validateOptions ['-', 'c']
              (name :: rest.flatMap fun name => ["-c", name])
            let later ← parse Invocation.validateOptions false fuel taken.2
            return { later with options := taken.1 ++ later.options }) = _
          have htake : takeOption Invocation.validateOptions ['-', 'c']
              (name :: rest.flatMap fun name => ["-c", name]) =
              .ok ([⟨"collection", name⟩], rest.flatMap fun name => ["-c", name]) := rfl
          rw [htake]
          show (do
            let later ← parse Invocation.validateOptions false fuel
              (rest.flatMap fun name => ["-c", name])
            return { later with options := Given.mk "collection" name :: later.options }) = _
          rw [ih hrest]
          rfl

theorem read_validate (names : List String) (setting? : Option String) :
    Invocation.read ("validate" :: names.flatMap fun name => ["-c", name]) setting? =
      .ok ⟨(setting?.filter (fun s => !s.isEmpty)).getD Invocation.usualContentDir,
        Invocation.usualLogDir, false, .validate names⟩ := by
  have hnames :
      (Parsed.mk (names.map (Given.mk "collection")) []).all "collection" = names := by
    simp [Parsed.all, List.filter_map, Function.comp_def]
  have hrequest : Invocation.requestOf "validate" (names.flatMap fun name => ["-c", name]) =
      .ok (.validate names) := by
    show (do
      let p ← parse Invocation.validateOptions false _ (names.flatMap fun name => ["-c", name])
      Invocation.finished p.arguments (.validate (p.all "collection"))) = _
    rw [parse_names names (Nat.le_refl _)]
    exact congrArg (fun names => Except.ok (Request.validate names)) hnames
  show (do
    let request ← Invocation.requestOf "validate" (names.flatMap fun name => ["-c", name])
    return Invocation.mk _ Invocation.usualLogDir false request) = _
  rw [hrequest]
  rfl

/-!
## Counting invalid documents
-/

def invalidDocuments (report : ValidationReport) : Nat :=
  report.failed.length + report.unreadable.length

theorem invalidDocuments_eq_zero_iff {report : ValidationReport} :
    invalidDocuments report = 0 <-> report.failed = [] ∧ report.unreadable = [] := by
  rw [invalidDocuments, Nat.add_eq_zero_iff, List.length_eq_zero_iff, List.length_eq_zero_iff]

theorem invalidCount_eq {reports : List (String × ValidationReport)}
    (h : forall p, p ∈ reports -> p.2.Counted) :
    invalidCount reports = (reports.map (fun p => invalidDocuments p.2)).sum := by
  have hfold : forall n, reports.foldl
      (fun n p => n + p.2.documentsWithErrors + p.2.unreadable.length) n =
        n + (reports.map (fun p => invalidDocuments p.2)).sum := by
    induction reports with
    | nil =>
        exact fun n => rfl
    | cons p rest ih =>
        intro n
        rcases List.forall_mem_cons.mp h with ⟨hp, hrest⟩
        rw [List.foldl_cons, ih hrest, List.map_cons, List.sum_cons, invalidDocuments,
          hp.withErrors]
        omega
  rw [invalidCount, hfold, Nat.zero_add]

/-!
## Ends of a run
-/

variable {i : Invocation} {place : Option Place} {names : List String}

def selected (names : List String) : List String :=
  if names.isEmpty then Site.registry.names else names

theorem mem_firsts_selected {name : String} :
    name ∈ firsts id (selected names) <-> name ∈ selected names := by
  have hkeys : name ∈ (firsts id (selected names)).map id <-> name ∈ (selected names).map id :=
    mem_keys_firsts
  simpa using hkeys

def Invocation.folder (i : Invocation) (place : Option Place) : ContentFolder :=
  ⟨Location.ofText i.contentDir, place⟩

def IsThere (place : Option Place) : Prop :=
  exists p, place = some p ∧ p.tree.isFolder = true

def heading (folder : ContentFolder) : Output :=
  .out ("🔍 Validating content in " ++ folder.location.text ++ "\n\n")

theorem not_out_eventOutputs {events : List Event} {text : String} :
    .out text ∉ eventOutputs events := by
  intro h
  rcases List.mem_map.mp h with ⟨e, _he, h⟩
  cases h

section

variable [YamlReader]

def loadingOutputs (folder : ContentFolder) (names : List String) : List Output :=
  eventOutputs (Site.buildRegistry.writtenBy logger).events ++ [heading folder] ++
    eventOutputs ((folder.loadEach Site.registry (selected names)).writtenBy logger).events

/-- One report for each collection, however often it is named. -/
def reportsOn (folder : ContentFolder) (names : List String) :
    List (String × ValidationReport) :=
  (firsts id (selected names)).map (fun name => (name, folder.reportOn Site.registry name))

/-- What a run that validates can come to: the content folder is not one or is not there, some
collection cannot be loaded, because it is unknown or its files stop the run, or there is a
report on each collection. -/
inductive Ends (i : Invocation) (place : Option Place) (names : List String) :
    Answer Session -> Prop
  | misused {contents : List UInt8} : place.map Place.tree = some (.file contents) ->
      Ends i place names (.ok (misused (.notAFolder i.contentDir)))
  | noFolder : place = none ->
      Ends i place names (.ok (refused (eventOutputs (Site.buildRegistry.writtenBy logger).events)
        ("Content directory not found: " ++ (i.folder place).location.text)))
  | unknown {name : String} {value : Value} : IsThere place -> name ∈ selected names ->
      (i.folder place).reported Site.registry name = .error (.unknownCollection value) ->
      Ends i place names (.ok (failed (loadingOutputs (i.folder place) names)
        (.unknownCollection value) "validate" (ofCollection value) i.isVerbose))
  | halted {name : String} {fault : Fault} : IsThere place -> name ∈ selected names ->
      (i.folder place).reported Site.registry name = .error fault ->
      Ends i place names (.error fault)
  | healthy : IsThere place ->
      (forall name, name ∈ selected names ->
        Answer.Succeeds ((i.folder place).reported Site.registry name)) ->
      invalidCount (reportsOn (i.folder place) names) = 0 ->
      Ends i place names (.ok ⟨loadingOutputs (i.folder place) names ++
        reportOutputs (reportsOn (i.folder place) names) i.isVerbose ++
        [.out "\n✅ All documents valid\n"], 0⟩)
  | unhealthy {count : Nat} : IsThere place ->
      (forall name, name ∈ selected names ->
        Answer.Succeeds ((i.folder place).reported Site.registry name)) ->
      invalidCount (reportsOn (i.folder place) names) = count -> count ≠ 0 ->
      Ends i place names (.ok (refused (loadingOutputs (i.folder place) names ++
          reportOutputs (reportsOn (i.folder place) names) i.isVerbose)
        ("Found " ++ toString count ++ " invalid document(s)")))

theorem runValidate_ends {i : Invocation} {place : Option Place} {names : List String}
    (hthere : IsThere place) :
    Ends i place names (runValidate (eventOutputs (Site.buildRegistry.writtenBy logger).events)
      Site.registry (i.folder place) names i.isVerbose) := by
  have hisThere : ((i.folder place).place.map (fun p => p.tree.isFolder)).getD false = true := by
    rcases hthere with ⟨p, hplace, hfolder⟩
    rw [Invocation.folder, hplace]
    exact hfolder
  have hselected : (if names.isEmpty = true then Site.registry.names else names) =
      selected names := rfl
  cases hwork :
      (((i.folder place).loadEach Site.registry (selected names)).writtenBy logger).outcome with
  | error fault =>
      rcases ContentFolder.loadEach_eq_error hwork with ⟨name, hname, hload⟩
      simp only [runValidate, hisThere, hselected, hwork]
      cases fault with
      | unknownCollection value =>
          exact .unknown hthere hname hload
      | _ =>
          exact .halted hthere hname hload
  | ok loaded =>
      rcases ContentFolder.loadEach_eq_ok.mp hwork with ⟨hall, hloaded⟩
      have hreports : Entries.ofList loaded = reportsOn (i.folder place) names := by
        rw [hloaded]
        exact ofList_keyed _ _
      simp only [runValidate, hisThere, hselected, hwork, hreports]
      cases hcount : invalidCount (reportsOn (i.folder place) names) with
      | zero =>
          exact .healthy hthere hall hcount
      | succ n =>
          exact .unhealthy hthere hall hcount (Nat.succ_ne_zero n)

theorem runRequest_validate {i : Invocation} {names : List String}
    (h : i.request = .validate names) (place : Option Place) :
    runRequest i place =
      runValidate (eventOutputs (Site.buildRegistry.writtenBy logger).events) Site.registry
        (i.folder place) names i.isVerbose := by
  simp only [runRequest, Site.buildRegistry_outcome, h]
  rfl

theorem run_ends {i : Invocation} {names : List String} (h : i.request = .validate names)
    (place : Option Place) : Ends i place names (run i place) := by
  cases place with
  | none =>
      show Ends i none names (runRequest i none)
      rw [runRequest_validate h]
      exact .noFolder rfl
  | some p =>
      cases htree : p.tree with
      | file contents =>
          have hfile : (some p).map Place.tree = some (.file contents) := congrArg some htree
          rw [run, hfile]
          exact .misused hfile
      | folder entries =>
          have hfolder : (some p).map Place.tree = some (.folder entries) := congrArg some htree
          have hrun : run i (some p) = runRequest i (some p) := by
            rw [run, hfolder]
          rw [hrun, runRequest_validate h]
          exact runValidate_ends ⟨p, rfl, by rw [htree]; rfl⟩

/-!
## What the ends say
-/

theorem invalidCount_reportsOn {folder : ContentFolder}
    (hall : forall name, name ∈ selected names ->
      Answer.Succeeds (folder.reported Site.registry name)) :
    invalidCount (reportsOn folder names) = (selected names).toFinset.sum
      (fun name => invalidDocuments (folder.reportOn Site.registry name)) := by
  have hcounted : forall p, p ∈ reportsOn folder names -> p.2.Counted := by
    intro p hp
    rcases List.mem_map.mp hp with ⟨name, hname, hp⟩
    rw [← hp]
    exact ContentFolder.counted_of_load (ContentFolder.load_of_reported
      (ContentFolder.reported_reportOn (hall name (mem_firsts_selected.mp hname))))
  have hdistinct : (firsts id (selected names)).toFinset = (selected names).toFinset := by
    ext name
    rw [List.mem_toFinset, List.mem_toFinset, mem_firsts_selected]
  have hnodup : (firsts id (selected names)).Nodup := by
    have hkeys := nodup_keys_firsts id (selected names)
    rwa [List.map_id] at hkeys
  rw [invalidCount_eq hcounted, reportsOn, List.map_map, ← hdistinct, List.sum_toFinset _ hnodup]
  rfl

theorem invalidCount_eq_zero_iff {folder : ContentFolder}
    (hall : forall name, name ∈ selected names ->
      Answer.Succeeds (folder.reported Site.registry name)) :
    invalidCount (reportsOn folder names) = 0 <-> forall name, name ∈ selected names ->
      (folder.reportOn Site.registry name).failed = [] ∧
        (folder.reportOn Site.registry name).unreadable = [] := by
  rw [invalidCount_reportsOn hall, Finset.sum_eq_zero_iff]
  simp only [List.mem_toFinset, invalidDocuments_eq_zero_iff]

theorem Ends.of_reports {answer : Answer Session} (h : Ends i place names answer)
    (hthere : IsThere place)
    (hall : forall name, name ∈ selected names ->
      Answer.Succeeds ((i.folder place).reported Site.registry name)) :
    exists outputs,
      (invalidCount (reportsOn (i.folder place) names) = 0 ∧ answer = .ok ⟨outputs, 0⟩) ∨
        (invalidCount (reportsOn (i.folder place) names) ≠ 0 ∧
          answer = .ok (refused outputs ("Found " ++
            toString (invalidCount (reportsOn (i.folder place) names)) ++
              " invalid document(s)"))) := by
  rcases hthere with ⟨p, hplace, hfolder⟩
  have hloads {name : String} {fault : Fault} (hname : name ∈ selected names) :
      (i.folder place).reported Site.registry name ≠ .error fault := by
    intro herror
    have hsucceeds := hall name hname
    rw [herror] at hsucceeds
    exact Answer.not_succeeds_error fault hsucceeds
  cases h with
  | misused hfile =>
      rw [hplace] at hfile
      injection hfile with hfile
      rw [hfile] at hfolder
      cases hfolder
  | noFolder hnone =>
      rw [hplace] at hnone
      cases hnone
  | unknown _hthere hname hload =>
      exact absurd hload (hloads hname)
  | halted _hthere hname hload =>
      exact absurd hload (hloads hname)
  | healthy _hthere _hall hcount =>
      exact ⟨_, Or.inl ⟨hcount, rfl⟩⟩
  | unhealthy _hthere _hall hcount hne =>
      subst hcount
      exact ⟨_, Or.inr ⟨hne, rfl⟩⟩

/-- The program ends well exactly when the folder is there and nothing is wrong with any selected
collection. -/
theorem exitStatus_eq_zero_iff {answer : Answer Session} (h : Ends i place names answer) :
    exitStatus answer = 0 <-> IsThere place ∧ forall name, name ∈ selected names ->
      name ∈ Site.registry.names ∧ exists report,
        ((i.folder place).load Site.registry name).outcome = .ok report ∧
          report.failed = [] ∧ report.unreadable = [] := by
  constructor
  · intro hzero
    cases h with
    | healthy hthere hall hcount =>
        refine ⟨hthere, fun name hname => ?_⟩
        have hload := ContentFolder.load_of_reported
          (ContentFolder.reported_reportOn (hall name hname))
        rcases ContentFolder.accounts_of_load hload with ⟨d, _found, hd, _⟩
        exact ⟨Registry.mem_names_of_resolve hd, _, hload,
          (invalidCount_eq_zero_iff hall).mp hcount name hname⟩
    | _ =>
        cases hzero
  · intro hwell
    rcases hwell with ⟨hthere, hclean⟩
    have hreported {name : String} {report : ValidationReport}
        (h : ((i.folder place).load Site.registry name).outcome = .ok report ∧
          report.failed = [] ∧ report.unreadable = []) :
        (i.folder place).reported Site.registry name = .ok report :=
      ContentFolder.reported_of_load h.left h.right.left
    have hall : forall name, name ∈ selected names ->
        Answer.Succeeds ((i.folder place).reported Site.registry name) := by
      intro name hname
      rcases (hclean name hname).right with ⟨report, hreport⟩
      exact ⟨report, hreported hreport⟩
    rcases h.of_reports hthere hall with ⟨outputs, ⟨_hcount, hanswer⟩ | ⟨hcount, _hanswer⟩⟩
    · rw [hanswer]
      rfl
    · refine absurd ((invalidCount_eq_zero_iff hall).mpr fun name hname => ?_) hcount
      rcases (hclean name hname).right with ⟨report, hreport⟩
      rw [ContentFolder.reportOn_eq (hreported hreport)]
      exact hreport.right

theorem out_mem_loadingOutputs {folder : ContentFolder} {text : String}
    (h : .out text ∈ loadingOutputs folder names) : .out text = heading folder := by
  rcases List.mem_append.mp h with h | h
  · rcases List.mem_append.mp h with h | h
    · exact absurd h not_out_eventOutputs
    · exact List.mem_singleton.mp h
  · exact absurd h not_out_eventOutputs

theorem unknown_ends {answer : Answer Session} (h : Ends i place names answer) {name : String}
    (hname : name ∈ selected names) (hunknown : name ∉ Site.registry.names)
    (hplace : forall p, place = some p -> p.tree.isFolder = true) :
    exitStatus answer = 1 ∧ forall session, answer = .ok session ->
      forall text, .out text ∈ session.outputs -> .out text = heading (i.folder place) := by
  have hfails : ¬ Answer.Succeeds ((i.folder place).reported Site.registry name) := by
    rw [ContentFolder.reported_unknown hunknown]
    exact Answer.not_succeeds_error _
  cases h with
  | misused hfile =>
      rcases Option.map_eq_some_iff.mp hfile with ⟨p, hp, htree⟩
      have hfolder := hplace p hp
      rw [htree] at hfolder
      cases hfolder
  | noFolder _hplace =>
      refine ⟨rfl, fun session hsession text htext => ?_⟩
      injection hsession with hsession
      rw [← hsession] at htext
      rcases List.mem_append.mp htext with htext | htext
      · exact absurd htext not_out_eventOutputs
      · cases List.mem_singleton.mp htext
  | unknown _hthere _hname _hload =>
      refine ⟨rfl, fun session hsession text htext => ?_⟩
      injection hsession with hsession
      rw [← hsession] at htext
      rcases List.mem_append.mp htext with htext | htext
      · rcases List.mem_append.mp htext with htext | htext
        · exact out_mem_loadingOutputs htext
        · rcases List.mem_map.mp htext with ⟨r, _hr, htext⟩
          cases htext
      · cases List.mem_singleton.mp htext
  | halted _hthere _hname _hload =>
      refine ⟨rfl, fun session hsession => ?_⟩
      cases hsession
  | healthy _hthere hall _hcount =>
      exact absurd (hall name hname) hfails
  | unhealthy _hthere hall _hcount _hne =>
      exact absurd (hall name hname) hfails

theorem unhealthy_ends {answer : Answer Session} (h : Ends i place names answer)
    {reports : String -> ValidationReport} (hthere : IsThere place)
    (hloads : forall name, name ∈ selected names ->
      (i.folder place).reported Site.registry name = .ok (reports name))
    (hunhealthy : exists name, name ∈ selected names ∧ (reports name).isHealthy = false) :
    exists outputs, answer = .ok (refused outputs ("Found " ++ toString
      ((selected names).toFinset.sum fun name =>
        (reports name).failed.length + (reports name).unreadable.length) ++
      " invalid document(s)")) := by
  have hall : forall name, name ∈ selected names ->
      Answer.Succeeds ((i.folder place).reported Site.registry name) :=
    fun name hname => ⟨_, hloads name hname⟩
  have hreports : forall name, name ∈ selected names ->
      (i.folder place).reportOn Site.registry name = reports name :=
    fun name hname => ContentFolder.reportOn_eq (hloads name hname)
  have hcount : invalidCount (reportsOn (i.folder place) names) =
      (selected names).toFinset.sum fun name =>
        (reports name).failed.length + (reports name).unreadable.length := by
    rw [invalidCount_reportsOn hall]
    refine Finset.sum_congr rfl fun name hname => ?_
    rw [hreports name (List.mem_toFinset.mp hname)]
    rfl
  rcases h.of_reports hthere hall with ⟨outputs, ⟨hzero, _hanswer⟩ | ⟨_hne, hanswer⟩⟩
  · rcases hunhealthy with ⟨name, hname, hill⟩
    have hclean := (invalidCount_eq_zero_iff hall).mp hzero name hname
    rw [hreports name hname] at hclean
    have hcounted := ContentFolder.counted_of_load
      (ContentFolder.load_of_reported (hloads name hname))
    rw [hcounted.isHealthy_iff.mpr hclean] at hill
    cases hill
  · rw [hcount] at hanswer
    exact ⟨outputs, hanswer⟩

end

/-!
## The verdict
-/

def blotted : Place :=
  .top (.folder [("about.yml", .file [0xff])])

def blottedFolder : ContentFolder :=
  ⟨Location.ofText "content", some blotted⟩

theorem discoverOwned_blotted :
    blottedFolder.discoverOwned Site.registry "about" =
        .ok [⟨"about", ⟨["about.yml"], [0xff]⟩⟩] ∧
      blottedFolder.discoverOwned Site.registry "speaking" = .ok [] := by
  have habout : Site.registry.resolve "about" =
      .ok (Site.collection "about" .page [.files "about.yml"] Site.aboutFields) := by
    with_unfolding_all rfl
  have hspeaking : Site.registry.resolve "speaking" =
      .ok (Site.collection "speaking" .page [.files "speaking.yml"] Site.speakingFields) := by
    with_unfolding_all rfl
  have haboutSources : Site.registry.resolveSources "about" = .ok [("about", "about.yml")] :=
    (Registry.resolveSources_of_expansion (Registry.expansion_of_resolve habout)).left
  have hspeakingSources : Site.registry.resolveSources "speaking" =
      .ok [("speaking", "speaking.yml")] :=
    (Registry.resolveSources_of_expansion (Registry.expansion_of_resolve hspeaking)).left
  have haboutSteps : Glob.read "about.yml" = .ok [.exactly "about.yml"] :=
    Answer.eq_ok_of_toOption (by decide +kernel)
  have hspeakingSteps : Glob.read "speaking.yml" = .ok [.exactly "speaking.yml"] :=
    Answer.eq_ok_of_toOption (by decide +kernel)
  have haboutFiles : Glob.files "about.yml" (some blotted) = .ok [⟨["about.yml"], [0xff]⟩] :=
    Glob.files_of_sorted haboutSteps rfl (by decide +kernel)
  have hspeakingFiles : Glob.files "speaking.yml" (some blotted) = .ok [] :=
    Glob.files_of_sorted hspeakingSteps rfl (by decide +kernel)
  simp [ContentFolder.discoverOwned, ContentFolder.addFiles, blottedFolder, haboutSources,
    hspeakingSources, haboutFiles, hspeakingFiles]

theorem load_blotted :
    (exists report, (blottedFolder.load Site.registry "about").outcome = .ok report ∧
      report.failed.length = 0 ∧ report.unreadable.length = 1) ∧
    exists report, (blottedFolder.load Site.registry "speaking").outcome = .ok report ∧
      report.failed.length = 0 ∧ report.unreadable.length = 0 := by
  rcases discoverOwned_blotted with ⟨habout, hspeaking⟩
  have haboutCounts : (blottedFolder.load Site.registry "about").outcome.toOption.map
      (fun report => (report.failed.length, report.unreadable.length)) = some (0, 1) := by
    rw [ContentFolder.load_outcome, habout]
    decide +kernel
  have hspeakingCounts : (blottedFolder.load Site.registry "speaking").outcome.toOption.map
      (fun report => (report.failed.length, report.unreadable.length)) = some (0, 0) := by
    rw [ContentFolder.load_outcome, hspeaking]
    decide +kernel
  rcases Option.map_eq_some_iff.mp haboutCounts with ⟨about, habout, haboutCounts⟩
  rcases Option.map_eq_some_iff.mp hspeakingCounts with ⟨speaking, hspeaking, hspeakingCounts⟩
  exact ⟨⟨about, Answer.eq_ok_of_toOption habout, Prod.ext_iff.mp haboutCounts⟩,
    speaking, Answer.eq_ok_of_toOption hspeaking, Prod.ext_iff.mp hspeakingCounts⟩

/-- Validation ends with status 0 exactly when the content folder is there, every selected
collection is registered, and its load yields a report in which no document has failed and none
is unreadable.  If the command gets all reports and some are not healthy, the number of invalid
documents that is announced is the sum over the selected collections, each taken once, of
their failed and their unreadable documents.  A name that is not registered ends the run with
status 1, and but for the heading nothing is printed. -/
theorem validate_verdict [YamlReader] (h : i.request = .validate names) (place : Option Place) :
    (exitStatus (run i place) = 0 <-> IsThere place ∧ forall name, name ∈ selected names ->
      name ∈ Site.registry.names ∧ exists report,
        ((i.folder place).load Site.registry name).outcome = .ok report ∧
          report.failed = [] ∧ report.unreadable = []) ∧
    (forall reports : String -> ValidationReport, IsThere place ->
      (forall name, name ∈ selected names ->
        (i.folder place).reported Site.registry name = .ok (reports name)) ->
      (exists name, name ∈ selected names ∧ (reports name).isHealthy = false) ->
      exists outputs, run i place = .ok (refused outputs ("Found " ++ toString
        ((selected names).toFinset.sum fun name =>
          (reports name).failed.length + (reports name).unreadable.length) ++
        " invalid document(s)"))) ∧
    (forall name, name ∈ selected names -> name ∉ Site.registry.names ->
      (forall p, place = some p -> p.tree.isFolder = true) ->
      exitStatus (run i place) = 1 ∧ forall session, run i place = .ok session ->
        forall text, .out text ∈ session.outputs -> .out text = heading (i.folder place)) := by
  have hends := run_ends h place
  exact ⟨exitStatus_eq_zero_iff hends, fun _reports hthere => unhealthy_ends hends hthere,
    fun _name hname => unknown_ends hends hname⟩

theorem about_verdict :
    exists i j k,
      Invocation.read ["validate", "-c", "about", "-c", "about"] none = .ok i ∧
      (exists outputs, run i (some blotted) =
        .ok (refused outputs "Found 1 invalid document(s)")) ∧
      Invocation.read ["validate", "-c", "speaking"] none = .ok j ∧
      exitStatus (run j (some blotted)) = 0 ∧
      Invocation.read ["validate", "-c", "about", "-c", "nothing"] none = .ok k ∧
      exitStatus (run k (some blotted)) = 1 := by
  have hthere : IsThere (some blotted) := ⟨blotted, rfl, rfl⟩
  rcases load_blotted with ⟨⟨about, habout, hnoneFailed, honeUnreadable⟩,
    speaking, hspeaking, hspeakingFailed, hspeakingUnreadable⟩
  have hunhealthy : about.isHealthy = false := by
    refine Bool.eq_false_iff.mpr fun hhealthy => ?_
    have hclean := (ContentFolder.counted_of_load habout).isHealthy_iff.mp hhealthy
    rw [hclean.right] at honeUnreadable
    cases honeUnreadable
  refine ⟨_, _, _, read_validate ["about", "about"] none, ?_, read_validate ["speaking"] none,
    ?_, read_validate ["about", "nothing"] none, ?_⟩
  · have hsum : (selected ["about", "about"]).toFinset.sum
        (fun _name => about.failed.length + about.unreadable.length) = 1 := by
      show ({"about"} : Finset String).sum _ = 1
      rw [Finset.sum_singleton, hnoneFailed, honeUnreadable]
    have hmessage : "Found 1 invalid document(s)" = "Found " ++ toString
        ((selected ["about", "about"]).toFinset.sum fun _name =>
          about.failed.length + about.unreadable.length) ++ " invalid document(s)" := by
      rw [hsum]
      rfl
    rw [hmessage]
    refine (validate_verdict rfl (some blotted)).right.left (fun _name => about) hthere
      (fun name hname => ?_) ⟨"about", List.mem_cons_self, hunhealthy⟩
    rw [List.eq_of_mem_replicate (n := 2) hname]
    exact ContentFolder.reported_of_load habout (List.length_eq_zero_iff.mp hnoneFailed)
  · refine (validate_verdict rfl (some blotted)).left.mpr ⟨hthere, fun name hname => ?_⟩
    rw [List.mem_singleton.mp hname]
    exact ⟨by decide +kernel, speaking, hspeaking, List.length_eq_zero_iff.mp hspeakingFailed,
      List.length_eq_zero_iff.mp hspeakingUnreadable⟩
  · refine ((validate_verdict rfl (some blotted)).right.right "nothing"
      (List.mem_cons_of_mem _ List.mem_cons_self) (by decide +kernel) ?_).left
    intro p hp
    injection hp with hp
    rw [← hp]
    rfl

end Command
end ContentSchema
