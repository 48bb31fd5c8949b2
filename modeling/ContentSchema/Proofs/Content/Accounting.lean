import ContentSchema.Proofs.Collection.Expansion
import ContentSchema.Proofs.Content.Harvest
import ContentSchema.Proofs.Validation.Reports
import ContentSchema.Yaml.Document

/-!
# Accounting for files

A report on a collection accounts for each found file once: with the result that its owner has
for its record, or with the reason why it has no record.  Only where no file is found, the
report is about the included collections.
-/

namespace ContentSchema
namespace ContentFolder

/-!
## Steps of loading
-/

@[simp] theorem validateBatches_outcome {r : Registry} {report : ValidationReport}
    {batch : String × List (String × Value)} {rest : List (String × List (String × Value))} :
    (validateBatches r report (batch :: rest)).outcome =
      (r.validateBatch batch.1 batch.2).outcome >>= fun checked =>
        (validateBatches r (report.merge checked) rest).outcome := by
  simp [validateBatches]

@[simp] theorem reportIncludes_outcome {r : Registry} {report : ValidationReport} {name : String}
    {rest : List String} :
    (reportIncludes r report (name :: rest)).outcome =
      r.expandSources name >>= fun patterns =>
        (reportIncludes r (report.add ("include:" ++ name) ⟨.null, [missingInclude name patterns]⟩)
          rest).outcome := by
  simp [reportIncludes]

theorem validateBatches_eq_ok {r : Registry} {batches : List (String × List (String × Value))}
    {before after : ValidationReport} (h : (validateBatches r before batches).outcome = .ok after) :
    after.unreadable = before.unreadable ∧
      exists results, after.results = before.results ++ results ∧
        List.Forall₂ (fun e d => d.document = e.2.1 ∧ r.validate e.1 e.2.2 = .ok d.result)
          (batches.flatMap (fun batch => batch.2.map (fun document => (batch.1, document))))
          results := by
  induction batches generalizing before with
  | nil =>
      rw [← Answer.pure_eq_ok.mp h]
      exact ⟨rfl, [], (List.append_nil _).symm, List.Forall₂.nil⟩
  | cons batch rest ih =>
      rw [validateBatches_outcome] at h
      rcases Answer.bind_eq_ok.mp h with ⟨checked, hchecked, h⟩
      rcases Registry.validateBatch_eq_ok hchecked with ⟨hnone, hbatch⟩
      rcases ih h with ⟨hunreadable, results, hresults, hrest⟩
      refine ⟨?_, checked.results ++ results, ?_, ?_⟩
      · rw [hunreadable, ValidationReport.unreadable_merge, hnone, List.append_nil]
      · rw [hresults, ValidationReport.results_merge, List.append_assoc]
      · rw [List.flatMap_cons]
        exact List.rel_append (List.forall₂_map_left_iff.mpr hbatch) hrest

def includeResult (name : String) (patterns : List String) : DocumentResult :=
  ⟨"include:" ++ name, ⟨.null, [missingInclude name patterns]⟩⟩

theorem reportIncludes_eq_ok {r : Registry} {includes : List String}
    {before after : ValidationReport}
    (h : (reportIncludes r before includes).outcome = .ok after) :
    after.unreadable = before.unreadable ∧
      exists results, after.results = before.results ++ results ∧
        List.Forall₂ (fun name d => exists patterns, r.expandSources name = .ok patterns ∧
          d = includeResult name patterns) includes results := by
  induction includes generalizing before with
  | nil =>
      rw [← Answer.pure_eq_ok.mp h]
      exact ⟨rfl, [], (List.append_nil _).symm, List.Forall₂.nil⟩
  | cons name rest ih =>
      rw [reportIncludes_outcome] at h
      rcases Answer.bind_eq_ok.mp h with ⟨patterns, hpatterns, h⟩
      rcases ih h with ⟨hunreadable, results, hresults, hrest⟩
      refine ⟨hunreadable, includeResult name patterns :: results, ?_,
        List.Forall₂.cons ⟨patterns, hpatterns, rfl⟩ hrest⟩
      rw [hresults, ValidationReport.add, List.append_assoc]
      rfl

theorem load_outcome [YamlReader] (folder : ContentFolder) (r : Registry) (name : String) :
    (folder.load r name).outcome = do
      let d ← r.resolve name
      let found ← folder.discoverOwned r name
      let h ← (folder.harvest r ⟨[], []⟩ found).outcome
      let checked ← (validateBatches r { ValidationReport.empty with unreadable := h.unreadable }
        h.batches).outcome
      if checked.results.isEmpty && checked.unreadable.isEmpty then
        (reportIncludes r checked d.includes).outcome
      else return checked := by
  simp [load, apply_ite Journal.outcome]

/-!
## Counts

Whatever a load adds to a report, the counters of the report go along.
-/

theorem counted_validateBatches {r : Registry}
    {batches : List (String × List (String × Value))} {before after : ValidationReport}
    (hbefore : before.Counted) (h : (validateBatches r before batches).outcome = .ok after) :
    after.Counted := by
  induction batches generalizing before with
  | nil =>
      rw [← Answer.pure_eq_ok.mp h]
      exact hbefore
  | cons batch rest ih =>
      rw [validateBatches_outcome] at h
      rcases Answer.bind_eq_ok.mp h with ⟨checked, _hchecked, hrest⟩
      exact ih (hbefore.merge checked) hrest

theorem counted_reportIncludes {r : Registry} {includes : List String}
    {before after : ValidationReport} (hbefore : before.Counted)
    (h : (reportIncludes r before includes).outcome = .ok after) : after.Counted := by
  induction includes generalizing before with
  | nil =>
      rw [← Answer.pure_eq_ok.mp h]
      exact hbefore
  | cons name rest ih =>
      rw [reportIncludes_outcome] at h
      rcases Answer.bind_eq_ok.mp h with ⟨patterns, _hpatterns, h⟩
      exact ih (hbefore.add _ _) h

theorem counted_of_load [YamlReader] {folder : ContentFolder} {r : Registry} {name : String}
    {report : ValidationReport} (h : (folder.load r name).outcome = .ok report) :
    report.Counted := by
  simp only [load_outcome, Answer.bind_eq_ok] at h
  rcases h with ⟨d, _hd, found, _hfound, harvest, _hharvest, checked, hchecked, h⟩
  have hcounted := counted_validateBatches
    (ValidationReport.counted_of_no_results harvest.unreadable) hchecked
  split at h
  · exact counted_reportIncludes hcounted h
  · rw [← Answer.pure_eq_ok.mp h]
    exact hcounted

/-!
## Accounts
-/

section

variable [YamlReader]

/-- The verdict that a found file earns: what its owner has to say about its record, or the
reason why there is none. -/
inductive Earns (folder : ContentFolder) (r : Registry) (f : Found) : Verdict -> Prop
  | checked {data : List (Value × Value)} {result : ValidationResult} :
      folder.reading r f = .ok (.record data) ->
      r.validate f.owner (.mapping data) = .ok result -> Earns folder r f (.checked result)
  | unreadable {reason : String} :
      folder.reading r f = .ok (.unreadable reason) -> Earns folder r f (.unreadable reason)

/-- A report accounts for found files: all of them were read, there is one result for each
record, group by group of their owners, and a reason for each of the others. -/
structure Accounts (folder : ContentFolder) (r : Registry) (found : List Found)
    (report : ValidationReport) : Prop where
  read : forall f, f ∈ found -> folder.reading r f = .ok (folder.readingOf r f)
  results : List.Forall₂ (fun e d => d.document = documentOf e.1 ∧
      r.validate e.1.owner (.mapping e.2) = .ok d.result)
    (inGroups (fun e => e.1.owner) (folder.records r found)) report.results
  unreadable : report.unreadable = folder.failures r found

variable {folder : ContentFolder} {r : Registry} {found : List Found} {report : ValidationReport}

theorem Earns.unique {f : Found} {v w : Verdict} (hv : folder.Earns r f v)
    (hw : folder.Earns r f w) : v = w := by
  cases hv with
  | checked hread hvalidate =>
      cases hw with
      | checked hread' hvalidate' =>
          rw [hread] at hread'
          injection hread' with hrecord
          injection hrecord with hdata
          rw [← hdata, hvalidate] at hvalidate'
          injection hvalidate' with hresult
          rw [hresult]
      | unreadable hread' =>
          rw [hread] at hread'
          cases hread'
  | unreadable hread =>
      cases hw with
      | checked hread' _ =>
          rw [hread] at hread'
          cases hread'
      | unreadable hread' =>
          rw [hread] at hread'
          injection hread' with hreason
          injection hreason with hreason
          rw [hreason]

@[simp] theorem mem_records {e : Found × List (Value × Value)} :
    e ∈ folder.records r found <-> e.1 ∈ found ∧ folder.readingOf r e.1 = .record e.2 := by
  rw [records, List.mem_filterMap]
  constructor
  · intro h
    rcases h with ⟨f, hf, he⟩
    cases hreading : folder.readingOf r f with
    | record data =>
        simp only [hreading, Option.some.injEq] at he
        rw [← he]
        exact ⟨hf, hreading⟩
    | unreadable reason =>
        simp only [hreading, reduceCtorEq] at he
  · intro h
    exact ⟨e.1, h.left, by rw [h.right]⟩

@[simp] theorem mem_failures {u : String × String} :
    u ∈ folder.failures r found <->
      exists f, f ∈ found ∧ folder.readingOf r f = .unreadable u.2 ∧ documentOf f = u.1 := by
  rw [failures, List.mem_filterMap]
  constructor
  · intro h
    rcases h with ⟨f, hf, hu⟩
    cases hreading : folder.readingOf r f with
    | record data =>
        simp only [hreading, reduceCtorEq] at hu
    | unreadable reason =>
        simp only [hreading, Option.some.injEq] at hu
        rw [← hu]
        exact ⟨f, hf, hreading, rfl⟩
  · intro h
    rcases h with ⟨f, hf, hreading, hdocument⟩
    refine ⟨f, hf, ?_⟩
    rw [hreading, hdocument]

theorem records_failures_perm (folder : ContentFolder) (r : Registry) (found : List Found) :
    ((folder.records r found).map (fun e => documentOf e.1) ++
      (folder.failures r found).map Prod.fst).Perm (found.map documentOf) := by
  induction found with
  | nil =>
      exact List.Perm.refl _
  | cons f rest ih =>
      rw [records, failures, List.filterMap_cons, List.filterMap_cons, List.map_cons]
      cases folder.readingOf r f with
      | record data => exact ih.cons _
      | unreadable reason => exact List.perm_middle.trans (ih.cons _)

namespace Accounts

theorem documents_perm (h : folder.Accounts r found report) :
    (report.entries.map Prod.fst).Perm (found.map documentOf) := by
  have hresults : report.results.map DocumentResult.document =
      (inGroups (fun e => e.1.owner) (folder.records r found)).map (fun e => documentOf e.1) := by
    rw [← List.forall₂_eq_eq_eq, List.forall₂_map_left_iff, List.forall₂_map_right_iff]
    exact (h.results.imp (fun _e _d hed => hed.left)).flip
  rw [ValidationReport.documents_entries, hresults, h.unreadable]
  exact (((inGroups_perm _ _).map _).append_right _).trans (records_failures_perm folder r found)

theorem exists_entry (h : folder.Accounts r found report) {f : Found} (hf : f ∈ found) :
    exists v, folder.Earns r f v ∧ (documentOf f, v) ∈ report.entries := by
  have hread := h.read f hf
  cases hreading : folder.readingOf r f with
  | record data =>
      rw [hreading] at hread
      have hrecord : (f, data) ∈ inGroups (fun e => e.1.owner) (folder.records r found) :=
        (inGroups_perm _ _).mem_iff.mpr (mem_records.mpr ⟨hf, hreading⟩)
      rcases forall₂_of_mem h.results hrecord with ⟨d, hd, hdocument, hvalidate⟩
      refine ⟨.checked d.result, .checked hread hvalidate, ?_⟩
      rw [← hdocument]
      exact List.mem_append_left _ (List.mem_map_of_mem hd)
  | unreadable reason =>
      rw [hreading] at hread
      have hfailure : (documentOf f, reason) ∈ report.unreadable := by
        rw [h.unreadable]
        exact mem_failures.mpr ⟨f, hf, hreading, rfl⟩
      exact ⟨.unreadable reason, .unreadable hread,
        List.mem_append_right _ (List.mem_map_of_mem hfailure)⟩

theorem verdicts_eq (h : folder.Accounts r found report) (hnames : (found.map documentOf).Nodup)
    {f : Found} (hf : f ∈ found) :
    exists v, folder.Earns r f v ∧ report.verdicts (documentOf f) = [v] := by
  rcases h.exists_entry hf with ⟨v, hv, hentry⟩
  exact ⟨v, hv,
    ValidationReport.verdicts_of_nodup (h.documents_perm.nodup_iff.mpr hnames) hentry⟩

theorem eq_nil_iff (h : folder.Accounts r found report) :
    found = [] <-> report.results = [] ∧ report.unreadable = [] := by
  have hlength := h.documents_perm.length_eq
  simp only [List.length_map, ValidationReport.entries, List.length_append] at hlength
  simp only [← List.length_eq_zero_iff]
  omega

end Accounts

/-!
## Reports on collections
-/

/-- A load that comes to an end accounts for the found files, or for the included collections
if no file is found. -/
theorem accounts_of_load {name : String} (h : (folder.load r name).outcome = .ok report) :
    exists d found, r.resolve name = .ok d ∧ folder.discoverOwned r name = .ok found ∧
      (found ≠ [] -> folder.Accounts r found report) ∧
      (found = [] -> report.unreadable = [] ∧
        List.Forall₂ (fun included result => exists patterns,
          r.expandSources included = .ok patterns ∧ result = includeResult included patterns)
          d.includes report.results) := by
  simp only [load_outcome, Answer.bind_eq_ok] at h
  rcases h with ⟨d, hd, found, hfound, harvest, hharvest, checked, hchecked, h⟩
  rcases harvest_eq_ok.mp hharvest with ⟨hread, hharvest⟩
  rw [hharvest] at hchecked
  rcases validateBatches_eq_ok hchecked with ⟨hunreadable, results, hresults, hjudged⟩
  have haccounts : folder.Accounts r found checked := by
    refine ⟨hread, ?_, hunreadable⟩
    rw [batchesOf, flatMap_grouped, List.forall₂_map_left_iff] at hjudged
    rw [hresults]
    exact hjudged
  refine ⟨d, found, hd, hfound, ?_, ?_⟩
  · intro hsome
    have hreport : (checked.results.isEmpty && checked.unreadable.isEmpty) = false := by
      have hentries := mt haccounts.eq_nil_iff.mpr hsome
      simpa [Bool.and_eq_false_iff, or_iff_not_imp_left] using hentries
    rw [if_neg (by rw [hreport]; exact Bool.false_ne_true)] at h
    rw [← Answer.pure_eq_ok.mp h]
    exact haccounts
  · intro hnone
    rcases haccounts.eq_nil_iff.mp hnone with ⟨hnoResults, hnoFailures⟩
    rw [hnoResults, hnoFailures] at h
    rcases reportIncludes_eq_ok h with ⟨hstill, added, hadded, hincludes⟩
    rw [hnoFailures] at hstill
    rw [hnoResults, List.nil_append] at hadded
    rw [hadded]
    exact ⟨hstill, hincludes⟩

/-- In a report that a load comes to an end with, each file that some pattern of the collection
selects is accounted for once, and nothing else is.  The file belongs to the collection that
declares the first of these patterns; its verdict is that of this collection on the record
that it is for this collection, or that it has no record.  The results stand group by group of
owners in the order of their first records.  If no file is selected at all, there is one result
for each included collection, in order. -/
theorem load_accounts {name : String} (h : (folder.load r name).outcome = .ok report) :
    exists d pairs found, r.resolve name = .ok d ∧ r.resolveSources name = .ok pairs ∧
      folder.discoverOwned r name = .ok found ∧
      (forall p, p ∈ pairs -> Glob.files p.2 folder.place = .ok (folder.filesOf p.2)) ∧
      (found.map Found.steps).Nodup ∧
      (forall steps, (exists f, f ∈ found ∧ f.steps = steps) <->
        exists p, p ∈ pairs ∧ folder.selects p.2 steps = true) ∧
      (forall f, f ∈ found -> exists pattern,
        pairs.find? (fun q => folder.selects q.2 f.steps) = some (f.owner, pattern) ∧
        (folder.filesOf pattern).find? (fun file => file.steps = f.steps) = some f.file) ∧
      (found ≠ [] -> folder.Accounts r found report ∧
        (report.entries.map Prod.fst).Perm (found.map documentOf) ∧
        (forall f, f ∈ found ->
          exists v, folder.Earns r f v ∧ v ∈ report.verdicts (documentOf f)) ∧
        (folder.WellNamed -> forall f, f ∈ found ->
          exists v, folder.Earns r f v ∧ report.verdicts (documentOf f) = [v])) ∧
      (found = [] -> report.unreadable = [] ∧
        List.Forall₂ (fun included result => exists patterns,
          r.expandSources included = .ok patterns ∧ result = includeResult included patterns)
          d.includes report.results) := by
  rcases accounts_of_load h with ⟨d, found, hd, hfound, hsome, hnone⟩
  rcases discoverOwned_eq_ok.mp hfound with ⟨pairs, hpairs, hfiles, heq⟩
  subst heq
  refine ⟨d, pairs, _, hd, hpairs, hfound, hfiles, nodup_keys_firsts _ _,
    fun steps => exists_found_iff, fun f hf => mem_found_iff.mp hf, ?_, hnone⟩
  intro hfiles
  have haccounts := hsome hfiles
  refine ⟨haccounts, haccounts.documents_perm, ?_, ?_⟩
  · intro f hf
    rcases haccounts.exists_entry hf with ⟨v, hv, hentry⟩
    exact ⟨v, hv, ValidationReport.mem_verdicts.mpr hentry⟩
  · intro hfolder f hf
    exact haccounts.verdicts_eq (hfolder.nodup_documents pairs) hf

end

/-!
A folder with two notes, one of which is no text, and a file of a collection that includes the
notes.
-/

def shelf : Registry :=
  (Registry.empty.registerAll [Registry.notes, Registry.digest]).1

def noteFiles : List (String × FileTree) :=
  [("a.md", .file "Text".toUTF8.toList), ("b.md", .file [0xff])]

def library : ContentFolder :=
  ⟨Location.ofText "content",
    some (.top (.folder
      [("notes", .folder noteFiles), ("digest.yml", .file "a: 1".toUTF8.toList)]))⟩

theorem wellNamed_library : library.WellNamed := by
  intro p hp
  injection hp with hp
  rw [← hp]
  refine Place.wellNamed_top (.folder (by decide) (by decide) ?_)
  refine List.forall_mem_cons.mpr ⟨.folder (by decide) (by decide) ?_,
    List.forall_mem_singleton.mpr (.file _)⟩
  exact List.forall_mem_cons.mpr ⟨.file _, List.forall_mem_singleton.mpr (.file _)⟩

theorem resolveSources_shelf :
    shelf.resolveSources "notes" = .ok [("notes", "notes/*.md")] ∧
      shelf.resolveSources "digest" = .ok [("notes", "notes/*.md"), ("digest", "digest.yml")] := by
  have hnotes : shelf.expansion "notes" = pure [("notes", "notes/*.md")] := by
    rw [Registry.expansion_of_resolve (show shelf.resolve "notes" = .ok Registry.notes from rfl)]
    rfl
  have hdigest : shelf.expansion "digest" =
      pure [("notes", "notes/*.md"), ("digest", "digest.yml")] := by
    rw [Registry.expansion_of_resolve (show shelf.resolve "digest" = .ok Registry.digest from rfl)]
    simp only [Registry.digest, List.mapM_cons, List.mapM_nil, Registry.contribution, hnotes]
    rfl
  exact ⟨(Registry.resolveSources_of_expansion hnotes).left,
    (Registry.resolveSources_of_expansion hdigest).left⟩

def libraryFiles : List Found :=
  [⟨"notes", ⟨["notes", "a.md"], "Text".toUTF8.toList⟩⟩, ⟨"notes", ⟨["notes", "b.md"], [0xff]⟩⟩,
    ⟨"digest", ⟨["digest.yml"], "a: 1".toUTF8.toList⟩⟩]

theorem files_library :
    Glob.files "notes/*.md" library.place = .ok ((libraryFiles.take 2).map Found.file) ∧
      Glob.files "digest.yml" library.place = .ok ((libraryFiles.drop 2).map Found.file) := by
  have hnotes : Glob.read "notes/*.md" = .ok [.exactly "notes",
      .matching [.anyText, .exactly '.', .exactly 'm', .exactly 'd']] :=
    Answer.eq_ok_of_toOption (by decide +kernel)
  have hdigest : Glob.read "digest.yml" = .ok [.exactly "digest.yml"] :=
    Answer.eq_ok_of_toOption (by decide +kernel)
  exact ⟨Glob.files_of_sorted hnotes rfl (by decide +kernel),
    Glob.files_of_sorted hdigest rfl (by decide +kernel)⟩

theorem discoverOwned_library :
    library.discoverOwned shelf "notes" = .ok (libraryFiles.take 2) ∧
      library.discoverOwned shelf "digest" = .ok libraryFiles := by
  rcases files_library with ⟨hnotes, hdigest⟩
  simp [discoverOwned, resolveSources_shelf, hnotes, hdigest, addFiles, libraryFiles]

theorem succeeds_load_library :
    Answer.Succeeds (library.load shelf "notes").outcome ∧
      Answer.Succeeds (library.load shelf "digest").outcome := by
  rw [load_outcome, load_outcome, discoverOwned_library.left, discoverOwned_library.right]
  exact ⟨Answer.succeeds_iff_isOk.mpr (by decide +kernel),
    Answer.succeeds_iff_isOk.mpr (by decide +kernel)⟩

theorem library_accounts :
    exists report, (library.load shelf "digest").outcome = .ok report ∧
      (report.entries.map Prod.fst).Perm ["notes/a.md", "notes/b.md", "digest.yml"] ∧
      library.WellNamed ∧
      forall f, f ∈ libraryFiles ->
        exists v, library.Earns shelf f v ∧ report.verdicts (documentOf f) = [v] := by
  rcases succeeds_load_library.right with ⟨report, hreport⟩
  rcases load_accounts hreport with
    ⟨_d, _pairs, found, _hd, _hpairs, hfound, _hfiles, _hnodup, _hselected, _howned, hsome, _hnone⟩
  rw [discoverOwned_library.right] at hfound
  injection hfound with hfound
  subst hfound
  rcases hsome (List.cons_ne_nil _ _) with ⟨_haccounts, hdocuments, _hlisted, hverdicts⟩
  exact ⟨report, hreport, hdocuments, wellNamed_library, hverdicts wellNamed_library⟩

end ContentFolder
end ContentSchema
