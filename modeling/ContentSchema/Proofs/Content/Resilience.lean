import ContentSchema.Proofs.Collection.Precedence
import ContentSchema.Proofs.Collection.Totality
import ContentSchema.Proofs.Content.Accounting
import ContentSchema.Proofs.Content.Halting
import ContentSchema.Proofs.Content.Removal
import ContentSchema.Yaml.Document

/-!
# Bad files

In a registry that always answers, only files that stall can keep a load from a report.  A file
that cannot be read otherwise has its reason in the report, and what the report says about a
file does not depend on which other files there are.
-/

namespace ContentSchema

namespace Registry

def Readable (r : Registry) : Prop :=
  forall e, e ∈ r.descriptors -> forall pattern, Selector.files pattern ∈ e.2.sources ->
    Answer.Succeeds (Glob.read pattern)

end Registry

namespace ContentFolder

variable {folder : ContentFolder} {r : Registry} {found : List Found}

/-!
## What cannot fail
-/

theorem exists_found (hr : r.Sound) (hreadable : r.Readable) {name : String}
    (hname : name ∈ r.names) (folder : ContentFolder) :
    exists found, folder.discoverOwned r name = .ok found := by
  rcases (hr.expansion (.refl r) hname).right with ⟨pairs, hexpansion⟩
  have hpairs := (Registry.resolveSources_of_expansion hexpansion).left
  refine ⟨_, discoverOwned_eq_ok.mpr ⟨pairs, hpairs, ?_, rfl⟩⟩
  intro p hp
  rcases hr.declared_of_resolveSources hname hpairs p hp with ⟨d, hd, hsource⟩
  rcases hreadable _ hd p.2 hsource with ⟨steps, hsteps⟩
  have hfiles : Glob.files p.2 folder.place = .ok (Glob.filesBelow steps folder.place) := by
    rw [Glob.files_eq, hsteps]
    rfl
  rw [hfiles, ← filesOf_eq hfiles]

theorem owner_registered (hr : r.Sound) {name : String} (hname : name ∈ r.names)
    (hfound : folder.discoverOwned r name = .ok found) {f : Found} (hf : f ∈ found) :
    f.owner ∈ r.names := by
  rcases discoverOwned_eq_ok.mp hfound with ⟨pairs, hpairs, _hfiles, heq⟩
  rw [heq] at hf
  rcases mem_found_iff.mp hf with ⟨pattern, hfirst, _hfile⟩
  rcases hr.declared_of_resolveSources hname hpairs _ (List.mem_of_find?_eq_some hfirst) with
    ⟨d, hd, _hsource⟩
  exact List.mem_map_of_mem hd

theorem succeeds_validateBatches (hr : r.Sound) (htotal : r.Total)
    {batches : List (String × List (String × Value))}
    (hbatches : forall batch, batch ∈ batches -> batch.1 ∈ r.names) (report : ValidationReport) :
    Answer.Succeeds (validateBatches r report batches).outcome := by
  induction batches generalizing report with
  | nil =>
      exact Answer.succeeds_pure
  | cons batch rest ih =>
      rcases List.forall_mem_cons.mp hbatches with ⟨hbatch, hrest⟩
      rcases hr.schemaFor_builtTotal htotal hbatch with ⟨schema, hschema, _hbuilt⟩
      rcases Registry.succeeds_validateBatch ⟨schema, hschema⟩
        (fun d (_hd : d ∈ batch.2) => hr.succeeds_validate htotal hbatch d.2) with
        ⟨checked, hchecked⟩
      simp [hchecked, ih hrest]

theorem succeeds_reportIncludes (hr : r.Sound) {includes : List String}
    (hincludes : forall name, name ∈ includes -> name ∈ r.names) (report : ValidationReport) :
    Answer.Succeeds (reportIncludes r report includes).outcome := by
  induction includes generalizing report with
  | nil =>
      exact Answer.succeeds_pure
  | cons name rest ih =>
      rcases List.forall_mem_cons.mp hincludes with ⟨hname, hrest⟩
      rcases (hr.expansion (.refl r) hname).right with ⟨pairs, hexpansion⟩
      simp [(Registry.resolveSources_of_expansion hexpansion).right, ih hrest]

section

variable [YamlReader]

theorem owner_of_batch {batch : String × List (String × Value)}
    (hbatch : batch ∈ batchesOf (folder.records r found)) :
    exists f, f ∈ found ∧ f.owner = batch.1 := by
  rcases List.mem_map.mp hbatch with ⟨e, he, hbatch⟩
  have hrecord := mem_records.mp ((firsts_sublist _ _).subset he)
  rw [← hbatch]
  exact ⟨e.1, hrecord.left, rfl⟩

/-!
## Reports
-/

theorem succeeds_load_iff (hr : r.Sound) (htotal : r.Total) {name : String}
    (hname : name ∈ r.names) (hfound : folder.discoverOwned r name = .ok found) :
    Answer.Succeeds (folder.load r name).outcome <->
      forall f, f ∈ found -> Answer.Succeeds (folder.reading r f) := by
  rcases hr.exists_descriptor hname with ⟨d, hd, hresolve⟩
  rw [load_outcome]
  constructor
  · intro h f hf
    rcases Answer.succeeds_bind.mp h with ⟨_d, _hd, h⟩
    rcases Answer.succeeds_bind.mp h with ⟨found', hfound', h⟩
    rcases Answer.succeeds_bind.mp h with ⟨harvest, hharvest, _h⟩
    rw [hfound] at hfound'
    injection hfound' with hsame
    rw [hsame] at hf
    exact ⟨_, (harvest_eq_ok.mp hharvest).left f hf⟩
  · intro h
    have hread : forall f, f ∈ found -> folder.reading r f = .ok (folder.readingOf r f) := by
      intro f hf
      rcases h f hf with ⟨reading, hreading⟩
      rw [hreading, readingOf_eq hreading]
    have howners : forall batch, batch ∈ batchesOf (folder.records r found) ->
        batch.1 ∈ r.names := by
      intro batch hbatch
      rcases owner_of_batch hbatch with ⟨f, hf, howner⟩
      rw [← howner]
      exact owner_registered hr hname hfound hf
    rcases succeeds_validateBatches hr htotal howners
      { ValidationReport.empty with unreadable := folder.failures r found } with
      ⟨checked, hchecked⟩
    refine Answer.succeeds_bind.mpr ⟨d, hresolve, ?_⟩
    refine Answer.succeeds_bind.mpr ⟨found, hfound, ?_⟩
    refine Answer.succeeds_bind.mpr ⟨_, harvest_eq_ok.mpr ⟨hread, rfl⟩, ?_⟩
    refine Answer.succeeds_bind.mpr ⟨checked, hchecked, ?_⟩
    split
    · refine succeeds_reportIncludes hr ?_ checked
      intro included hincluded
      exact (hr.includes_earlier ⟨d, hd, hincluded⟩).left
    · exact Answer.succeeds_pure

/-!
## Independence of files
-/

/-- The folder has a report on the files, unless one of them stalls in the whole folder: what
each file earns there is all that the report says of it, and the files that cannot be read are
unreadable in the report. -/
structure Reports (whole folder : ContentFolder) (r : Registry) (name : String)
    (found : List Found) : Prop where
  discovers : folder.discoverOwned r name = .ok found
  returns : Answer.Succeeds (folder.load r name).outcome <->
    forall f, f ∈ found -> ¬ whole.Stalls f
  verdicts : forall report, (folder.load r name).outcome = .ok report ->
    forall f, f ∈ found -> exists v, whole.Earns r f v ∧ report.verdicts (documentOf f) = [v]
  unreadable : forall report, (folder.load r name).outcome = .ok report ->
    forall f, f ∈ found -> forall reason, whole.reading r f = .ok (.unreadable reason) ->
      (documentOf f, reason) ∈ report.unreadable

variable {whole : ContentFolder}

theorem reading_of_location (h : folder.location = whole.location) (r : Registry) (f : Found) :
    folder.reading r f = whole.reading r f := by
  rw [reading, reading, locationOf, locationOf, h]

theorem Earns.of_location (h : folder.location = whole.location) {f : Found} {v : Verdict}
    (hv : folder.Earns r f v) : whole.Earns r f v := by
  cases hv with
  | checked hread hvalidate =>
      rw [reading_of_location h] at hread
      exact .checked hread hvalidate
  | unreadable hread =>
      rw [reading_of_location h] at hread
      exact .unreadable hread

theorem reports_of_found (hr : r.Sound) (htotal : r.Total) {name : String}
    (hname : name ∈ r.names) (hlocation : folder.location = whole.location)
    (hfound : folder.discoverOwned r name = .ok found)
    (hplain : forall f, f ∈ found -> Char.ofNat 0 ∉ (whole.locationOf f).text.toList)
    (hnames : (found.map documentOf).Nodup) : whole.Reports folder r name found := by
  have haccounts : forall report, (folder.load r name).outcome = .ok report ->
      forall f, f ∈ found -> folder.Accounts r found report := by
    intro report hload f hf
    rcases accounts_of_load hload with ⟨_d, found', _hd, hfound', hsome, _hnone⟩
    rw [hfound] at hfound'
    injection hfound' with hsame
    rw [hsame] at hf ⊢
    exact hsome (List.ne_nil_of_mem hf)
  refine ⟨hfound, ?_, ?_, ?_⟩
  · rw [succeeds_load_iff hr htotal hname hfound]
    refine forall₂_congr ?_
    intro f hf
    rcases hr.exists_descriptor (owner_registered hr hname hfound hf) with ⟨d, _hd, hresolve⟩
    rw [reading_of_location hlocation]
    exact succeeds_reading_iff hresolve (hplain f hf)
  · intro report hload f hf
    rcases (haccounts report hload f hf).verdicts_eq hnames hf with ⟨v, hv, hverdicts⟩
    exact ⟨v, hv.of_location hlocation, hverdicts⟩
  · intro report hload f hf reason hreading
    rw [← reading_of_location hlocation] at hreading
    rw [(haccounts report hload f hf).unreadable]
    exact mem_failures.mpr ⟨f, hf, (readingOf_eq hreading).symm, rfl⟩

/-- In a registry with readable patterns whose schemas answer for every value, each collection
has a report on every tree, whatever bytes its files hold, unless a file of the collection
stalls.  Files can be removed without an effect on the others: those that are left are found
for the same owners, and in a report on them there is for each file the same verdict. -/
theorem load_resilient {ops : List Registry.Operation} {events : List Event}
    (hrun : Registry.empty.run ops = (r, events)) (hreadable : r.Readable) (htotal : r.Total)
    {root : FileTree} (hroot : root.WellNamed) (l : Location) {name : String}
    (hname : name ∈ r.names) :
    exists found, (root.folderAt l).Reports (root.folderAt l) r name found ∧
      forall keeps,
        (root.folderAt l).Reports ((root.sift keeps []).folderAt l) r name
          (found.filter (Found.kept keeps l)) ∧
        forall report rest, ((root.folderAt l).load r name).outcome = .ok report ->
          (((root.sift keeps []).folderAt l).load r name).outcome = .ok rest ->
          forall f, f ∈ found -> Found.kept keeps l f = true ->
            rest.verdicts (documentOf f) = report.verdicts (documentOf f) := by
  have hr : r.Sound := Registry.sound_of_run hrun
  rcases exists_found hr hreadable hname (root.folderAt l) with ⟨found, hfound⟩
  rcases discoverOwned_eq_ok.mp hfound with ⟨pairs, _hpairs, _hfiles, heq⟩
  have hplain : forall f, f ∈ found ->
      Char.ofNat 0 ∉ ((root.folderAt l).locationOf f).text.toList := by
    intro f hf
    rw [heq] at hf
    exact noNul_of_found hroot hf
  have hnames : (found.map documentOf).Nodup := by
    rw [heq]
    exact (wellNamed_folderAt hroot l).nodup_documents pairs
  have hwhole := reports_of_found hr htotal hname rfl hfound hplain hnames
  refine ⟨found, hwhole, fun keeps => ?_⟩
  have hrest : (root.folderAt l).Reports ((root.sift keeps []).folderAt l) r name
      (found.filter (Found.kept keeps l)) := by
    refine reports_of_found hr htotal hname rfl (discoverOwned_sift hroot hfound) ?_ ?_
    · intro f hf
      exact hplain f (List.mem_filter.mp hf).left
    · exact (List.filter_sublist.map documentOf).nodup hnames
  refine ⟨hrest, ?_⟩
  intro report rest hload hloadRest f hf hkept
  rcases hwhole.verdicts report hload f hf with ⟨v, hv, hverdicts⟩
  rcases hrest.verdicts rest hloadRest f (List.mem_filter.mpr ⟨hf, hkept⟩) with
    ⟨w, hw, hverdictsRest⟩
  rw [hverdicts, hverdictsRest, hv.unique hw]

end

/-!
A diary of three days: one that can be read, one on a date that does not exist, and one that is
no YAML.
-/

def diary : Descriptor :=
  ⟨"diary", .data, [.files "*.yml"], ⟨.fresh, []⟩⟩

def desk : Registry :=
  (Registry.empty.run [.register diary]).1

def days : List (String × FileTree) :=
  [("a.yml", .file "a: 1\n".toUTF8.toList), ("b.yml", .file "day: 2024-02-30\n".toUTF8.toList),
    ("c.yml", .file "a: [\n".toUTF8.toList)]

def drawer : FileTree :=
  .folder [("content", .folder days)]

def content : Location :=
  ⟨"", ["content"]⟩

def firstDay : Found :=
  ⟨"diary", ⟨["a.yml"], "a: 1\n".toUTF8.toList⟩⟩

def lastDay : Found :=
  ⟨"diary", ⟨["c.yml"], "a: [\n".toUTF8.toList⟩⟩

def dayFiles : List Found :=
  [firstDay, ⟨"diary", ⟨["b.yml"], "day: 2024-02-30\n".toUTF8.toList⟩⟩, lastDay]

theorem descriptors_desk : desk.descriptors = [("diary", diary)] :=
  rfl

theorem readable_desk : desk.Readable := by
  rw [Registry.Readable, descriptors_desk]
  refine List.forall_mem_singleton.mpr ?_
  intro pattern hpattern
  injection List.mem_singleton.mp hpattern with hpattern
  rw [hpattern]
  exact Answer.succeeds_iff_isOk.mpr (by decide +kernel)

theorem total_desk : desk.Total := by
  rw [Registry.Total, descriptors_desk]
  refine List.forall_mem_singleton.mpr ?_
  have hobj : Schema.obj [] = .ok diary.root.toSchema := rfl
  exact .obj (by intro _ _ h; cases h) hobj

theorem wellNamed_drawer : drawer.WellNamed := by
  refine .folder (by decide) (by decide) (List.forall_mem_singleton.mpr ?_)
  refine .folder (by decide) (by decide) ?_
  refine List.forall_mem_cons.mpr ⟨.file _, List.forall_mem_cons.mpr ⟨.file _, ?_⟩⟩
  exact List.forall_mem_singleton.mpr (.file _)

theorem discoverOwned_drawer :
    (drawer.folderAt content).discoverOwned desk "diary" = .ok dayFiles := by
  have hread : Glob.read "*.yml" =
      .ok [.matching [.anyText, .exactly '.', .exactly 'y', .exactly 'm', .exactly 'l']] :=
    Answer.eq_ok_of_toOption (by decide +kernel)
  have hfiles : Glob.files "*.yml" (drawer.folderAt content).place =
      .ok (dayFiles.map Found.file) :=
    Glob.files_of_sorted hread rfl (by decide +kernel)
  have hpairs : desk.resolveSources "diary" = .ok [("diary", "*.yml")] := by
    refine (Registry.resolveSources_of_expansion ?_).left
    rw [Registry.expansion_of_resolve (show desk.resolve "diary" = .ok diary from rfl)]
    rfl
  have hadded : addFiles "diary" [] (dayFiles.map Found.file) = dayFiles := rfl
  simp [discoverOwned, hpairs, hfiles, hadded]

theorem not_succeeds_load_drawer :
    ¬ Answer.Succeeds ((drawer.folderAt content).load desk "diary").outcome := by
  intro h
  rw [load_outcome, discoverOwned_drawer] at h
  exact absurd (Answer.succeeds_iff_isOk.mp h) (by decide +kernel)

/-- A day that does not exist keeps the whole diary from a report. -/
theorem missing_day_halts :
    (exists events, Registry.empty.run [.register diary] = (desk, events)) ∧
      desk.Readable ∧ desk.Total ∧ drawer.WellNamed ∧ "diary" ∈ desk.names ∧
      ¬ Answer.Succeeds ((drawer.folderAt content).load desk "diary").outcome :=
  ⟨⟨_, rfl⟩, readable_desk, total_desk, wellNamed_drawer, List.mem_cons_self,
    not_succeeds_load_drawer⟩

theorem resolve_desk : forall f, f ∈ dayFiles -> desk.resolve f.owner = .ok diary := by
  refine List.forall_mem_cons.mpr ⟨rfl, List.forall_mem_cons.mpr ⟨rfl, ?_⟩⟩
  exact List.forall_mem_singleton.mpr rfl

theorem not_stalls_day {f : Found} (hf : f ∈ dayFiles)
    (hread : Answer.Succeeds ((drawer.folderAt content).reading desk f)) :
    ¬ (drawer.folderAt content).Stalls f := by
  have hplain : Char.ofNat 0 ∉ ((drawer.folderAt content).locationOf f).text.toList := by
    rcases discoverOwned_eq_ok.mp discoverOwned_drawer with ⟨pairs, _hpairs, _hfiles, heq⟩
    rw [heq] at hf
    exact noNul_of_found wellNamed_drawer hf
  exact (succeeds_reading_iff (resolve_desk f hf) hplain).mp hread

theorem reading_firstDay :
    exists data, (drawer.folderAt content).reading desk firstDay = .ok (.record data) := by
  have hread : (match (drawer.folderAt content).reading desk firstDay with
      | .ok (.record _) => true
      | _ => false) = true := by
    decide +kernel
  split at hread
  · next data hdata => exact ⟨data, hdata⟩
  · cases hread

theorem reading_lastDay :
    exists reason, (drawer.folderAt content).reading desk lastDay = .ok (.unreadable reason) := by
  have hread : (match (drawer.folderAt content).reading desk lastDay with
      | .ok (.unreadable _) => true
      | _ => false) = true := by
    decide +kernel
  split at hread
  · next reason hreason => exact ⟨reason, hreason⟩
  · cases hread

def otherDays (way : List String) : Bool :=
  way != ["b.yml", "content"]

theorem filter_dayFiles : dayFiles.filter (Found.kept otherDays content) = [firstDay, lastDay] :=
  rfl

theorem other_days_reported :
    (exists f, f ∈ dayFiles ∧ (drawer.folderAt content).Stalls f) ∧
      exists report, (((drawer.sift otherDays []).folderAt content).load desk "diary").outcome =
          .ok report ∧
        (exists result, report.verdicts "a.yml" = [.checked result]) ∧
        exists reason, ("c.yml", reason) ∈ report.unreadable := by
  have hrun : Registry.empty.run [.register diary] =
      (desk, (Registry.empty.run [.register diary]).2) :=
    Prod.ext rfl rfl
  have hname : "diary" ∈ desk.names := List.mem_cons_self
  rcases load_resilient hrun readable_desk total_desk wellNamed_drawer content hname with
    ⟨found, hwhole, hrest⟩
  have hdays := hwhole.discovers
  rw [discoverOwned_drawer] at hdays
  injection hdays with hdays
  subst hdays
  refine ⟨?_, ?_⟩
  · by_contra hnone
    refine not_succeeds_load_drawer (hwhole.returns.mpr ?_)
    intro f hf hstalls
    exact hnone ⟨f, hf, hstalls⟩
  · have hothers := (hrest otherDays).left
    rw [filter_dayFiles] at hothers
    have hfirst : firstDay ∈ dayFiles := List.mem_cons_self
    have hlast : lastDay ∈ dayFiles :=
      List.mem_cons_of_mem _ (List.mem_cons_of_mem _ List.mem_cons_self)
    rcases reading_firstDay with ⟨data, hdata⟩
    rcases reading_lastDay with ⟨reason, hreason⟩
    have hstall : forall f, f ∈ [firstDay, lastDay] -> ¬ (drawer.folderAt content).Stalls f :=
      List.forall_mem_cons.mpr ⟨not_stalls_day hfirst ⟨_, hdata⟩,
        List.forall_mem_singleton.mpr (not_stalls_day hlast ⟨_, hreason⟩)⟩
    rcases hothers.returns.mpr hstall with ⟨report, hreport⟩
    refine ⟨report, hreport, ?_, reason, ?_⟩
    · rcases hothers.verdicts report hreport firstDay List.mem_cons_self with ⟨v, hv, hverdicts⟩
      cases hv with
      | checked _ _ =>
          exact ⟨_, hverdicts⟩
      | unreadable hread =>
          rw [hdata] at hread
          cases hread
    · exact hothers.unreadable report hreport lastDay
        (List.mem_cons_of_mem _ List.mem_cons_self) reason hreason

end ContentFolder
end ContentSchema
