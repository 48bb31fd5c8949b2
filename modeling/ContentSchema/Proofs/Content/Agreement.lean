import ContentSchema.Proofs.Collection.Precedence
import ContentSchema.Proofs.Content.Accounting

/-!
# Agreement between collections

What a collection that includes others says about a file that belongs to one of them is what
this one says about the file itself: it finds the file, as its own, and the verdicts are equal.
All files of included collections are found.
-/

namespace ContentSchema
namespace ContentFolder

variable {folder : ContentFolder} {r : Registry}

theorem mem_found_of_owner (hr : r.Sound) {name : String} (hname : name ∈ r.names) {f : Found}
    {found owned : List Found} (hfound : folder.discoverOwned r name = .ok found)
    (howned : folder.discoverOwned r f.owner = .ok owned) (hf : f ∈ found) : f ∈ owned := by
  rcases discoverOwned_eq_ok.mp hfound with ⟨pairs, hpairs, _hfiles, heq⟩
  rcases discoverOwned_eq_ok.mp howned with ⟨own, hown, _hownFiles, howneq⟩
  rw [heq] at hf
  rcases mem_found_iff.mp hf with ⟨pattern, hfirst, hfile⟩
  rcases hr.first_of_resolveSources (fun p => folder.selects p f.steps) hname hpairs hfirst with
    ⟨other, hother, hownFirst⟩
  rw [hown] at hother
  injection hother with hother
  rw [howneq, hother]
  exact mem_found_iff.mpr ⟨pattern, hownFirst, hfile⟩

theorem exists_found_of_includes (hr : r.Sound) {name other : String} {found owned : List Found}
    (hfound : folder.discoverOwned r name = .ok found)
    (howned : folder.discoverOwned r other = .ok owned)
    (hincludes : Relation.TransGen r.Includes name other) {f : Found} (hf : f ∈ owned) :
    exists g, g ∈ found ∧ g.steps = f.steps := by
  rcases discoverOwned_eq_ok.mp hfound with ⟨pairs, hpairs, _hfiles, heq⟩
  rcases discoverOwned_eq_ok.mp howned with ⟨own, hown, _hownFiles, howneq⟩
  rw [howneq] at hf
  rcases exists_found_iff.mp ⟨f, hf, rfl⟩ with ⟨p, hp, hselects⟩
  have hpattern : r.HasPattern other p.2 := ⟨own, hown, List.mem_map_of_mem hp⟩
  rcases hr.hasPattern_of_transGen hincludes hpattern with ⟨larger, hlarger, hmem⟩
  rw [hpairs] at hlarger
  injection hlarger with hlarger
  rcases List.mem_map.mp hmem with ⟨q, hq, hsame⟩
  rw [← hlarger] at hq
  rw [← hsame] at hselects
  rw [heq]
  exact exists_found_iff.mpr ⟨q, hq, hselects⟩

/-- Two loads in one registry and one folder agree: a file that the first collection finds and
the second one owns is found for the second as its own, with one and the same verdict, and
whatever the second collection finds is found for a collection that includes it, directly or
not. -/
theorem load_agrees [YamlReader] {ops : List Registry.Operation} {events : List Event}
    (hrun : Registry.empty.run ops = (r, events)) {name other : String}
    {report otherReport : ValidationReport}
    (hload : (folder.load r name).outcome = .ok report)
    (hother : (folder.load r other).outcome = .ok otherReport) :
    exists found owned, folder.discoverOwned r name = .ok found ∧
      folder.discoverOwned r other = .ok owned ∧
      (forall f, f ∈ found -> f.owner = other -> f ∈ owned ∧
        (exists v, folder.Earns r f v ∧ v ∈ report.verdicts (documentOf f) ∧
          v ∈ otherReport.verdicts (documentOf f)) ∧
        (folder.WellNamed -> exists v, report.verdicts (documentOf f) = [v] ∧
          otherReport.verdicts (documentOf f) = [v])) ∧
      (Relation.TransGen r.Includes name other -> forall f, f ∈ owned ->
        exists g, g ∈ found ∧ g.steps = f.steps) := by
  have hr : r.Sound := Registry.sound_of_run hrun
  rcases accounts_of_load hload with ⟨d, found, hd, hfound, hsome, _hnone⟩
  rcases accounts_of_load hother with ⟨_d, owned, _hd, howned, hownSome, _hownNone⟩
  have hname : name ∈ r.names := by
    have hentry := Entries.mem_of_get? (Registry.resolve_eq_ok_iff.mp hd)
    exact List.mem_map.mpr ⟨(name, d), hentry, rfl⟩
  refine ⟨found, owned, hfound, howned, ?_, fun hincludes f hf =>
    exists_found_of_includes hr hfound howned hincludes hf⟩
  intro f hf howner
  have hmem : f ∈ owned := mem_found_of_owner hr hname hfound (by rw [howner]; exact howned) hf
  -- a verdict depends on the file and its owner, so both reports have the same one
  have haccounts := hsome (List.ne_nil_of_mem hf)
  have hownAccounts := hownSome (List.ne_nil_of_mem hmem)
  refine ⟨hmem, ?_, ?_⟩
  · rcases haccounts.exists_entry hf with ⟨v, hv, hentry⟩
    rcases hownAccounts.exists_entry hmem with ⟨w, hw, hownEntry⟩
    rw [← hv.unique hw] at hownEntry
    exact ⟨v, hv, ValidationReport.mem_verdicts.mpr hentry,
      ValidationReport.mem_verdicts.mpr hownEntry⟩
  · intro hfolder
    rcases discoverOwned_eq_ok.mp hfound with ⟨pairs, _hpairs, _hfiles, heq⟩
    rcases discoverOwned_eq_ok.mp howned with ⟨own, _hown, _hownFiles, howneq⟩
    have hnames := hfolder.nodup_documents pairs
    have hownNames := hfolder.nodup_documents own
    rw [← heq] at hnames
    rw [← howneq] at hownNames
    rcases haccounts.verdicts_eq hnames hf with ⟨v, hv, hverdicts⟩
    rcases hownAccounts.verdicts_eq hownNames hmem with ⟨w, hw, hownVerdicts⟩
    rw [← hv.unique hw] at hownVerdicts
    exact ⟨v, hverdicts, hownVerdicts⟩

theorem library_agrees :
    exists report otherReport, (library.load shelf "digest").outcome = .ok report ∧
      (library.load shelf "notes").outcome = .ok otherReport ∧
      forall f, f ∈ libraryFiles.take 2 -> f.owner = "notes" ∧
        exists v, report.verdicts (documentOf f) = [v] ∧
          otherReport.verdicts (documentOf f) = [v] := by
  have hrun : Registry.empty.run [.registerAll [Registry.notes, Registry.digest]] =
      (shelf, (Registry.empty.run [.registerAll [Registry.notes, Registry.digest]]).2) :=
    Prod.ext rfl rfl
  rcases succeeds_load_library with ⟨⟨otherReport, hother⟩, ⟨report, hreport⟩⟩
  rcases load_agrees hrun hreport hother with ⟨found, owned, hfound, _howned, hagrees, _hincluded⟩
  rw [discoverOwned_library.right] at hfound
  injection hfound with hfound
  subst hfound
  have howner : forall f, f ∈ libraryFiles.take 2 -> f.owner = "notes" :=
    List.forall_mem_cons.mpr ⟨rfl, List.forall_mem_singleton.mpr rfl⟩
  refine ⟨report, otherReport, hreport, hother, fun f hf => ⟨howner f hf, ?_⟩⟩
  rcases hagrees f (List.mem_of_mem_take hf) (howner f hf) with ⟨_hmem, _hlisted, hverdicts⟩
  exact hverdicts wellNamed_library

end ContentFolder
end ContentSchema
