import ContentSchema.Content.Loader
import ContentSchema.Proofs.Answer
import ContentSchema.Proofs.Content.Visits
import ContentSchema.Proofs.FirstOccurrences

/-!
# Discovery

Which files are found for a collection.  The patterns of the collection are gone through in order,
and a file that several of them select is found once.  It belongs to the collection that declares
the first of these patterns.
-/

namespace ContentSchema

def ContentFolder.Found.steps (f : ContentFolder.Found) : List String :=
  f.file.steps

namespace ContentFolder

def filesOf (folder : ContentFolder) (pattern : String) : List Glob.File :=
  match Glob.files pattern folder.place with
  | .ok files => files
  | .error _ => []

def selects (folder : ContentFolder) (pattern : String) (steps : List String) : Bool :=
  (folder.filesOf pattern).any (fun file => file.steps = steps)

def listed (folder : ContentFolder) (pairs : List (String × String)) : List Found :=
  pairs.flatMap (fun p => (folder.filesOf p.2).map (fun file => ⟨p.1, file⟩))

theorem filesOf_eq {folder : ContentFolder} {pattern : String} {files : List Glob.File}
    (h : Glob.files pattern folder.place = .ok files) : files = folder.filesOf pattern := by
  rw [filesOf, h]

theorem foldl_addFiles {folder : ContentFolder} {pairs : List (String × String)} :
    pairs.foldl (fun found p => addFiles p.1 found (folder.filesOf p.2)) [] =
      firsts Found.steps (folder.listed pairs) := by
  rw [← foldl_eq_firsts, listed, List.foldl_flatMap]
  simp only [List.foldl_map]
  rfl

theorem discoverOwned_eq_ok {folder : ContentFolder} {r : Registry} {name : String}
    {found : List Found} :
    folder.discoverOwned r name = .ok found <->
      exists pairs, r.resolveSources name = .ok pairs ∧
        (forall p, p ∈ pairs -> Glob.files p.2 folder.place = .ok (folder.filesOf p.2)) ∧
        found = firsts Found.steps (folder.listed pairs) := by
  have hanswer : forall (p : String × String) files,
      Glob.files p.2 folder.place = .ok files -> files = folder.filesOf p.2 :=
    fun p files h => filesOf_eq h
  rw [discoverOwned, Answer.bind_eq_ok]
  constructor
  · intro h
    rcases h with ⟨pairs, hpairs, hfound⟩
    rcases (Answer.foldlM_eq_ok hanswer).mp hfound with ⟨hfiles, hfound⟩
    exact ⟨pairs, hpairs, hfiles, hfound.trans foldl_addFiles⟩
  · intro h
    rcases h with ⟨pairs, hpairs, hfiles, hfound⟩
    exact ⟨pairs, hpairs,
      (Answer.foldlM_eq_ok hanswer).mpr ⟨hfiles, hfound.trans foldl_addFiles.symm⟩⟩

/-!
## Owners
-/

theorem selects_eq (folder : ContentFolder) (pattern : String) (steps : List String) :
    folder.selects pattern steps =
      ((folder.filesOf pattern).find? (fun file => file.steps = steps)).isSome := by
  rw [Bool.eq_iff_iff, List.find?_isSome, selects, List.any_eq_true]

theorem find?_listed {folder : ContentFolder} {pairs : List (String × String)}
    {steps : List String} {f : Found} :
    (folder.listed pairs).find? (fun g => g.steps = steps) = some f <->
      exists pattern,
        pairs.find? (fun q => folder.selects q.2 steps) = some (f.owner, pattern) ∧
        (folder.filesOf pattern).find? (fun file => file.steps = steps) = some f.file := by
  induction pairs with
  | nil =>
      simp [listed]
  | cons q rest ih =>
      have hlisted : folder.listed (q :: rest) =
          (folder.filesOf q.2).map (fun file => ⟨q.1, file⟩) ++ folder.listed rest :=
        List.flatMap_cons
      rw [hlisted, List.find?_append, List.find?_map]
      show ((((folder.filesOf q.2).find? (fun file => file.steps = steps)).map
        (fun file => (⟨q.1, file⟩ : Found))).or _) = some f <-> _
      cases hfile : (folder.filesOf q.2).find? (fun file => file.steps = steps) with
      | none =>
          rw [List.find?_cons, selects_eq, hfile]
          exact ih
      | some file =>
          rw [List.find?_cons, selects_eq, hfile]
          constructor
          · intro h
            injection h with h
            rw [← h]
            exact ⟨q.2, rfl, hfile⟩
          · intro h
            rcases h with ⟨pattern, hq, hpattern⟩
            injection hq with hq
            rw [hq, hpattern] at hfile
            injection hfile with hfile
            rw [hq, ← hfile]
            rfl

/-- A found file belongs to the collection that declares the first pattern that selects it. -/
theorem mem_found_iff {folder : ContentFolder} {pairs : List (String × String)} {f : Found} :
    f ∈ firsts Found.steps (folder.listed pairs) <->
      exists pattern,
        pairs.find? (fun q => folder.selects q.2 f.steps) = some (f.owner, pattern) ∧
        (folder.filesOf pattern).find? (fun file => file.steps = f.steps) = some f.file :=
  mem_firsts_iff.trans find?_listed

theorem exists_found_iff {folder : ContentFolder} {pairs : List (String × String)}
    {steps : List String} :
    (exists f, f ∈ firsts Found.steps (folder.listed pairs) ∧ f.steps = steps) <->
      exists p, p ∈ pairs ∧ folder.selects p.2 steps = true := by
  rw [exists_mem_firsts_iff]
  simp only [listed, List.mem_flatMap, List.mem_map, selects, List.any_eq_true, decide_eq_true_eq]
  constructor
  · intro h
    rcases h with ⟨f, ⟨p, hp, file, hfile, hf⟩, hsteps⟩
    rw [← hf] at hsteps
    exact ⟨p, hp, file, hfile, hsteps⟩
  · intro h
    rcases h with ⟨p, hp, file, hfile, hsteps⟩
    exact ⟨⟨p.1, file⟩, ⟨p, hp, file, hfile, rfl⟩, hsteps⟩

/-!
## Names of documents
-/

def WellNamed (folder : ContentFolder) : Prop :=
  forall p, folder.place = some p -> p.WellNamed

theorem exists_place {folder : ContentFolder} {pattern : String} {file : Glob.File}
    (hfile : file ∈ folder.filesOf pattern) :
    exists steps p, folder.place = some p ∧ file ∈ Glob.filesBelow steps (some p) := by
  rw [filesOf, Glob.files_eq] at hfile
  cases hread : Glob.read pattern with
  | error fault =>
      rw [hread] at hfile
      cases hfile
  | ok steps =>
      rw [hread] at hfile
      cases hplace : folder.place with
      | none =>
          rw [hplace] at hfile
          cases hfile
      | some p =>
          rw [hplace] at hfile
          exact ⟨steps, p, rfl, hfile⟩

theorem exists_pattern {folder : ContentFolder} {pairs : List (String × String)} {f : Found}
    (hf : f ∈ firsts Found.steps (folder.listed pairs)) :
    exists pattern, f.file ∈ folder.filesOf pattern := by
  rcases List.mem_flatMap.mp ((firsts_sublist _ _).subset hf) with ⟨p, _hp, hf⟩
  rcases List.mem_map.mp hf with ⟨file, hfile, hf⟩
  rw [← hf]
  exact ⟨p.2, hfile⟩

theorem WellNamed.isStep_of_found {folder : ContentFolder} (hfolder : folder.WellNamed)
    {pairs : List (String × String)} {f : Found}
    (hf : f ∈ firsts Found.steps (folder.listed pairs)) : forall s, s ∈ f.steps -> IsStep s := by
  rcases exists_pattern hf with ⟨pattern, hfile⟩
  rcases exists_place hfile with ⟨steps, p, hplace, hfile⟩
  exact Glob.isStep_of_mem_filesBelow (hfolder p hplace) hfile

theorem WellNamed.nodup_documents {folder : ContentFolder} (hfolder : folder.WellNamed)
    (pairs : List (String × String)) :
    ((firsts Found.steps (folder.listed pairs)).map documentOf).Nodup := by
  have hdocuments : (firsts Found.steps (folder.listed pairs)).map documentOf =
      ((firsts Found.steps (folder.listed pairs)).map Found.steps).map
        (fun steps => (Location.mk "" steps).text) := by
    rw [List.map_map]
    rfl
  have hsteps : forall steps,
      steps ∈ (firsts Found.steps (folder.listed pairs)).map Found.steps ->
      forall s, s ∈ steps -> IsStep s := by
    intro steps hmem
    rcases List.mem_map.mp hmem with ⟨f, hf, hsteps⟩
    rw [← hsteps]
    exact hfolder.isStep_of_found hf
  rw [hdocuments]
  refine List.Nodup.map_on ?_ (nodup_keys_firsts _ _)
  intro steps hmem others hothers heq
  exact Location.text_injective (hsteps steps hmem) (hsteps others hothers) heq

end ContentFolder
end ContentSchema
