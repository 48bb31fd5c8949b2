import ContentSchema.Proofs.Content.Discovery
import ContentSchema.Proofs.Content.Order
import ContentSchema.Proofs.Content.Visits

/-!
# Trees without some of their files

Files are removed from a tree by the names that stand on the way from them up to the top.  All
folders stay, and so a pattern leads to the same places as before; it selects the files that are
left, in the order in which they were selected before.
-/

namespace ContentSchema

/-!
## Ways up
-/

/-- The names on the way up from where a step leads to, the nearest first. -/
def Location.turn (way : List String) (step : String) : List String :=
  if step = ".." then way.drop 1 else step :: way

def Location.way (l : Location) : List String :=
  l.steps.foldl turn []

theorem Location.turn_name {way : List String} {name : String} (h : IsName name) :
    turn way name = name :: way :=
  if_neg h.notUp

/-!
## Removal
-/

namespace FileTree

def stays (keeps : List String -> Bool) (way : List String) (tree : FileTree) : Bool :=
  tree.isFolder || keeps way

mutual

/-- The tree with only those files that are kept. -/
def sift (keeps : List String -> Bool) (way : List String) : FileTree -> FileTree
  | .file contents => .file contents
  | .folder entries => .folder (siftEntries keeps way entries)

def siftEntries (keeps : List String -> Bool) (way : List String) :
    List (String × FileTree) -> List (String × FileTree)
  | [] => []
  | (name, tree) :: rest =>
      if tree.stays keeps (name :: way) then
        (name, tree.sift keeps (name :: way)) :: siftEntries keeps way rest
      else siftEntries keeps way rest

end

variable {keeps : List String -> Bool}

theorem siftEntries_eq (way : List String) (entries : List (String × FileTree)) :
    siftEntries keeps way entries =
      (entries.filter (fun e => e.2.stays keeps (e.1 :: way))).map
        (fun e => (e.1, e.2.sift keeps (e.1 :: way))) := by
  induction entries with
  | nil =>
      rfl
  | cons e rest ih =>
      rw [siftEntries, List.filter_cons, ih]
      cases e.2.stays keeps (e.1 :: way) <;> rfl

theorem get?_siftEntries {entries : List (String × FileTree)} (h : (Entries.keys entries).Nodup)
    (way : List String) (name : String) :
    Entries.get? (siftEntries keeps way entries) name =
      ((Entries.get? entries name).filter (stays keeps (name :: way))).map
        (sift keeps (name :: way)) := by
  rw [siftEntries_eq]
  exact Entries.get?_filter_map h _ _ name

@[simp] theorem isFolder_sift (way : List String) (tree : FileTree) :
    (tree.sift keeps way).isFolder = tree.isFolder := by
  cases tree <;> rfl

theorem exists_file_of_not_stays {way : List String} {tree : FileTree}
    (h : tree.stays keeps way = false) : exists contents, tree = .file contents := by
  cases tree with
  | file contents => exact ⟨contents, rfl⟩
  | folder entries => cases h

end FileTree

def siftAround (keeps : List String -> Bool) (way : List String) : List FileTree -> List FileTree
  | [] => []
  | tree :: rest => tree.sift keeps way :: siftAround keeps (way.drop 1) rest

namespace Place

def stays (keeps : List String -> Bool) (way : List String) (p : Place) : Bool :=
  p.tree.stays keeps way

def sift (keeps : List String -> Bool) (way : List String) (p : Place) : Place :=
  ⟨p.tree.sift keeps way, siftAround keeps (way.drop 1) p.around⟩

variable {keeps : List String -> Bool}

theorem WellNamed.step?_sift {p : Place} (hp : p.WellNamed) (way : List String) (name : String) :
    (p.sift keeps way).step? name =
      ((p.step? name).filter (stays keeps (Location.turn way name))).map
        (sift keeps (Location.turn way name)) := by
  rcases p with ⟨tree, around⟩
  cases tree with
  | file contents =>
      rfl
  | folder entries =>
      by_cases hup : name = ".."
      · subst hup
        cases around with
        | nil =>
            rfl
        | cons t rest =>
            have hfolder : t.isFolder = true := (hp.around t List.mem_cons_self).right
            have hstays : stays keeps (way.drop 1) ⟨t, rest⟩ = true := by
              rw [stays, FileTree.stays, hfolder, Bool.true_or]
            show some _ = ((some (⟨t, rest⟩ : Place)).filter (stays keeps (way.drop 1))).map _
            rw [Option.filter_some_pos hstays]
            rfl
      · have hturn : Location.turn way name = name :: way := if_neg hup
        have hkeys : (Entries.keys entries).Nodup := hp.tree.nodup
        show step? ⟨.folder (FileTree.siftEntries keeps way entries), _⟩ name = _
        rw [step?_down hup, step?_down hup, FileTree.get?_siftEntries hkeys, hturn]
        cases Entries.get? entries name with
        | none =>
            rfl
        | some t =>
            cases hstays : t.stays keeps (name :: way) with
            | true =>
                simp only [Option.map_some, Option.filter, stays, hstays, if_true]
                rfl
            | false =>
                simp [Option.filter, stays, hstays]

theorem WellNamed.walk?_sift {p : Place} (hp : p.WellNamed) {way : List String}
    (hstays : p.stays keeps way = true) (steps : List String) :
    (p.sift keeps way).walk? steps =
      ((p.walk? steps).filter (stays keeps (steps.foldl Location.turn way))).map
        (sift keeps (steps.foldl Location.turn way)) := by
  induction steps generalizing p way with
  | nil =>
      simp [walk?, Option.filter, hstays]
  | cons name rest ih =>
      rw [walk?, walk?, hp.step?_sift, List.foldl_cons]
      cases hstep : p.step? name with
      | none =>
          rfl
      | some q =>
          cases hq : q.stays keeps (Location.turn way name) with
          | true =>
              simp only [Option.filter, hq, if_true, Option.map_some, Option.bind_some]
              exact ih (hp.step hstep).left hq
          | false =>
              simp only [Option.filter, hq, Bool.false_eq_true, if_false, Option.map_none,
                Option.bind_none, Option.bind_some]
              cases rest with
              | nil =>
                  simp [walk?, hq]
              | cons next later =>
                  rcases FileTree.exists_file_of_not_stays hq with ⟨contents, hfile⟩
                  simp [walk?, step?, hfile]

end Place

/-!
## Selection
-/

namespace Glob

section Visits

variable (keeps : List String -> Bool) (start : List String)

def Visit.way (v : Visit) : List String :=
  v.trail.foldr (fun step way => Location.turn way step) start

def Visit.stays (v : Visit) : Bool :=
  v.place.stays keeps (v.way start)

def Visit.sift (v : Visit) : Visit :=
  ⟨v.place.sift keeps (v.way start), v.trail⟩

end Visits

variable {keeps : List String -> Bool} {start : List String}

theorem Visit.WellNamed.step?_sift {v : Visit} (hv : v.WellNamed) (name : String) :
    (v.sift keeps start).step? name =
      ((v.step? name).filter (Visit.stays keeps start)).map (Visit.sift keeps start) := by
  show ((v.place.sift keeps (v.way start)).step? name).map _ = _
  rw [hv.place.step?_sift, Visit.step?]
  cases v.place.step? name with
  | none =>
      rfl
  | some p =>
      cases hp : p.stays keeps (Location.turn (v.way start) name) with
      | true =>
          have hstays : Visit.stays keeps start ⟨p, name :: v.trail⟩ = true := hp
          simp only [Option.filter, hp, hstays, if_true, Option.map_some]
          rfl
      | false =>
          have hstays : Visit.stays keeps start ⟨p, name :: v.trail⟩ = false := hp
          simp [Option.filter, hp, hstays]

section Child

variable {v : Visit} (hv : v.WellNamed) {e : String × FileTree} (he : e ∈ v.place.tree.entries)

include hv he

theorem Visit.WellNamed.way_child : (v.child e).way start = e.1 :: v.way start :=
  Location.turn_name (hv.place.tree.entry he).left

theorem Visit.WellNamed.stays_child :
    (v.child e).stays keeps start = e.2.stays keeps (e.1 :: v.way start) := by
  rw [Visit.stays, hv.way_child he]
  rfl

theorem Visit.WellNamed.child_sift :
    (v.sift keeps start).child (e.1, e.2.sift keeps (e.1 :: v.way start)) =
      (v.child e).sift keeps start := by
  rw [Visit.sift, Visit.sift, hv.way_child he]
  rfl

end Child

theorem Visit.entries_sift (v : Visit) :
    (v.sift keeps start).place.tree.entries =
      (v.place.tree.entries.filter (fun e => e.2.stays keeps (e.1 :: v.way start))).map
        (fun e => (e.1, e.2.sift keeps (e.1 :: v.way start))) := by
  rcases v with ⟨⟨tree, around⟩, trail⟩
  cases tree with
  | file contents => rfl
  | folder entries => exact FileTree.siftEntries_eq _ entries

theorem Visit.WellNamed.children_sift {v : Visit} (hv : v.WellNamed) :
    (v.sift keeps start).children =
      (v.children.filter (Visit.stays keeps start)).map (Visit.sift keeps start) := by
  have hstays : forall e, e ∈ v.place.tree.entries ->
      e.2.stays keeps (e.1 :: v.way start) = (v.child e).stays keeps start :=
    fun e he => (hv.stays_child he).symm
  rw [Visit.children_eq, Visit.children_eq, Visit.entries_sift, List.filter_congr hstays,
    List.filter_map, List.map_map, List.map_map]
  apply List.map_congr_left
  intro e he
  exact hv.child_sift (List.mem_filter.mp he).left

theorem flatMap_filter {α β : Type} {p : α -> Bool} {f : α -> List β} {xs : List α}
    (h : forall x, x ∈ xs -> p x = false -> f x = []) :
    (xs.filter p).flatMap f = xs.flatMap f := by
  induction xs with
  | nil =>
      rfl
  | cons x rest ih =>
      rcases List.forall_mem_cons.mp h with ⟨hx, hrest⟩
      rw [List.filter_cons, List.flatMap_cons, ← ih hrest]
      cases hp : p x with
      | true => rfl
      | false => rw [hx hp, if_neg Bool.false_ne_true, List.nil_append]

theorem Visit.WellNamed.folders_sift {v : Visit} (hv : v.WellNamed) :
    (v.sift keeps start).folders = v.folders.map (Visit.sift keeps start) := by
  induction htree : v.place.tree using FileTree.tree_induction generalizing v with
  | file contents =>
      have hsifted : (v.sift keeps start).place.tree = .file contents := by
        show v.place.tree.sift keeps _ = _
        rw [htree]
        rfl
      rw [Visit.folders_file htree, Visit.folders_file hsifted]
      rfl
  | folder entries ih =>
      have hentries : v.place.tree.entries = entries := by
        rw [htree]
        rfl
      have hsifted : (v.sift keeps start).place.tree =
          .folder (v.sift keeps start).place.tree.entries := by
        show v.place.tree.sift keeps _ = .folder (v.place.tree.sift keeps _).entries
        rw [htree]
        rfl
      rw [Visit.folders_folder htree, Visit.folders_folder hsifted, Visit.entries_sift, hentries,
        List.flatMap_map, List.map_cons, List.map_flatMap, flatMap_filter]
      · congr 1
        apply List.flatMap_congr
        intro e he
        rw [← hentries] at he
        rw [hv.child_sift he]
        exact ih e (hentries ▸ he) (hv.child he) rfl
      · intro e he hgone
        rw [← hentries] at he
        rcases FileTree.exists_file_of_not_stays hgone with ⟨contents, hfile⟩
        have hsiftedFile : ((v.child e).sift keeps start).place.tree = .file contents := by
          show e.2.sift keeps _ = _
          rw [hfile]
          rfl
        rw [hv.child_sift he]
        exact Visit.folders_file hsiftedFile

@[simp] theorem Visit.isFolder_sift (v : Visit) : (v.sift keeps start).isFolder = v.isFolder :=
  FileTree.isFolder_sift _ _

theorem Visit.stays_of_isFolder {v : Visit} (h : v.isFolder = true) :
    v.stays keeps start = true := by
  show (v.isFolder || keeps (v.way start)) = true
  rw [h, Bool.true_or]

theorem Visit.select_gone {v : Visit} (h : v.stays keeps start = false) {rest : List Step}
    (hgoes : (rest.isEmpty || v.isFolder) = true) :
    (Glob.select rest v).filter (Visit.stays keeps start) = [] := by
  have hfile : v.isFolder = false := by
    cases hfolder : v.isFolder with
    | false =>
        rfl
    | true =>
        rw [Visit.stays_of_isFolder hfolder] at h
        cases h
  rw [hfile, Bool.or_false, List.isEmpty_iff] at hgoes
  simp [hgoes, Glob.select, h]

def admits (parts : List NamePattern.Part) (rest : List Step) (v : Visit) : Bool :=
  (rest.isEmpty || v.isFolder) && NamePattern.matchesAll parts (v.trail.headD "").toList

theorem select_matching (parts : List NamePattern.Part) (rest : List Step) (v : Visit) :
    Glob.select (.matching parts :: rest) v =
      (v.children.filter (admits parts rest)).flatMap (Glob.select rest) :=
  rfl

/-- A pattern selects what is left of the places that it has selected before. -/
theorem Visit.WellNamed.select_sift {v : Visit} (hv : v.WellNamed)
    (hstays : v.stays keeps start = true) (steps : List Step) :
    Glob.select steps (v.sift keeps start) =
      ((Glob.select steps v).filter (Visit.stays keeps start)).map (Visit.sift keeps start) := by
  induction steps generalizing v with
  | nil =>
      simp [Glob.select, hstays]
  | cons step rest ih =>
      cases step with
      | here =>
          simp [Glob.select, hstays]
      | exactly name =>
          rw [Glob.select, Glob.select, hv.step?_sift]
          -- a step that leads to a removed file leads nowhere, and nothing was selected behind it
          cases hstep : v.step? name with
          | none =>
              rfl
          | some w =>
              cases hw : w.stays keeps start with
              | true =>
                  simp only [Option.filter, hw, if_true, Option.map_some, Visit.isFolder_sift]
                  by_cases hgoes : (rest.isEmpty || w.isFolder) = true
                  · rw [if_pos hgoes, if_pos hgoes]
                    exact ih (hv.step hstep) hw
                  · rw [if_neg hgoes, if_neg hgoes]
                    rfl
              | false =>
                  simp only [Option.filter, hw, Bool.false_eq_true, if_false, Option.map_none]
                  by_cases hgoes : (rest.isEmpty || w.isFolder) = true
                  · rw [if_pos hgoes, Visit.select_gone hw hgoes]
                    rfl
                  · rw [if_neg hgoes]
                    rfl
      | matching parts =>
          have hadmits : forall w : Visit,
              admits parts rest (w.sift keeps start) = admits parts rest w := by
            intro w
            rw [admits, Visit.isFolder_sift]
            rfl
          have hfiltered : (v.children.filter (Visit.stays keeps start)).filter
              (admits parts rest ∘ Visit.sift keeps start) =
                (v.children.filter (admits parts rest)).filter (Visit.stays keeps start) := by
            rw [List.filter_filter, List.filter_filter]
            congr 1
            funext w
            rw [Function.comp_apply, hadmits, Bool.and_comm]
          rw [select_matching, select_matching, hv.children_sift, List.filter_map, hfiltered,
            List.flatMap_map, List.filter_flatMap, List.map_flatMap]
          -- children that stay go on as before, and the others are files with nothing behind them
          refine Eq.trans (List.flatMap_congr ?_) (flatMap_filter ?_)
          · intro w hw
            rcases List.mem_filter.mp hw with ⟨hw, hkept⟩
            exact ih (hv.children (List.mem_filter.mp hw).left) hkept
          · intro w hw hgone
            have hgoes := (Bool.and_eq_true_iff.mp (List.mem_filter.mp hw).right).left
            rw [Visit.select_gone hgone hgoes]
            rfl
      | anyFolders =>
          show (v.sift keeps start).folders.flatMap (Glob.select rest) =
            ((v.folders.flatMap (Glob.select rest)).filter _).map _
          rw [hv.folders_sift, List.flatMap_map, List.filter_flatMap, List.map_flatMap]
          apply List.flatMap_congr
          intro w hw
          exact ih (hv.folders hw) (Visit.stays_of_isFolder (Visit.isFolder_of_mem_folders hw))

/-!
## Files
-/

def File.kept (keeps : List String -> Bool) (start : List String) (file : File) : Bool :=
  keeps (file.steps.foldl Location.turn start)

theorem Visit.file?_sift (v : Visit) :
    (if v.stays keeps start then (v.sift keeps start).file? else none) =
      v.file?.filter (File.kept keeps start) := by
  rcases v with ⟨⟨tree, around⟩, trail⟩
  cases tree with
  | folder entries =>
      rfl
  | file contents =>
      have hway : trail.reverse.foldl Location.turn start =
          Visit.way start ⟨⟨.file contents, around⟩, trail⟩ :=
        List.foldl_reverse
      have hkept : File.kept keeps start ⟨trail.reverse, contents⟩ =
          Visit.stays keeps start ⟨⟨.file contents, around⟩, trail⟩ :=
        congrArg keeps hway
      show _ = (some (⟨trail.reverse, contents⟩ : File)).filter _
      rw [Option.filter_some, hkept]
      rfl

theorem filesAt_sift {p : Place} (hp : p.WellNamed) (hstays : p.stays keeps start = true)
    (steps : List Step) :
    filesAt steps (p.sift keeps start) = (filesAt steps p).filter (File.kept keeps start) := by
  have hvisit : Visit.WellNamed ⟨p, []⟩ := ⟨hp, fun _s hs => absurd hs List.not_mem_nil⟩
  show (select steps (Visit.sift keeps start ⟨p, []⟩)).filterMap Visit.file? = _
  rw [hvisit.select_sift hstays steps, filesAt, List.filterMap_map, List.filterMap_filter,
    List.filter_filterMap]
  congr 1
  funext v
  exact Visit.file?_sift v

theorem filesBelow_file {steps : List Step} {p : Place} {contents : List UInt8}
    (h : p.tree = .file contents) : filesBelow steps (some p) = [] := by
  rw [filesBelow, h]
  rfl

theorem filesBelow_sift {place : Option Place} (hplace : forall p, place = some p -> p.WellNamed)
    (steps : List Step) :
    filesBelow steps ((place.filter (Place.stays keeps start)).map (Place.sift keeps start)) =
      (filesBelow steps place).filter (File.kept keeps start) := by
  cases place with
  | none =>
      rfl
  | some p =>
      cases hstays : p.stays keeps start with
      | false =>
          rcases FileTree.exists_file_of_not_stays hstays with ⟨contents, hfile⟩
          rw [filesBelow_file hfile, Option.filter_some, hstays]
          rfl
      | true =>
          rw [Option.filter_some, hstays]
          show filesBelow steps (some (p.sift keeps start)) = _
          rw [filesBelow, filesBelow, Place.sift, FileTree.isFolder_sift]
          by_cases hfolder : p.tree.isFolder = true
          · rw [if_pos hfolder, if_pos hfolder,
              ← filter_mergeSort (fun a b c => Location.stepsBefore_trans a.steps b.steps c.steps)
                (fun a b => Location.stepsBefore_total a.steps b.steps)]
            exact congrArg (fun files : List File => files.mergeSort _)
              (filesAt_sift (hplace p rfl) hstays steps)
          · rw [if_neg hfolder, if_neg hfolder]
            rfl

end Glob

/-!
## Content folders
-/

def FileTree.folderAt (root : FileTree) (l : Location) : ContentFolder :=
  ⟨l, (Place.top root).find? l⟩

namespace ContentFolder

variable {keeps : List String -> Bool} {root : FileTree}

theorem wellNamed_of_place (hroot : root.WellNamed) {l : Location} {p : Place}
    (hplace : (root.folderAt l).place = some p) :
    p.WellNamed ∧ l.root = "" ∧ forall s, s ∈ l.steps -> IsStep s := by
  have hfind : (Place.top root).find? l = some p := hplace
  rw [Place.find?] at hfind
  by_cases hrelative : l.root.isEmpty = true
  · rw [if_pos hrelative] at hfind
    rcases (Place.wellNamed_top hroot).walk hfind with ⟨hp, hsteps⟩
    exact ⟨hp, String.isEmpty_iff.mp hrelative, hsteps⟩
  · rw [if_neg hrelative] at hfind
    cases hfind

theorem wellNamed_folderAt (hroot : root.WellNamed) (l : Location) :
    (root.folderAt l).WellNamed :=
  fun _p hplace => (wellNamed_of_place hroot hplace).left

theorem noNul_of_found (hroot : root.WellNamed) {l : Location} {pairs : List (String × String)}
    {f : Found} (hf : f ∈ firsts Found.steps ((root.folderAt l).listed pairs)) :
    Char.ofNat 0 ∉ ((root.folderAt l).locationOf f).text.toList := by
  rcases exists_pattern hf with ⟨pattern, hfile⟩
  rcases exists_place hfile with ⟨_steps, p, hplace, _hfile⟩
  rcases wellNamed_of_place hroot hplace with ⟨_hp, hrelative, hsteps⟩
  have hlocation : (root.folderAt l).locationOf f = ⟨"", l.steps ++ f.steps⟩ := by
    rw [← hrelative]
    rfl
  rw [hlocation]
  exact Location.noNul_text (List.forall_mem_append.mpr
    ⟨hsteps, (wellNamed_folderAt hroot l).isStep_of_found hf⟩)

theorem files_file (contents : List UInt8) (l : Location) (steps : List Glob.Step) :
    Glob.filesBelow steps ((FileTree.file contents).folderAt l).place = [] := by
  show Glob.filesBelow steps ((Place.top (.file contents)).find? l) = []
  rw [Place.find?]
  by_cases hrelative : l.root.isEmpty = true
  · rw [if_pos hrelative]
    cases l.steps with
    | nil => exact Glob.filesBelow_file rfl
    | cons step rest => rfl
  · rw [if_neg hrelative]
    rfl

theorem filesBelow_folderAt_sift (hroot : root.WellNamed) (l : Location)
    (steps : List Glob.Step) :
    Glob.filesBelow steps ((root.sift keeps []).folderAt l).place =
      (Glob.filesBelow steps (root.folderAt l).place).filter (Glob.File.kept keeps l.way) := by
  cases root with
  | file contents =>
      rw [FileTree.sift, files_file]
      rfl
  | folder entries =>
      rw [← Glob.filesBelow_sift (wellNamed_folderAt hroot l)]
      congr 1
      show Place.find? ((Place.top (.folder entries)).sift keeps []) l = _
      rw [Place.find?]
      by_cases hrelative : l.root.isEmpty = true
      · rw [if_pos hrelative, (Place.wellNamed_top hroot).walk?_sift rfl]
        show _ = (((Place.top (.folder entries)).find? l).filter _).map _
        rw [Place.find?, if_pos hrelative]
        rfl
      · rw [if_neg hrelative]
        show none = (((Place.top (.folder entries)).find? l).filter _).map _
        rw [Place.find?, if_neg hrelative]
        rfl

theorem files_sift (hroot : root.WellNamed) (l : Location) (pattern : String) :
    Glob.files pattern ((root.sift keeps []).folderAt l).place =
      (Glob.files pattern (root.folderAt l).place).map
        (List.filter (Glob.File.kept keeps l.way)) := by
  rw [Glob.files_eq, Glob.files_eq]
  cases Glob.read pattern with
  | error fault => rfl
  | ok steps => exact congrArg Except.ok (filesBelow_folderAt_sift hroot l steps)

theorem filesOf_sift (hroot : root.WellNamed) (l : Location) (pattern : String) :
    ((root.sift keeps []).folderAt l).filesOf pattern =
      ((root.folderAt l).filesOf pattern).filter (Glob.File.kept keeps l.way) := by
  rw [filesOf, files_sift hroot, filesOf]
  cases Glob.files pattern (root.folderAt l).place <;> rfl

def Found.kept (keeps : List String -> Bool) (l : Location) (f : Found) : Bool :=
  keeps (l.below f.steps).way

/-- What is found is what is left of what was found before, for the same owners. -/
theorem discoverOwned_sift (hroot : root.WellNamed) {l : Location} {r : Registry} {name : String}
    {found : List Found} (hfound : (root.folderAt l).discoverOwned r name = .ok found) :
    ((root.sift keeps []).folderAt l).discoverOwned r name =
      .ok (found.filter (Found.kept keeps l)) := by
  have hkept : forall f : Found, Found.kept keeps l f = Glob.File.kept keeps l.way f.file := by
    intro f
    rw [Found.kept, Location.way, Location.below, List.foldl_append]
    rfl
  rcases discoverOwned_eq_ok.mp hfound with ⟨pairs, hpairs, hfiles, heq⟩
  refine discoverOwned_eq_ok.mpr ⟨pairs, hpairs, ?_, ?_⟩
  · intro p hp
    rw [files_sift hroot, hfiles p hp, filesOf_sift hroot]
    rfl
  · have hlisted : ((root.sift keeps []).folderAt l).listed pairs =
        ((root.folderAt l).listed pairs).filter (Found.kept keeps l) := by
      rw [listed, listed, List.filter_flatMap]
      congr 1
      funext p
      rw [filesOf_sift hroot, List.filter_map]
      congr 2
      funext file
      exact (hkept ⟨p.1, file⟩).symm
    rw [heq, hlisted]
    exact (firsts_filter (fun steps => keeps (l.below steps).way) _).symm

end ContentFolder
end ContentSchema
