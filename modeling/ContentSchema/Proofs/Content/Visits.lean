import ContentSchema.Content.Glob
import ContentSchema.Proofs.Entries
import Mathlib.Data.List.Basic

/-!
# Visits to well-named trees

The entries of a folder have distinct names, and each name can stand between the slashes of a
path.  So whatever is visited below a place of such a tree, the steps that lead there are names
of entries and steps upwards.  They can be read off the text of the path again, and different
files have different paths.
-/

namespace ContentSchema

structure IsName (name : String) : Prop where
  filled : name ≠ ""
  noSlash : '/' ∉ name.toList
  noNul : Char.ofNat 0 ∉ name.toList
  notHere : name ≠ "."
  notUp : name ≠ ".."

instance (name : String) : Decidable (IsName name) :=
  decidable_of_iff
    (name ≠ "" ∧ '/' ∉ name.toList ∧ Char.ofNat 0 ∉ name.toList ∧ name ≠ "." ∧ name ≠ "..")
    ⟨fun h => ⟨h.1, h.2.1, h.2.2.1, h.2.2.2.1, h.2.2.2.2⟩,
      fun h => ⟨h.filled, h.noSlash, h.noNul, h.notHere, h.notUp⟩⟩

def IsStep (step : String) : Prop :=
  IsName step ∨ step = ".."

theorem IsStep.noSlash {step : String} (h : IsStep step) : '/' ∉ step.toList := by
  rcases h with h | h
  · exact h.noSlash
  · rw [h]
    decide

theorem IsStep.noNul {step : String} (h : IsStep step) : Char.ofNat 0 ∉ step.toList := by
  rcases h with h | h
  · exact h.noNul
  · rw [h]
    decide

theorem IsStep.notHere {step : String} (h : IsStep step) : step ≠ "." := by
  rcases h with h | h
  · exact h.notHere
  · rw [h]
    decide

/-!
## Trees and places
-/

namespace FileTree

/-- All folders have entries with distinct names, and all of these are names. -/
inductive WellNamed : FileTree -> Prop
  | file (contents : List UInt8) : WellNamed (.file contents)
  | folder {entries : List (String × FileTree)} :
      (Entries.keys entries).Nodup -> (forall e, e ∈ entries -> IsName e.1) ->
      (forall e, e ∈ entries -> WellNamed e.2) -> WellNamed (.folder entries)

theorem WellNamed.nodup {t : FileTree} (h : t.WellNamed) : (Entries.keys t.entries).Nodup := by
  cases h with
  | file contents => exact List.nodup_nil
  | folder hnodup _ _ => exact hnodup

theorem WellNamed.entry {t : FileTree} (h : t.WellNamed) {e : String × FileTree}
    (he : e ∈ t.entries) : IsName e.1 ∧ e.2.WellNamed := by
  cases h with
  | file contents => cases he
  | folder _ hnames htrees => exact ⟨hnames e he, htrees e he⟩

theorem isFolder_of_entry {t : FileTree} {e : String × FileTree} (he : e ∈ t.entries) :
    t.isFolder = true := by
  cases t with
  | file contents => cases he
  | folder entries => rfl

theorem tree_induction {motive : FileTree -> Prop}
    (file : forall contents, motive (.file contents))
    (folder : forall entries, (forall e, e ∈ entries -> motive e.2) -> motive (.folder entries)) :
    forall t, motive t
  | .file contents => file contents
  | .folder entries => folder entries (fun e _he => tree_induction file folder e.2)
termination_by t => sizeOf t
decreasing_by
  have hentry := List.sizeOf_lt_of_mem _he
  rcases e with ⟨name, tree⟩
  have htree : sizeOf tree < sizeOf (name, tree) := by
    rw [Prod.mk.sizeOf_spec]
    omega
  show sizeOf tree < sizeOf (FileTree.folder entries)
  rw [FileTree.folder.sizeOf_spec]
  omega

end FileTree

namespace Place

structure WellNamed (p : Place) : Prop where
  tree : p.tree.WellNamed
  around : forall t, t ∈ p.around -> t.WellNamed ∧ t.isFolder = true

theorem wellNamed_top {tree : FileTree} (h : tree.WellNamed) : (top tree).WellNamed :=
  ⟨h, fun _t ht => absurd ht List.not_mem_nil⟩

theorem WellNamed.enter {p : Place} (h : p.WellNamed) {e : String × FileTree}
    (he : e ∈ p.tree.entries) : WellNamed ⟨e.2, p.tree :: p.around⟩ := by
  refine ⟨(h.tree.entry he).right, ?_⟩
  intro t ht
  rcases List.mem_cons.mp ht with ht | ht
  · rw [ht]
    exact ⟨h.tree, FileTree.isFolder_of_entry he⟩
  · exact h.around t ht

theorem step?_down {entries : List (String × FileTree)} {around : List FileTree} {name : String}
    (hname : name ≠ "..") :
    step? ⟨.folder entries, around⟩ name =
      (Entries.get? entries name).map (fun tree => ⟨tree, .folder entries :: around⟩) := by
  have hdown : (name == "..") = false := beq_false_of_ne hname
  simp only [step?, hdown, Bool.false_eq_true, if_false]

theorem WellNamed.step {p q : Place} (h : p.WellNamed) {name : String}
    (hq : p.step? name = some q) : q.WellNamed ∧ IsStep name := by
  rcases p with ⟨tree, around⟩
  cases tree with
  | file contents =>
      cases hq
  | folder entries =>
      by_cases hup : name = ".."
      · subst hup
        cases around with
        | nil =>
            cases hq
        | cons t rest =>
            injection hq with hq
            rw [← hq]
            exact ⟨⟨(h.around t List.mem_cons_self).left,
              fun t' ht' => h.around t' (List.mem_cons_of_mem _ ht')⟩, Or.inr rfl⟩
      · rw [step?_down hup] at hq
        rcases Option.map_eq_some_iff.mp hq with ⟨tree, htree, hq⟩
        have hentry := Entries.mem_of_get? htree
        rw [← hq]
        exact ⟨h.enter (e := (name, tree)) hentry,
          Or.inl (h.tree.entry (e := (name, tree)) hentry).left⟩

theorem WellNamed.walk {p q : Place} (h : p.WellNamed) {steps : List String}
    (hq : p.walk? steps = some q) : q.WellNamed ∧ forall s, s ∈ steps -> IsStep s := by
  induction steps generalizing p with
  | nil =>
      injection hq with hq
      rw [← hq]
      exact ⟨h, fun s hs => absurd hs List.not_mem_nil⟩
  | cons name rest ih =>
      rcases Option.bind_eq_some_iff.mp hq with ⟨next, hnext, hrest⟩
      rcases h.step hnext with ⟨hnext, hname⟩
      rcases ih hnext hrest with ⟨hq, hsteps⟩
      exact ⟨hq, List.forall_mem_cons.mpr ⟨hname, hsteps⟩⟩

end Place

/-!
## Visits
-/

namespace Glob

structure Visit.WellNamed (v : Visit) : Prop where
  place : v.place.WellNamed
  trail : forall s, s ∈ v.trail -> IsStep s

theorem Visit.WellNamed.step {v w : Visit} (h : v.WellNamed) {name : String}
    (hw : v.step? name = some w) : w.WellNamed := by
  rcases Option.map_eq_some_iff.mp hw with ⟨p, hp, hw⟩
  rcases h.place.step hp with ⟨hplace, hname⟩
  rw [← hw]
  exact ⟨hplace, List.forall_mem_cons.mpr ⟨hname, h.trail⟩⟩

def Visit.child (v : Visit) (e : String × FileTree) : Visit :=
  ⟨⟨e.2, v.place.tree :: v.place.around⟩, e.1 :: v.trail⟩

theorem Visit.children_eq (v : Visit) : v.children = v.place.tree.entries.map v.child :=
  rfl

theorem Visit.WellNamed.child {v : Visit} (h : v.WellNamed) {e : String × FileTree}
    (he : e ∈ v.place.tree.entries) : (v.child e).WellNamed :=
  ⟨h.place.enter he,
    List.forall_mem_cons.mpr ⟨Or.inl (h.place.tree.entry he).left, h.trail⟩⟩

theorem Visit.WellNamed.children {v w : Visit} (h : v.WellNamed) (hw : w ∈ v.children) :
    w.WellNamed := by
  rcases List.mem_map.mp hw with ⟨e, he, hw⟩
  rw [← hw]
  exact h.child he

def Visit.folders (v : Visit) : List Visit :=
  foldersIn v.place.around v.trail v.place.tree

theorem foldersAmong_eq (around : List FileTree) (trail : List String)
    (entries : List (String × FileTree)) :
    foldersAmong around trail entries =
      entries.flatMap (fun e => foldersIn around (e.1 :: trail) e.2) := by
  induction entries with
  | nil =>
      rfl
  | cons e rest ih =>
      rw [foldersAmong, ih, List.flatMap_cons]

theorem Visit.folders_file {v : Visit} {contents : List UInt8}
    (h : v.place.tree = .file contents) : v.folders = [] := by
  rw [folders, h]
  rfl

theorem Visit.folders_folder {v : Visit} {entries : List (String × FileTree)}
    (h : v.place.tree = .folder entries) :
    v.folders = v :: entries.flatMap (fun e => (v.child e).folders) := by
  rcases v with ⟨⟨tree, around⟩, trail⟩
  subst h
  show foldersIn around trail (.folder entries) = _
  rw [foldersIn, foldersAmong_eq]
  rfl

theorem Visit.WellNamed.folders {v w : Visit} (h : v.WellNamed) (hw : w ∈ v.folders) :
    w.WellNamed := by
  induction htree : v.place.tree using FileTree.tree_induction generalizing v with
  | file contents =>
      rw [Visit.folders_file htree] at hw
      cases hw
  | folder entries ih =>
      rw [Visit.folders_folder htree] at hw
      rcases List.mem_cons.mp hw with hw | hw
      · rw [hw]
        exact h
      · rcases List.mem_flatMap.mp hw with ⟨e, he, hw⟩
        have hentry : e ∈ v.place.tree.entries := by
          rw [htree]
          exact he
        exact ih e he (h.child hentry) hw rfl

theorem Visit.isFolder_of_mem_folders {v w : Visit} (hw : w ∈ v.folders) : w.isFolder = true := by
  induction htree : v.place.tree using FileTree.tree_induction generalizing v with
  | file contents =>
      rw [Visit.folders_file htree] at hw
      cases hw
  | folder entries ih =>
      rw [Visit.folders_folder htree] at hw
      rcases List.mem_cons.mp hw with hw | hw
      · rw [hw, Visit.isFolder, htree]
        rfl
      · rcases List.mem_flatMap.mp hw with ⟨e, he, hw⟩
        exact ih e he hw rfl

theorem Visit.WellNamed.select {steps : List Step} {v w : Visit} (h : v.WellNamed)
    (hw : w ∈ select steps v) : w.WellNamed := by
  induction steps generalizing v with
  | nil =>
      rw [List.mem_singleton.mp hw]
      exact h
  | cons step rest ih =>
      cases step with
      | exactly name =>
          rw [Glob.select] at hw
          cases hstep : v.step? name with
          | none =>
              rw [hstep] at hw
              cases hw
          | some u =>
              simp only [hstep] at hw
              by_cases hgoes : (rest.isEmpty || u.isFolder) = true
              · rw [if_pos hgoes] at hw
                exact ih (h.step hstep) hw
              · rw [if_neg hgoes] at hw
                cases hw
      | matching parts =>
          rcases List.mem_flatMap.mp hw with ⟨u, hu, hw⟩
          exact ih (h.children (List.mem_filter.mp hu).left) hw
      | anyFolders =>
          rcases List.mem_flatMap.mp hw with ⟨u, hu, hw⟩
          exact ih (h.folders hu) hw
      | here =>
          rw [List.mem_singleton.mp hw]
          exact h

/-!
## Files
-/

def filesAt (steps : List Step) (p : Place) : List File :=
  (select steps ⟨p, []⟩).filterMap Visit.file?

def filesBelow (steps : List Step) : Option Place -> List File
  | none => []
  | some p =>
      if p.tree.isFolder then
        (filesAt steps p).mergeSort (fun a b => Location.stepsBefore a.steps b.steps)
      else []

theorem files_eq (pattern : String) (folder : Option Place) :
    files pattern folder = do return filesBelow (← read pattern) folder := by
  rw [files]
  congr 1
  funext steps
  cases folder with
  | none =>
      rfl
  | some p =>
      by_cases hfolder : p.tree.isFolder = true
      · simp only [filesBelow, hfolder, if_true]
        rfl
      · simp only [filesBelow, hfolder, Bool.false_eq_true, if_false]

theorem files_of_sorted {pattern : String} {steps : List Step} {p : Place}
    (hread : read pattern = .ok steps) (hfolder : p.tree.isFolder = true)
    (hsorted : (filesAt steps p).Pairwise
      (fun a b => Location.stepsBefore a.steps b.steps = true)) :
    files pattern (some p) = .ok (filesAt steps p) := by
  rw [files_eq, hread]
  show Except.ok (filesBelow steps (some p)) = _
  rw [filesBelow, if_pos hfolder, List.mergeSort_of_pairwise hsorted]

theorem isStep_of_mem_filesBelow {steps : List Step} {p : Place} (hp : p.WellNamed) {file : File}
    (hfile : file ∈ filesBelow steps (some p)) : forall s, s ∈ file.steps -> IsStep s := by
  have hselected : file ∈ filesAt steps p := by
    rw [filesBelow] at hfile
    by_cases hfolder : p.tree.isFolder = true
    · rw [if_pos hfolder] at hfile
      exact (List.mergeSort_perm _ _).mem_iff.mp hfile
    · rw [if_neg hfolder] at hfile
      cases hfile
  rcases List.mem_filterMap.mp hselected with ⟨v, hv, hfile⟩
  have hstart : Visit.WellNamed ⟨p, []⟩ := ⟨hp, fun _s hs => absurd hs List.not_mem_nil⟩
  have hnamed := hstart.select hv
  rw [Visit.file?] at hfile
  cases htree : v.place.tree with
  | folder entries =>
      rw [htree] at hfile
      cases hfile
  | file contents =>
      rw [htree] at hfile
      injection hfile with hfile
      intro s hs
      rw [← hfile] at hs
      exact hnamed.trail s (List.mem_reverse.mp hs)

end Glob

/-!
## Paths
-/

theorem Location.toList_text {steps : List String} (hsteps : steps ≠ []) :
    (Location.mk "" steps).text.toList = ['/'].intercalate (steps.map String.toList) := by
  rw [text, if_neg (by simpa using hsteps), String.toList_append, String.toList_intercalate]
  rfl

theorem Location.splitOn_text {steps : List String} (hsteps : forall s, s ∈ steps -> IsStep s) :
    (Location.mk "" steps).text.toList.splitOn '/' =
      if steps.isEmpty then [['.']] else steps.map String.toList := by
  cases steps with
  | nil =>
      decide
  | cons first rest =>
      rw [toList_text (List.cons_ne_nil _ _), List.splitOn_intercalate]
      · rfl
      · intro step hstep
        rcases List.mem_map.mp hstep with ⟨s, hs, hstep⟩
        rw [← hstep]
        exact (hsteps s hs).noSlash
      · exact List.cons_ne_nil _ _

theorem not_mem_intercalate {separator : List Char} {texts : List (List Char)} {c : Char}
    (hseparator : c ∉ separator) (htexts : forall text, text ∈ texts -> c ∉ text) :
    c ∉ separator.intercalate texts := by
  induction texts with
  | nil =>
      exact List.not_mem_nil
  | cons text rest ih =>
      rcases List.forall_mem_cons.mp htexts with ⟨htext, hrest⟩
      cases rest with
      | nil =>
          rw [List.intercalate_singleton]
          exact htext
      | cons next later =>
          rw [List.intercalate_cons_cons, List.mem_append, List.mem_append]
          exact not_or.mpr ⟨not_or.mpr ⟨htext, hseparator⟩, ih hrest⟩

theorem Location.noNul_text {steps : List String} (hsteps : forall s, s ∈ steps -> IsStep s) :
    Char.ofNat 0 ∉ (Location.mk "" steps).text.toList := by
  cases steps with
  | nil =>
      decide
  | cons first rest =>
      rw [toList_text (List.cons_ne_nil _ _)]
      refine not_mem_intercalate (by decide) ?_
      intro step hstep
      rcases List.mem_map.mp hstep with ⟨s, hs, hstep⟩
      rw [← hstep]
      exact (hsteps s hs).noNul

/-- The text of a path tells the steps. -/
theorem Location.text_injective {steps others : List String}
    (hsteps : forall s, s ∈ steps -> IsStep s) (hothers : forall s, s ∈ others -> IsStep s)
    (h : (Location.mk "" steps).text = (Location.mk "" others).text) : steps = others := by
  have hinjective : Function.Injective (List.map String.toList) :=
    List.map_injective_iff.mpr (fun _ _ => String.toList_inj.mp)
  have hdot : forall {path : List String}, (forall s, s ∈ path -> IsStep s) ->
      path.map String.toList ≠ [['.']] := by
    intro path hpath hdot
    have hhere : path = ["."] := hinjective hdot
    rw [hhere] at hpath
    exact (hpath "." List.mem_cons_self).notHere rfl
  have hsplit := congrArg (fun t : String => t.toList.splitOn '/') h
  simp only [splitOn_text hsteps, splitOn_text hothers] at hsplit
  cases steps with
  | nil =>
      cases others with
      | nil => rfl
      | cons other later => exact absurd hsplit.symm (hdot hothers)
  | cons first rest =>
      cases others with
      | nil => exact absurd hsplit (hdot hsteps)
      | cons other later => exact hinjective hsplit

end ContentSchema
