import ContentSchema.Proofs.Frozen
import Mathlib.Data.List.Forall2

/-!
# Freezing and thawing

Freezing and thawing rebuild a tree from the inside out.  What has been frozen stays as it is
when it is frozen again, and so does what has been thawed.  On trees of scalars, lists and
mappings thawing undoes freezing; on trees without sets it does so up to the kind of sequence.
Both leave the keys of mappings alone, wherever the mappings stand.
-/

namespace ContentSchema
namespace Value

/-!
## Freezing
-/

@[simp] theorem freezeAll_eq_map (items : List Value) : freezeAll items = items.map freeze := by
  induction items with
  | nil =>
      rfl
  | cons v rest ih =>
      rw [freezeAll, ih, List.map_cons]

@[simp] theorem freezeEntries_eq_map (entries : List (Value × Value)) :
    freezeEntries entries = entries.map (fun e => (e.1, e.2.freeze)) := by
  induction entries with
  | nil =>
      rfl
  | cons e rest ih =>
      rw [freezeEntries, ih, List.map_cons]

theorem freeze_of_isScalar {v : Value} (h : v.isScalar = true) : v.freeze = v := by
  cases v <;> first | rfl | cases h

theorem map_freeze_freeze {items : List Value}
    (h : forall v, v ∈ items -> v.freeze.freeze = v.freeze) :
    (items.map freeze).map freeze = items.map freeze := by
  rw [List.map_map]
  exact List.map_congr_left h

@[simp] theorem freeze_freeze (v : Value) : v.freeze.freeze = v.freeze := by
  induction v using held_induction with
  | scalar v hv =>
      rw [freeze_of_isScalar hv, freeze_of_isScalar hv]
  | mapping entries ih =>
      simp only [freeze, freezeEntries_eq_map, List.map_map]
      exact congrArg mapping (List.map_congr_left (fun e he => Prod.ext rfl (ih e he)))
  | _ items ih =>
      simp [freeze, map_freeze_freeze ih]

theorem thawAll?_map {items : List Value} {f g : Value -> Value}
    (h : forall v, v ∈ items -> (f v).thaw? = some (g v)) :
    thawAll? (items.map f) = some (items.map g) := by
  induction items with
  | nil =>
      rfl
  | cons v rest ih =>
      rcases List.forall_mem_cons.mp h with ⟨hv, hrest⟩
      rw [List.map_cons, thawAll?, hv, ih hrest]
      rfl

theorem thawEntries?_map {entries : List (Value × Value)} {f g : Value -> Value}
    (h : forall e, e ∈ entries -> (f e.2).thaw? = some (g e.2)) :
    thawEntries? (entries.map (fun e => (e.1, f e.2))) =
      some (entries.map (fun e => (e.1, g e.2))) := by
  induction entries with
  | nil =>
      rfl
  | cons e rest ih =>
      rcases List.forall_mem_cons.mp h with ⟨he, hrest⟩
      rw [List.map_cons, thawEntries?, he, ih hrest]
      rfl

theorem thaw?_of_isScalar {v : Value} (h : v.isScalar = true) : v.thaw? = some v := by
  cases v <;> first | rfl | cases h

theorem perm_of_insertOrdered? {v : Value} {items sorted : List Value}
    (h : insertOrdered? v items = some sorted) : sorted.Perm (v :: items) := by
  induction items generalizing sorted with
  | nil =>
      injection h with h
      rw [← h]
  | cons x rest ih =>
      rcases Option.bind_eq_some_iff.mp h with ⟨isBefore, _hbefore, h⟩
      cases isBefore with
      | true =>
          injection h with h
          rw [← h]
      | false =>
          rcases Option.bind_eq_some_iff.mp h with ⟨later, hlater, h⟩
          injection h with h
          rw [← h]
          exact ((ih hlater).cons x).trans (.swap v x rest)

theorem perm_of_sorted? {items sorted : List Value} (h : sorted? items = some sorted) :
    sorted.Perm items := by
  have hfold : forall done, items.foldlM (fun acc v => insertOrdered? v acc) done = some sorted ->
      sorted.Perm (done ++ items) := by
    clear h
    induction items with
    | nil =>
        intro done h
        injection h with h
        rw [h, List.append_nil]
    | cons v rest ih =>
        intro done h
        rcases Option.bind_eq_some_iff.mp h with ⟨next, hnext, h⟩
        have hput := (perm_of_insertOrdered? hnext).append_right rest
        exact ((ih next h).trans hput).trans List.perm_middle.symm
  exact hfold [] h

theorem thawAll?_fixed {items : List Value} (h : forall v, v ∈ items -> v.thaw? = some v) :
    thawAll? items = some items := by
  have hmap := thawAll?_map (f := id) (g := id) h
  rwa [List.map_id] at hmap

theorem mem_thawed {items thawed : List Value} (h : thawAll? items = some thawed) {w : Value}
    (hw : w ∈ thawed) : exists v, v ∈ items ∧ v.thaw? = some w := by
  rcases thawAll?_eq_some.mp h with ⟨hthaws, hthawed⟩
  rw [hthawed] at hw
  rcases List.mem_map.mp hw with ⟨v, hv, hvw⟩
  exact ⟨v, hv, thaw?_eq_some.mpr ⟨hthaws v hv, hvw.symm⟩⟩

/-- What has been thawed stays as it is when it is thawed again. -/
theorem thaw?_of_thaw? {v w : Value} (h : v.thaw? = some w) : w.thaw? = some w := by
  induction v using held_induction generalizing w with
  | scalar v hv =>
      rw [thaw?_of_isScalar hv] at h
      injection h with h
      rw [← h, thaw?_of_isScalar hv]
  | set items _ih =>
      injection h with h
      rw [← h]
      rfl
  | mapping entries ih =>
      rcases Option.map_eq_some_iff.mp h with ⟨thawed, hthawed, hw⟩
      rcases thawEntries?_eq_some.mp hthawed with ⟨hthaws, hmap⟩
      have hagain : thawEntries? thawed = some thawed := by
        rw [hmap]
        exact thawEntries?_map (fun e he => ih e he (thaw?_eq_some.mpr ⟨hthaws e he, rfl⟩))
      rw [← hw, thaw?, hagain]
      rfl
  | frozenSet items ih =>
      rcases Option.bind_eq_some_iff.mp h with ⟨thawed, hthawed, h⟩
      rcases Option.map_eq_some_iff.mp h with ⟨sorted, hsorted, hw⟩
      -- sorting moves the members but keeps them
      have hfixed : forall u, u ∈ sorted -> u.thaw? = some u := by
        intro u hu
        rcases mem_thawed hthawed ((perm_of_sorted? hsorted).mem_iff.mp hu) with ⟨v, hv, hvu⟩
        exact ih v hv hvu
      rw [← hw, thaw?, thawAll?_fixed hfixed]
      rfl
  | _ items ih =>
      rcases Option.map_eq_some_iff.mp h with ⟨thawed, hthawed, hw⟩
      have hfixed : forall u, u ∈ thawed -> u.thaw? = some u := by
        intro u hu
        rcases mem_thawed hthawed hu with ⟨v, hv, hvu⟩
        exact ih v hv hvu
      rw [← hw, thaw?, thawAll?_fixed hfixed]
      rfl

theorem forall₂_thawed {R : Value -> Value -> Prop} {items thawed : List Value}
    (hR : forall v, v ∈ items -> forall {w}, v.thaw? = some w -> R v w)
    (h : thawAll? items = some thawed) : List.Forall₂ R items thawed := by
  rcases thawAll?_eq_some.mp h with ⟨hthaws, hthawed⟩
  rw [hthawed, List.forall₂_map_right_iff, List.forall₂_same]
  exact fun v hv => hR v hv (thaw?_eq_some.mpr ⟨hthaws v hv, rfl⟩)

/-!
## Thawing what is frozen
-/

/-- A tree of scalars, lists and mappings.  Keys of mappings may be anything. -/
inductive IsPlain : Value -> Prop
  | scalar {v : Value} : v.isScalar = true -> IsPlain v
  | list {items : List Value} : (forall v, v ∈ items -> IsPlain v) -> IsPlain (.list items)
  | mapping {entries : List (Value × Value)} :
      (forall e, e ∈ entries -> IsPlain e.2) -> IsPlain (.mapping entries)

theorem IsPlain.thaw?_freeze {v : Value} (h : v.IsPlain) : v.freeze.thaw? = some v := by
  induction h with
  | scalar hv =>
      rw [freeze_of_isScalar hv, thaw?_of_isScalar hv]
  | list _hitems ih =>
      rw [freeze, thaw?, freezeAll_eq_map, thawAll?_map (g := id) ih, List.map_id]
      rfl
  | mapping _hentries ih =>
      rw [freeze, thaw?, freezeEntries_eq_map, thawEntries?_map (g := id) ih]
      simp

/-- Freezing before thawing changes nothing about the value, and what has been thawed freezes to
what the value freezes to. -/
def Unfreezes (v w : Value) : Prop :=
  v.thaw? = some w ∧ v.freeze.thaw? = some w ∧ w.freeze = v.freeze

theorem unfreezes_items {items : List Value}
    (h : forall v, v ∈ items -> v.Unfreezes v.thawedForm) :
    exists thawed, thawAll? items = some thawed ∧ thawAll? (freezeAll items) = some thawed ∧
      freezeAll thawed = freezeAll items := by
  rw [freezeAll_eq_map]
  refine ⟨items.map thawedForm, ?_, thawAll?_map (fun v hv => (h v hv).right.left), ?_⟩
  · have hitems := thawAll?_map (f := id) (fun v hv => (h v hv).left)
    rwa [List.map_id] at hitems
  · rw [freezeAll_eq_map, List.map_map]
    exact List.map_congr_left (fun v hv => (h v hv).right.right)

theorem unfreezes_entries {entries : List (Value × Value)}
    (h : forall e, e ∈ entries -> e.2.Unfreezes e.2.thawedForm) :
    exists thawed, thawEntries? entries = some thawed ∧
      thawEntries? (freezeEntries entries) = some thawed ∧
      freezeEntries thawed = freezeEntries entries := by
  rw [freezeEntries_eq_map]
  refine ⟨_, ?_, thawEntries?_map (fun e he => (h e he).right.left), ?_⟩
  · have hentries := thawEntries?_map (f := id) (fun e he => (h e he).left)
    simpa using hentries
  · rw [freezeEntries_eq_map, List.map_map]
    exact List.map_congr_left (fun e he => Prod.ext rfl (h e he).right.right)

theorem Unfreezes.thawedForm {v w : Value} (h : v.Unfreezes w) : v.Unfreezes v.thawedForm := by
  rw [← (thaw?_eq_some.mp h.left).right]
  exact h

theorem SetFree.unfreezes {v : Value} (h : v.SetFree) : v.Unfreezes v.thawedForm := by
  induction v using held_induction with
  | scalar v hv =>
      have hv' : v.Unfreezes v := by
        rw [Unfreezes, freeze_of_isScalar hv]
        exact ⟨thaw?_of_isScalar hv, thaw?_of_isScalar hv, rfl⟩
      exact hv'.thawedForm
  | list items ih =>
      rcases unfreezes_items (fun v hv => ih v hv (h.of_inside (fun _w hw => .list hv hw))) with
        ⟨thawed, hthaw, hfrozen, hagain⟩
      have hlist : (Value.list items).Unfreezes (.list thawed) := by
        rw [Unfreezes, freeze, freeze, thaw?, thaw?, hthaw, hfrozen, hagain]
        exact ⟨rfl, rfl, rfl⟩
      exact hlist.thawedForm
  | tuple items ih =>
      rcases unfreezes_items (fun v hv => ih v hv (h.of_inside (fun _w hw => .tuple hv hw))) with
        ⟨thawed, hthaw, hfrozen, hagain⟩
      have htuple : (Value.tuple items).Unfreezes (.list thawed) := by
        rw [Unfreezes, freeze, freeze, thaw?, thaw?, hthaw, hfrozen, hagain]
        exact ⟨rfl, rfl, rfl⟩
      exact htuple.thawedForm
  | mapping entries ih =>
      rcases unfreezes_entries (fun e he => ih e he (h.of_inside (fun _w hw => .entry he hw))) with
        ⟨thawed, hthaw, hfrozen, hagain⟩
      have hmapping : (Value.mapping entries).Unfreezes (.mapping thawed) := by
        rw [Unfreezes, freeze, freeze, thaw?, thaw?, hthaw, hfrozen, hagain]
        exact ⟨rfl, rfl, rfl⟩
      exact hmapping.thawedForm
  | set items _ih =>
      exact absurd .here (h items).left
  | frozenSet items _ih =>
      exact absurd .here (h items).right

/-!
## Keys

Freezing and thawing turn one container into another, but a mapping stays a mapping.
-/

/-- The items of a sequence or the members of a set, which are in no order of their own. -/
def contents? : Value -> Option (List Value)
  | list items => some items
  | tuple items => some items
  | set items => some items
  | frozenSet items => some items
  | _ => none

/-- The second value has the mappings of the first one at the same places, with the same keys in
the same order.  Where a frozen set was sorted, the places of its members have changed. -/
inductive KeepsKeys : Value -> Value -> Prop
  | scalar {v : Value} : v.isScalar = true -> KeepsKeys v v
  | mapping {entries others : List (Value × Value)} :
      Entries.keys entries = Entries.keys others ->
      List.Forall₂ (fun e f => KeepsKeys e.2 f.2) entries others ->
      KeepsKeys (.mapping entries) (.mapping others)
  | contents {v w : Value} {items others : List Value} :
      v.contents? = some items -> w.contents? = some others ->
      List.Forall₂ KeepsKeys items others -> KeepsKeys v w
  | sorted {items others sorted : List Value} :
      List.Forall₂ KeepsKeys items others -> others.Perm sorted ->
      KeepsKeys (.frozenSet items) (.list sorted)

theorem forall₂_map {α : Type} {R : α -> α -> Prop} {xs : List α} {f : α -> α}
    (h : forall x, x ∈ xs -> R x (f x)) : List.Forall₂ R xs (xs.map f) := by
  rw [List.forall₂_map_right_iff, List.forall₂_same]
  exact h

theorem keepsKeys_refl (v : Value) : v.KeepsKeys v := by
  induction v using held_induction with
  | scalar v hv =>
      exact .scalar hv
  | mapping entries ih =>
      exact .mapping rfl (List.forall₂_same.mpr ih)
  | _ items ih =>
      exact .contents rfl rfl (List.forall₂_same.mpr ih)

theorem keepsKeys_freeze (v : Value) : v.KeepsKeys v.freeze := by
  induction v using held_induction with
  | scalar v hv =>
      rw [freeze_of_isScalar hv]
      exact .scalar hv
  | mapping entries ih =>
      rw [freeze, freezeEntries_eq_map]
      exact .mapping (Entries.keys_map freeze entries).symm (forall₂_map ih)
  | _ items ih =>
      rw [freeze, freezeAll_eq_map]
      exact .contents rfl rfl (forall₂_map ih)

theorem keepsKeys_thaw {v w : Value} (h : v.thaw? = some w) : v.KeepsKeys w := by
  induction v using held_induction generalizing w with
  | scalar v hv =>
      rw [thaw?_of_isScalar hv] at h
      injection h with h
      rw [← h]
      exact .scalar hv
  | mapping entries ih =>
      rcases Option.map_eq_some_iff.mp h with ⟨thawed, hthawed, hw⟩
      rcases thawEntries?_eq_some.mp hthawed with ⟨hthaws, hmap⟩
      rw [← hw, hmap]
      exact .mapping (Entries.keys_map thawedForm entries).symm
        (forall₂_map (fun e he => ih e he (thaw?_eq_some.mpr ⟨hthaws e he, rfl⟩)))
  | set items _ih =>
      injection h with h
      rw [← h]
      exact keepsKeys_refl _
  | frozenSet items ih =>
      rcases Option.bind_eq_some_iff.mp h with ⟨thawed, hthawed, h⟩
      rcases Option.map_eq_some_iff.mp h with ⟨sorted, hsorted, hw⟩
      rw [← hw]
      exact .sorted (forall₂_thawed ih hthawed) (perm_of_sorted? hsorted).symm
  | _ items ih =>
      rcases Option.map_eq_some_iff.mp h with ⟨thawed, hthawed, hw⟩
      rw [← hw]
      exact .contents rfl rfl (forall₂_thawed ih hthawed)

/-!
## The laws of freezing and thawing
-/

/-- Freezing twice is freezing once, and thawing twice is thawing once wherever it succeeds.  A
tree of scalars, lists and mappings is what thawing makes of its frozen form; of a tree without
sets, thawing makes the same before and after it is frozen, and the thawed tree freezes to what the
tree freezes to.  Every mapping keeps its keys and their order. -/
theorem freeze_thaw_inverse (v : Value) :
    v.freeze.freeze = v.freeze ∧
    (forall w, v.thaw? = some w -> w.thaw? = some w) ∧
    (v.IsPlain -> v.freeze.thaw? = some v) ∧
    (v.SetFree -> exists w, v.freeze.thaw? = some w ∧ v.thaw? = some w ∧ w.freeze = v.freeze) ∧
    v.KeepsKeys v.freeze ∧
    (forall w, v.thaw? = some w -> v.KeepsKeys w) := by
  refine ⟨freeze_freeze v, fun w => thaw?_of_thaw?, IsPlain.thaw?_freeze, ?_, keepsKeys_freeze v,
    fun w => keepsKeys_thaw⟩
  intro hfree
  rcases hfree.unfreezes with ⟨hthaw, hfrozen, hagain⟩
  exact ⟨_, hfrozen, hthaw, hagain⟩

theorem sizes_freeze_thaw_inverse :
    exists tags size pairs sorted thawed,
      tags = mapping [(text "tags", list [text "new", list []]), (bool true, null)] ∧
      tags.IsPlain ∧
      tags.freeze = mapping [(text "tags", tuple [text "new", tuple []]), (bool true, null)] ∧
      tags.freeze.thaw? = some tags ∧
      size = tuple [int 3, mapping [(text "unit", text "cm")]] ∧ size.SetFree ∧
      thawed = list [int 3, mapping [(text "unit", text "cm")]] ∧
      size.freeze.thaw? = some thawed ∧ size.thaw? = some thawed ∧ thawed.freeze = size.freeze ∧
      pairs = frozenSet [tuple [int 2, int 0], tuple [int 1, int 5]] ∧
      sorted = list [list [int 1, int 5], list [int 2, int 0]] ∧
      pairs.thaw? = some sorted ∧ sorted.thaw? = some sorted ∧ pairs.KeepsKeys sorted := by
  let tags : Value := mapping [(text "tags", list [text "new", list []]), (bool true, null)]
  let size : Value := tuple [int 3, mapping [(text "unit", text "cm")]]
  let pairs : Value := frozenSet [tuple [int 2, int 0], tuple [int 1, int 5]]
  let sorted : Value := list [list [int 1, int 5], list [int 2, int 0]]
  have htags : tags.IsPlain := by
    refine .mapping (List.forall_mem_cons.mpr ⟨.list ?_, List.forall_mem_singleton.mpr ?_⟩)
    · exact List.forall_mem_cons.mpr ⟨.scalar rfl,
        List.forall_mem_singleton.mpr (.list (fun _v hv => absurd hv List.not_mem_nil))⟩
    · exact .scalar rfl
  have hsize : size.SetFree := by
    refine setFree_tuple (List.forall_mem_cons.mpr ⟨setFree_scalar rfl, ?_⟩)
    refine List.forall_mem_singleton.mpr (setFree_mapping (List.forall_mem_singleton.mpr ?_))
    exact ⟨setFree_scalar rfl, setFree_scalar rfl⟩
  have hpairs : pairs.thaw? = some sorted := by
    with_unfolding_all rfl
  rcases freeze_thaw_inverse tags with ⟨_, _, hplain, _⟩
  rcases freeze_thaw_inverse size with ⟨_, _, _, hfree, _⟩
  rcases freeze_thaw_inverse pairs with ⟨_, hthawed, _, _, _, hkeys⟩
  rcases hfree hsize with ⟨thawed, hfrozen, hthaw, hagain⟩
  have hthawedEq : thawed = list [int 3, mapping [(text "unit", text "cm")]] := by
    injection hthaw with hthaw
    exact hthaw.symm
  exact ⟨tags, size, pairs, sorted, thawed, rfl, htags, rfl, hplain htags, rfl, hsize, hthawedEq,
    hfrozen, hthaw, hagain, rfl, rfl, hpairs, hthawed _ hpairs, hkeys _ hpairs⟩

end Value
end ContentSchema
