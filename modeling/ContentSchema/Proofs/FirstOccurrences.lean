import ContentSchema.Proofs.Entries
import Mathlib.Data.List.Induction
import Mathlib.Data.List.Nodup

/-!
# First occurrences

Of elements with the same key the first one is kept.  Patterns are kept in this way when includes
are expanded, files when several patterns select them, and collections when documents are put
together by the collection that they belong to.
-/

namespace ContentSchema

variable {α κ : Type} [DecidableEq κ] {key : α -> κ}

/-- The elements whose keys do not come before them. -/
def firsts (key : α -> κ) : List α -> List α
  | [] => []
  | x :: rest => x :: (firsts key rest).filter (fun y => key y ≠ key x)

theorem firsts_sublist (key : α -> κ) (xs : List α) : (firsts key xs).Sublist xs := by
  induction xs with
  | nil =>
      exact List.Sublist.slnil
  | cons x rest ih =>
      exact (List.filter_sublist.trans ih).cons_cons x

theorem nodup_keys_firsts (key : α -> κ) (xs : List α) : ((firsts key xs).map key).Nodup := by
  induction xs with
  | nil =>
      exact List.nodup_nil
  | cons x rest ih =>
      refine List.nodup_cons.mpr ⟨?_, (List.filter_sublist.map key).nodup ih⟩
      intro hmem
      rcases List.mem_map.mp hmem with ⟨y, hy, hkey⟩
      have hne := (List.mem_filter.mp hy).right
      rw [hkey] at hne
      simp at hne

theorem find?_firsts (p : κ -> Bool) (xs : List α) :
    (firsts key xs).find? (fun x => p (key x)) = xs.find? (fun x => p (key x)) := by
  induction xs with
  | nil =>
      rfl
  | cons x rest ih =>
      rw [firsts, List.find?_cons, List.find?_cons]
      cases hx : p (key x) with
      | true =>
          rfl
      | false =>
          rw [← ih]
          simp only [List.find?_filter]
          congr 1
          funext y
          by_cases hy : key y = key x
          · simp [hy, hx]
          · simp [hy]

theorem mem_firsts_iff {xs : List α} {x : α} :
    x ∈ firsts key xs <-> xs.find? (fun y => key y = key x) = some x := by
  rw [← find?_firsts (fun k => decide (k = key x))]
  constructor
  · intro hx
    cases hfound : (firsts key xs).find? (fun y => key y = key x) with
    | none =>
        have hnone := List.find?_eq_none.mp hfound x hx
        simp at hnone
    | some y =>
        have hkey : key y = key x := by
          simpa using List.find?_some hfound
        rw [List.inj_on_of_nodup_map (nodup_keys_firsts key xs)
          (List.mem_of_find?_eq_some hfound) hx hkey]
  · exact List.mem_of_find?_eq_some

@[simp] theorem exists_mem_firsts_iff {xs : List α} {k : κ} :
    (exists x, x ∈ firsts key xs ∧ key x = k) <-> exists x, x ∈ xs ∧ key x = k := by
  constructor
  · intro h
    rcases h with ⟨x, hx, hkey⟩
    exact ⟨x, (firsts_sublist key xs).subset hx, hkey⟩
  · intro h
    rcases h with ⟨x, hx, hkey⟩
    have hsome : (xs.find? (fun y => key y = k)).isSome = true :=
      List.find?_isSome.mpr ⟨x, hx, decide_eq_true hkey⟩
    rcases Option.isSome_iff_exists.mp hsome with ⟨y, hy⟩
    have hfound := hy
    rw [← find?_firsts (fun k' => decide (k' = k))] at hfound
    exact ⟨y, List.mem_of_find?_eq_some hfound, by simpa using List.find?_some hy⟩

theorem firsts_filter (p : κ -> Bool) (xs : List α) :
    firsts key (xs.filter (fun x => p (key x))) = (firsts key xs).filter (fun x => p (key x)) := by
  induction xs with
  | nil =>
      rfl
  | cons x rest ih =>
      rw [firsts, List.filter_cons, List.filter_cons]
      cases hx : p (key x) with
      | true =>
          rw [if_pos rfl, if_pos rfl, firsts, ih, List.filter_filter, List.filter_filter]
          simp only [Bool.and_comm]
      | false =>
          rw [if_neg Bool.false_ne_true, if_neg Bool.false_ne_true, ih, List.filter_filter]
          congr 1
          funext y
          by_cases hy : key y = key x
          · rw [hy, hx, Bool.false_and]
          · simp [hy]

theorem firsts_append_singleton (xs : List α) (x : α) :
    firsts key (xs ++ [x]) =
      if key x ∈ xs.map key then firsts key xs else firsts key xs ++ [x] := by
  induction xs with
  | nil =>
      rfl
  | cons y rest ih =>
      rw [List.cons_append, firsts, firsts, ih, List.map_cons]
      by_cases hx : key x ∈ rest.map key
      · rw [if_pos hx, if_pos (List.mem_cons_of_mem _ hx)]
      · rw [if_neg hx, List.filter_append]
        by_cases hy : key x = key y
        · rw [if_pos (by rw [hy]; exact List.mem_cons_self)]
          simp [hy]
        · rw [if_neg (by simpa [hy] using hx)]
          simp [hy]

@[simp] theorem mem_keys_firsts {xs : List α} {k : κ} :
    k ∈ (firsts key xs).map key <-> k ∈ xs.map key := by
  rw [List.mem_map, List.mem_map, exists_mem_firsts_iff]

theorem firsts_append (xs ys : List α) :
    firsts key (xs ++ ys) =
      firsts key xs ++ (firsts key ys).filter (fun y => key y ∉ xs.map key) := by
  induction xs with
  | nil =>
      simp [firsts]
  | cons x rest ih =>
      rw [List.cons_append, firsts, firsts, ih, List.filter_append, List.filter_filter,
        List.cons_append]
      congr 2
      apply List.filter_congr
      intro y _hy
      simp [not_or]

theorem firsts_of_nodup {xs : List α} (h : (xs.map key).Nodup) : firsts key xs = xs := by
  induction xs with
  | nil =>
      rfl
  | cons x rest ih =>
      rcases List.nodup_cons.mp h with ⟨hfirst, hrest⟩
      rw [firsts, ih hrest, List.filter_eq_self.mpr]
      intro y hy
      have hne : key y ≠ key x := by
        intro hkey
        exact hfirst (hkey ▸ List.mem_map_of_mem hy)
      simpa using hne

@[simp] theorem firsts_firsts (xs : List α) : firsts key (firsts key xs) = firsts key xs :=
  firsts_of_nodup (nodup_keys_firsts key xs)

theorem firsts_append_congr {xs xs' ys ys' : List α} (hxs : firsts key xs = firsts key xs')
    (hys : firsts key ys = firsts key ys') :
    firsts key (xs ++ ys) = firsts key (xs' ++ ys') := by
  have hkeys (k : κ) : k ∈ xs.map key <-> k ∈ xs'.map key := by
    rw [← mem_keys_firsts, hxs, mem_keys_firsts]
  simp only [firsts_append, hxs, hys, hkeys]

theorem foldl_eq_firsts (xs : List α) :
    xs.foldl (fun acc x => if acc.any (fun y => key y = key x) then acc else acc ++ [x]) [] =
      firsts key xs := by
  induction xs using List.reverseRecOn with
  | nil =>
      rfl
  | append_singleton xs x ih =>
      have hpresent : (firsts key xs).any (fun y => key y = key x) = true <->
          key x ∈ xs.map key := by
        simp only [List.any_eq_true, decide_eq_true_eq, List.mem_map]
        exact exists_mem_firsts_iff
      rw [List.foldl_append, ih, List.foldl_cons, List.foldl_nil, firsts_append_singleton]
      exact if_congr hpresent rfl rfl

/-!
## Groups

Elements that are put to the others with their key make one group for each key, in the order of
first occurrences.
-/

def grouped {β : Type} (key : α -> κ) (value : α -> β) (xs : List α) : List (κ × List β) :=
  (firsts key xs).map (fun x => (key x, (xs.filter (fun y => key y = key x)).map value))

variable {β : Type} {value : α -> β}

@[simp] theorem keys_grouped (xs : List α) :
    Entries.keys (grouped key value xs) = (firsts key xs).map key := by
  simp [Entries.keys, grouped]

@[simp] theorem get?_grouped [BEq κ] [LawfulBEq κ] (xs : List α) (k : κ) :
    (Entries.get? (grouped key value xs) k).getD [] =
      (xs.filter (fun y => key y = k)).map value := by
  by_cases hk : exists x, x ∈ xs ∧ key x = k
  · rcases exists_mem_firsts_iff.mpr hk with ⟨x, hx, hkey⟩
    have hmem : (k, (xs.filter (fun y => key y = k)).map value) ∈ grouped key value xs :=
      List.mem_map.mpr ⟨x, hx, by rw [hkey]⟩
    have hnodup : (Entries.keys (grouped key value xs)).Nodup := by
      rw [keys_grouped]
      exact nodup_keys_firsts key xs
    rw [Entries.get?_of_mem hnodup hmem]
    rfl
  · have hnone : Entries.get? (grouped key value xs) k = none := by
      cases hfound : Entries.get? (grouped key value xs) k with
      | none =>
          rfl
      | some group =>
          rcases List.mem_map.mp (Entries.mem_of_get? hfound) with ⟨x, hx, hgroup⟩
          exact absurd ⟨x, (firsts_sublist key xs).subset hx, (Prod.mk.inj hgroup).left⟩ hk
    have hempty : xs.filter (fun y => key y = k) = [] := by
      rw [List.filter_eq_nil_iff]
      intro x hx hkey
      exact hk ⟨x, hx, of_decide_eq_true hkey⟩
    rw [hnone, hempty]
    rfl

theorem put_of_keyed [BEq κ] [LawfulBEq κ] {xs : List α} {value : α -> β} {k : κ} {v : β}
    (hnodup : (xs.map key).Nodup) (hk : k ∈ xs.map key) :
    Entries.put (xs.map (fun x => (key x, value x))) k v =
      xs.map (fun x => (key x, if key x = k then v else value x)) := by
  induction xs with
  | nil =>
      cases hk
  | cons x rest ih =>
      rcases List.nodup_cons.mp hnodup with ⟨hfirst, hrest⟩
      rw [List.map_cons, List.map_cons, Entries.put]
      by_cases hx : key x = k
      · have hothers : forall y, y ∈ rest -> key y ≠ k := by
          intro y hy hkey
          exact hfirst (List.mem_map.mpr ⟨y, hy, hkey.trans hx.symm⟩)
        rw [if_pos (beq_iff_eq.mpr hx), if_pos hx]
        congr 1
        apply List.map_congr_left
        intro y hy
        rw [if_neg (hothers y hy)]
      · have hlater : k ∈ rest.map key := (List.mem_cons.mp hk).resolve_left (Ne.symm hx)
        rw [if_neg (by simpa using hx), if_neg hx, ih hrest hlater]

theorem ofList_keyed [BEq κ] [LawfulBEq κ] (keys : List κ) (value : κ -> β) :
    Entries.ofList (keys.map (fun k => (k, value k))) =
      (firsts id keys).map (fun k => (k, value k)) := by
  induction keys using List.reverseRecOn with
  | nil =>
      rfl
  | append_singleton keys k ih =>
      have hput : Entries.ofList ((keys ++ [k]).map (fun k => (k, value k))) =
          Entries.put ((firsts id keys).map (fun k => (k, value k))) k (value k) := by
        rw [← ih, List.map_append, Entries.ofList, Entries.merge, List.foldl_append]
        rfl
      rw [hput, firsts_append_singleton]
      by_cases hk : id k ∈ keys.map id
      · rw [if_pos hk]
        refine (put_of_keyed (nodup_keys_firsts id keys) (mem_keys_firsts.mpr hk)).trans ?_
        refine List.map_congr_left fun other _hother => ?_
        by_cases hsame : id other = id k
        · rw [if_pos hsame]
          exact congrArg (fun name => (other, value name)) hsame.symm
        · rw [if_neg hsame]
          rfl
      · have hfresh : k ∉ Entries.keys ((firsts id keys).map (fun k => (k, value k))) := by
          rw [Entries.keys, List.map_map]
          exact fun hmem => hk (mem_keys_firsts.mp hmem)
        rw [if_neg hk, Entries.put_of_not_mem hfresh, List.map_append]
        rfl

theorem put_grouped [BEq κ] [LawfulBEq κ] (xs : List α) (x : α) :
    Entries.put (grouped key value xs) (key x)
      ((xs.filter (fun y => key y = key x)).map value ++ [value x]) =
      grouped key value (xs ++ [x]) := by
  have hgroups : (fun y => (key y, ((xs ++ [x]).filter (fun z => key z = key y)).map value)) =
      fun y => (key y, if key y = key x
        then (xs.filter (fun z => key z = key x)).map value ++ [value x]
        else (xs.filter (fun z => key z = key y)).map value) := by
    funext y
    by_cases hy : key y = key x
    · simp [hy]
    · simp [hy, Ne.symm hy]
  rw [grouped, grouped, hgroups, firsts_append_singleton]
  by_cases hx : key x ∈ xs.map key
  · rw [if_pos hx, put_of_keyed (nodup_keys_firsts key xs)]
    rcases List.mem_map.mp hx with ⟨y, hy, hkey⟩
    rcases exists_mem_firsts_iff.mpr ⟨y, hy, hkey⟩ with ⟨z, hz, hkey⟩
    exact List.mem_map.mpr ⟨z, hz, hkey⟩
  · have hfresh : key x ∉ Entries.keys (grouped key value xs) := by
      rw [keys_grouped]
      exact fun hmem => hx (((firsts_sublist key xs).map key).subset hmem)
    rw [if_neg hx, ← grouped, Entries.put_of_not_mem hfresh, List.map_append]
    congr 1
    · apply List.map_congr_left
      intro y hy
      have hne : key y ≠ key x := by
        intro hkey
        exact hx (hkey ▸ List.mem_map_of_mem ((firsts_sublist key xs).subset hy))
      rw [if_neg hne]
    · simp

theorem foldl_eq_grouped [BEq κ] [LawfulBEq κ] (xs : List α) :
    xs.foldl (fun groups x =>
      Entries.put groups (key x) ((Entries.get? groups (key x)).getD [] ++ [value x])) [] =
      grouped key value xs := by
  induction xs using List.reverseRecOn with
  | nil =>
      rfl
  | append_singleton xs x ih =>
      rw [List.foldl_append, ih, List.foldl_cons, List.foldl_nil, get?_grouped, put_grouped]

def inGroups (key : α -> κ) (xs : List α) : List α :=
  (firsts key xs).flatMap (fun x => xs.filter (fun y => key y = key x))

theorem inGroups_cons (x : α) (rest : List α) :
    inGroups key (x :: rest) =
      x :: (rest.filter (fun y => key y = key x) ++
        inGroups key (rest.filter (fun y => key y ≠ key x))) := by
  have hgroup : forall y, y ∈ firsts key (rest.filter (fun z => key z ≠ key x)) ->
      (x :: rest).filter (fun z => key z = key y) =
        (rest.filter (fun z => key z ≠ key x)).filter (fun z => key z = key y) := by
    intro y hy
    have hne : key y ≠ key x :=
      of_decide_eq_true (List.mem_filter.mp ((firsts_sublist key _).subset hy)).right
    rw [List.filter_cons, if_neg (by simpa using Ne.symm hne), List.filter_filter]
    apply List.filter_congr
    intro z _hz
    by_cases hz : key z = key y
    · simp [hz, hne]
    · simp [hz]
  have hothers : (firsts key rest).filter (fun y => key y ≠ key x) =
      firsts key (rest.filter (fun y => key y ≠ key x)) :=
    (firsts_filter (fun k => decide (k ≠ key x)) rest).symm
  rw [inGroups, firsts, hothers, List.flatMap_cons, List.filter_cons, if_pos (by simp),
    List.flatMap_congr hgroup]
  rfl

theorem inGroups_perm (key : α -> κ) (xs : List α) : (inGroups key xs).Perm xs := by
  -- by length: the elements of other keys are fewer, but they are not the tail
  induction hlength : xs.length using Nat.strongRecOn generalizing xs with
  | ind n ih =>
      cases xs with
      | nil =>
          exact List.Perm.refl _
      | cons x rest =>
          rw [inGroups_cons]
          have hshorter : (rest.filter (fun y => key y ≠ key x)).length < n := by
            rw [← hlength]
            exact Nat.lt_succ_of_le (List.length_filter_le _ _)
          have hparts : (rest.filter (fun y => key y = key x) ++
              rest.filter (fun y => key y ≠ key x)).Perm rest := by
            simpa using List.filter_append_perm (fun y => key y = key x) rest
          exact (((ih _ hshorter _ rfl).append_left _).trans hparts).cons x

theorem flatMap_grouped (xs : List α) :
    (grouped key value xs).flatMap (fun g => g.2.map (fun v => (g.1, v))) =
      (inGroups key xs).map (fun x => (key x, value x)) := by
  rw [grouped, inGroups, List.flatMap_map, List.map_flatMap]
  congr 1
  funext x
  rw [List.map_map]
  apply List.map_congr_left
  intro y hy
  rw [Function.comp_apply, of_decide_eq_true (List.mem_filter.mp hy).right]

end ContentSchema
