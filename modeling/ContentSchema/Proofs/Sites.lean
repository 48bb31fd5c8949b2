import Mathlib.Data.List.Forall2

/-!
# Sites

What stands in a tree stands at a site, which is written as the positions on the way down.  The
order of sites is that of a walk that goes depth first, and a list lists what stands in the tree
when it has everything once and by ascending site.  A walk puts lists of parts one behind the
other, and the facts below say what such a list lists.
-/

namespace ContentSchema

variable {α β : Type} {P Q : List Nat -> α -> Prop} {xs ys : List α}

/-- The list has all that stands at sites, each once, by ascending site. -/
def Lists (P : List Nat -> α -> Prop) (xs : List α) : Prop :=
  exists sited : List (List Nat × α),
    sited.Pairwise (fun u v => u.1 < v.1) ∧
    (forall u, u ∈ sited <-> P u.1 u.2) ∧
    xs = sited.map Prod.snd

theorem lists_congr (h : forall site x, P site x <-> Q site x) (hP : Lists P xs) :
    Lists Q xs := by
  rcases hP with ⟨sited, hsorted, hmem, hxs⟩
  exact ⟨sited, hsorted, fun u => (hmem u).trans (h u.1 u.2), hxs⟩

theorem lists_nil (h : forall site x, ¬ P site x) : Lists P [] :=
  ⟨[], List.Pairwise.nil, fun u => iff_of_false List.not_mem_nil (h u.1 u.2), rfl⟩

theorem lists_singleton {site : List Nat} {x : α}
    (h : forall place y, P place y <-> place = site ∧ y = x) : Lists P [x] := by
  refine ⟨[(site, x)], List.pairwise_singleton _ _, fun u => ?_, rfl⟩
  rw [h, List.mem_singleton, Prod.ext_iff]

theorem eq_nil_of_lists (h : Lists P xs) : xs = [] <-> forall site x, ¬ P site x := by
  rcases h with ⟨sited, _hsorted, hmem, hxs⟩
  rw [hxs, List.map_eq_nil_iff, List.eq_nil_iff_forall_not_mem, Prod.forall]
  exact forall_congr' (fun site => forall_congr' (fun x => not_congr (hmem (site, x))))

theorem lists_append (hP : Lists P xs) (hQ : Lists Q ys)
    (hlater : forall site place x y, P site x -> Q place y -> site < place) :
    Lists (fun site x => P site x ∨ Q site x) (xs ++ ys) := by
  rcases hP with ⟨first, hsorted, hmem, hxs⟩
  rcases hQ with ⟨second, hsorted', hmem', hys⟩
  refine ⟨first ++ second, ?_, fun u => ?_, by rw [hxs, hys, List.map_append]⟩
  · refine List.pairwise_append.mpr ⟨hsorted, hsorted', ?_⟩
    intro u hu v hv
    exact hlater _ _ _ _ ((hmem u).mp hu) ((hmem' v).mp hv)
  · rw [List.mem_append, hmem, hmem']

def Below (position : Nat) (P : List Nat -> α -> Prop) (site : List Nat) (x : α) : Prop :=
  exists rest, site = position :: rest ∧ P rest x

theorem lists_below (position : Nat) (h : Lists P xs) : Lists (Below position P) xs := by
  rcases h with ⟨sited, hsorted, hmem, hxs⟩
  refine ⟨sited.map (fun u => (position :: u.1, u.2)), ?_, fun u => ?_, ?_⟩
  · rw [List.pairwise_map]
    apply hsorted.imp
    intro u v huv
    exact List.cons_lt_cons_iff.mpr (Or.inr ⟨rfl, huv⟩)
  · rw [List.mem_map]
    constructor
    · intro hu
      rcases hu with ⟨v, hv, hvu⟩
      rw [← hvu]
      exact ⟨v.1, rfl, (hmem v).mp hv⟩
    · intro hu
      rcases hu with ⟨rest, hsite, hrest⟩
      exact ⟨(rest, u.2), (hmem _).mpr hrest, Prod.ext hsite.symm rfl⟩
  · rw [hxs, List.map_map]
    rfl

/-- What stands below one of the branches, which are numbered from the given position. -/
def AtBranch (P : β -> List Nat -> α -> Prop) (start : Nat) (branches : List β)
    (site : List Nat) (x : α) : Prop :=
  exists i b, branches[i]? = some b ∧ Below (start + i) (P b) site x

theorem atBranch_cons {P : β -> List Nat -> α -> Prop} {start : Nat} {b : β} {rest : List β}
    {site : List Nat} {x : α} :
    AtBranch P start (b :: rest) site x <->
      Below start (P b) site x ∨ AtBranch P (start + 1) rest site x := by
  constructor
  · intro h
    rcases h with ⟨i, c, hc, hx⟩
    cases i with
    | zero =>
        injection hc with hc
        rw [← hc] at hx
        exact Or.inl hx
    | succ i =>
        exact Or.inr ⟨i, c, hc, by rwa [Nat.add_right_comm, Nat.add_assoc]⟩
  · intro h
    rcases h with hx | ⟨i, c, hc, hx⟩
    · exact ⟨0, b, rfl, hx⟩
    · exact ⟨i + 1, c, hc, by rwa [Nat.add_right_comm, Nat.add_assoc] at hx⟩

theorem Below.lt_atBranch {R : β -> List Nat -> α -> Prop} {start : Nat} {branches : List β}
    {site place : List Nat} {x y : α} (hx : Below start P site x)
    (hy : AtBranch R (start + 1) branches place y) : site < place := by
  rcases hx with ⟨rest, hsite, _hx⟩
  rcases hy with ⟨i, b, _hb, rest', hplace, _hy⟩
  rw [hsite, hplace]
  exact List.cons_lt_cons_iff.mpr (Or.inl (by omega))

theorem lists_branches {P : β -> List Nat -> α -> Prop} {start : Nat} {branches : List β}
    {found : List (List α)} (h : List.Forall₂ (fun b xs => Lists (P b) xs) branches found) :
    Lists (AtBranch P start branches) found.flatten := by
  induction h generalizing start with
  | nil =>
      apply lists_nil
      intro site x hx
      rcases hx with ⟨i, b, hb, _⟩
      cases hb
  | cons hfirst _hrest ih =>
      rw [List.flatten_cons]
      exact lists_congr (fun site x => atBranch_cons.symm)
        (lists_append (lists_below start hfirst) ih (fun _ _ _ _ hx hy => hx.lt_atBranch hy))

end ContentSchema
