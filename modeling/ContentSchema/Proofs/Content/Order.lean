import ContentSchema.Content.Location

/-!
# The order of files

Files are put in the order of the steps that lead to them.  Sorting is stable, so it makes no
difference whether files are dropped before or after.
-/

namespace ContentSchema

namespace Location

theorem stepsBefore_trans (a b c : List String) (hab : stepsBefore a b = true)
    (hbc : stepsBefore b c = true) : stepsBefore a c = true := by
  induction a generalizing b c with
  | nil =>
      rw [stepsBefore]
  | cons x xs ih =>
      cases b with
      | nil =>
          cases hab
      | cons y ys =>
          cases c with
          | nil =>
              cases hbc
          | cons z zs =>
              simp only [stepsBefore, Bool.or_eq_true, Bool.and_eq_true, decide_eq_true_eq]
                at hab hbc ⊢
              rcases hab with hxy | ⟨hxy, hxs⟩
              · rcases hbc with hyz | ⟨hyz, _hys⟩
                · exact Or.inl (String.lt_trans hxy hyz)
                · rw [← hyz]
                  exact Or.inl hxy
              · rw [hxy]
                exact hbc.imp_right (fun h => ⟨h.left, ih ys zs hxs h.right⟩)

theorem stepsBefore_total (a b : List String) :
    (stepsBefore a b || stepsBefore b a) = true := by
  induction a generalizing b with
  | nil =>
      rw [stepsBefore, Bool.true_or]
  | cons x xs ih =>
      cases b with
      | nil =>
          rfl
      | cons y ys =>
          simp only [stepsBefore, Bool.or_eq_true, Bool.and_eq_true, decide_eq_true_eq] at ih ⊢
          by_cases hxy : x < y
          · exact Or.inl (Or.inl hxy)
          · by_cases hyx : y < x
            · exact Or.inr (Or.inl hyx)
            · have hsame : x = y :=
                String.le_antisymm (String.not_lt.mp hyx) (String.not_lt.mp hxy)
              exact (ih ys).imp (fun h => Or.inr ⟨hsame, h⟩) (fun h => Or.inr ⟨hsame.symm, h⟩)

end Location

/-!
## Stable sorting
-/

section Sorting

variable {α : Type} {le : α -> α -> Bool}
  (htrans : forall a b c, le a b = true -> le b c = true -> le a c = true)
  (htotal : forall a b, (le a b || le b a) = true)

include htrans htotal

theorem mergeSort_between (x : α) (rest : List α) :
    rest.mergeSort le = (rest.mergeSort le).filter (fun b => !le x b) ++
        (rest.mergeSort le).filter (fun b => le x b) ∧
      (x :: rest).mergeSort le = (rest.mergeSort le).filter (fun b => !le x b) ++
        x :: (rest.mergeSort le).filter (fun b => le x b) := by
  rcases List.mergeSort_cons htrans htotal x rest with ⟨before, after, hsorted, hrest, hbefore⟩
  have hbehind : forall b, b ∈ after -> le x b = true := by
    have hpairwise := List.pairwise_mergeSort htrans htotal (x :: rest)
    rw [hsorted] at hpairwise
    exact (List.pairwise_cons.mp (List.pairwise_append.mp hpairwise).right.left).left
  have hfirst : (rest.mergeSort le).filter (fun b => !le x b) = before := by
    rw [hrest, List.filter_append, List.filter_eq_self.mpr hbefore, List.filter_eq_nil_iff.mpr,
      List.append_nil]
    intro b hb
    simp [hbehind b hb]
  have hlast : (rest.mergeSort le).filter (fun b => le x b) = after := by
    rw [hrest, List.filter_append, List.filter_eq_self.mpr hbehind, List.filter_eq_nil_iff.mpr,
      List.nil_append]
    intro b hb
    simpa using hbefore b hb
  rw [hfirst, hlast]
  exact ⟨hrest, hsorted⟩

theorem filter_mergeSort (p : α -> Bool) (xs : List α) :
    (xs.filter p).mergeSort le = (xs.mergeSort le).filter p := by
  induction xs with
  | nil =>
      rw [List.filter_nil, List.mergeSort_nil, List.filter_nil]
  | cons x rest ih =>
      rcases mergeSort_between htrans htotal x rest with ⟨hrest, hsorted⟩
      rw [hsorted, List.filter_append, List.filter_cons, List.filter_cons]
      cases hx : p x with
      | false =>
          rw [if_neg Bool.false_ne_true, if_neg Bool.false_ne_true, ih, ← List.filter_append,
            ← hrest]
      | true =>
          rw [if_pos rfl, if_pos rfl, (mergeSort_between htrans htotal x (rest.filter p)).right, ih]
          simp only [List.filter_filter, Bool.and_comm]

end Sorting
end ContentSchema
