import Mathlib.Data.List.Forall2

/-!
# Lists side by side

Parts stand side by side with what they are parts of: errors with fields, elements and
constraints, patterns with sources, and results with documents.
-/

namespace ContentSchema

theorem forall₂_of_mem {α β : Type} {R : α -> β -> Prop} {xs : List α} {ys : List β}
    (h : List.Forall₂ R xs ys) {x : α} (hx : x ∈ xs) : exists y, y ∈ ys ∧ R x y := by
  induction h with
  | nil =>
      cases hx
  | cons hxy _hrest ih =>
      rcases List.mem_cons.mp hx with hx | hx
      · rw [hx]
        exact ⟨_, List.mem_cons_self, hxy⟩
      · rcases ih hx with ⟨y, hy, hxy⟩
        exact ⟨y, List.mem_cons_of_mem _ hy, hxy⟩

theorem forall₂_getElem? {α β : Type} {R : α -> β -> Prop} {xs : List α} {ys : List β}
    (h : List.Forall₂ R xs ys) {i : Nat} {x : α} {y : β} (hx : xs[i]? = some x)
    (hy : ys[i]? = some y) : R x y := by
  rcases List.getElem?_eq_some_iff.mp hx with ⟨hix, hx⟩
  rcases List.getElem?_eq_some_iff.mp hy with ⟨hiy, hy⟩
  have hxy := h.get hix hiy
  rw [List.get_eq_getElem, List.get_eq_getElem, hx, hy] at hxy
  exact hxy

theorem forall₂_exists_getElem? {α β : Type} {R : α -> β -> Prop} {xs : List α} {ys : List β}
    (h : List.Forall₂ R xs ys) {i : Nat} {x : α} (hx : xs[i]? = some x) :
    exists y, ys[i]? = some y ∧ R x y := by
  rcases List.getElem?_eq_some_iff.mp hx with ⟨hi, _hx⟩
  rw [h.length_eq] at hi
  have hy : ys[i]? = some ys[i] := List.getElem?_eq_getElem hi
  exact ⟨_, hy, forall₂_getElem? h hx hy⟩

theorem getElem?_zipIdx_of {α : Type} {xs : List α} {i : Nat} {x : α} (hx : xs[i]? = some x) :
    xs.zipIdx[i]? = some (x, i) := by
  rw [List.getElem?_zipIdx, hx, Nat.zero_add]
  rfl

end ContentSchema
