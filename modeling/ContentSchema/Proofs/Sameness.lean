import ContentSchema.Proofs.Validation.Examination
import ContentSchema.Validation.Result

/-!
# Values that are the same

Values that cannot be told apart as members of a container measure the same, and nothing but a
text is the same as a text.  Containers are the same when what they hold is, part by part, and
typed values are the same as themselves.

Equality proper is that of the same values except for not a number, which equals nothing.  Inside
a container it counts as its own occurrence again.
-/

namespace ContentSchema

theorem Quantity.eq_of_eq {a b : Quantity} (h : a.eq b = true) : a = b := by
  cases a <;> cases b <;> simp [Quantity.eq] at h <;> simp [h]

namespace Value

/-!
## Scalars
-/

theorem same_of_isScalar {a : Value} (ha : a.isScalar = true) (b : Value) :
    a.same b = a.sameScalar b := by
  cases a <;> simp [isScalar] at ha <;> simp only [same]

theorem quantity?_of_sameScalar {a b : Value} (h : sameScalar a b = true) :
    a.quantity? = b.quantity? := by
  unfold sameScalar at h
  split at h
  any_goals rfl
  split at h
  · next hx hy =>
      rw [hx, hy, Quantity.eq_of_eq h]
  · cases h

theorem quantity?_of_same {a b : Value} (h : a.same b = true) : a.quantity? = b.quantity? := by
  cases ha : a.isScalar with
  | true =>
      rw [same_of_isScalar ha] at h
      exact quantity?_of_sameScalar h
  | false =>
      cases a <;> cases ha <;> cases b <;> simp [same] at h <;> rfl

theorem same_int (n : Int) (v : Value) :
    (Value.int n).same v = (v.quantity?.map (Quantity.rational n).eq).getD false := by
  cases v <;> simp [same, sameScalar, quantity?]

@[simp] theorem same_text_iff {t : String} {v : Value} :
    (Value.text t).same v = true <-> v = .text t :=
  text_beq_iff

theorem text?_of_same {a b : Value} (h : a.same b = true) : a.text? = b.text? := by
  cases a with
  | text t =>
      rw [same_text_iff.mp h]
  | _ =>
      cases b with
      | text t => exact absurd (beq_text_iff.mp h) (by simp)
      | _ => rfl

@[simp] theorem same_null : Value.null.same .null = true := by
  simp [same, sameScalar]

theorem same_of_holds {kind : PrimitiveKind} {v : Value} (h : kind.Holds v) :
    v.same v = true := by
  cases h with
  | text t =>
      exact same_text_iff.mpr rfl
  | int n =>
      simp [same, sameScalar, quantity?, Quantity.eq]
  | float x =>
      rw [same_of_isScalar rfl]
      cases x <;> simp [sameScalar, quantity?, Binary64.quantity, Quantity.eq]
  | bool b =>
      simp [same, sameScalar, quantity?, Quantity.eq]
  | date d =>
      simp [same, sameScalar]
  | moment t =>
      rw [same_of_isScalar rfl]
      cases ht : t.offset <;> simp [sameScalar, DateTime.sameMoment, ht]

/-!
## Equality
-/

/-- Equality of two values that are looked at on their own. -/
def equals (a b : Value) : Bool :=
  match a with
  | float (.notANumber _) => false
  | _ => a.same b

theorem same_notANumber {n : Nat} {v : Value}
    (h : (Value.float (.notANumber n)).same v = true) : v = .float (.notANumber n) := by
  rw [same_of_isScalar rfl] at h
  cases v with
  | float x =>
      cases x with
      | notANumber m =>
          have hlabel : n = m := by
            simpa [sameScalar] using h
          rw [hlabel]
      | _ =>
          simp [sameScalar, quantity?, Binary64.quantity, Quantity.eq] at h
  | _ =>
      simp [sameScalar, quantity?, Binary64.quantity, Quantity.eq] at h

/-- Values that are the same are equal, unless they are one occurrence of not a number. -/
theorem equals_or_notANumber {a b : Value} (h : a.same b = true) :
    a.equals b = true ∨
      exists n, a = .float (.notANumber n) ∧ b = .float (.notANumber n) := by
  cases a with
  | float x =>
      cases x with
      | notANumber n => exact Or.inr ⟨n, rfl, same_notANumber h⟩
      | _ => exact Or.inl h
  | _ =>
      exact Or.inl h

/-!
## Containers
-/

theorem same_tuple {xs ys : List Value} (h : List.Forall₂ (fun x y => x.same y = true) xs ys) :
    (Value.tuple xs).same (.tuple ys) = true := by
  rw [same]
  induction h with
  | nil =>
      rw [sameAll]
  | cons hxy _hrest ih =>
      rw [sameAll, hxy, ih]
      rfl

theorem sameEntries_iff {xs ys : List (Value × Value)} :
    sameEntries xs ys = true <->
      forall x, x ∈ xs -> exists y, y ∈ ys ∧ x.1.same y.1 = true ∧ x.2.same y.2 = true := by
  induction xs with
  | nil =>
      simp [sameEntries]
  | cons x rest ih =>
      rw [sameEntries, Bool.and_eq_true, ih, List.forall_mem_cons]
      simp only [List.any_eq_true, Bool.and_eq_true]

abbrev SameMembers : List (String × Value) -> List (String × Value) -> Prop :=
  List.Forall₂ (fun m n => m.1 = n.1 ∧ m.2.same n.2 = true)

theorem same_ofMembers {members others : List (String × Value)} (h : SameMembers members others) :
    (ofMembers members).same (ofMembers others) = true := by
  rw [ofMembers, ofMembers, same, List.length_map, List.length_map, h.length_eq, Bool.and_eq_true]
  refine ⟨beq_self_eq_true _, sameEntries_iff.mpr ?_⟩
  intro x hx
  rcases List.mem_map.mp hx with ⟨m, hm, hx⟩
  rcases forall₂_of_mem h hm with ⟨n, hn, hname, hvalue⟩
  refine ⟨_, List.mem_map_of_mem hn, ?_⟩
  rw [← hx]
  exact ⟨same_text_iff.mpr (by rw [hname]), hvalue⟩

theorem SameMembers.put {members others : List (String × Value)} (h : SameMembers members others)
    (name : String) {v w : Value} (hvw : v.same w = true) :
    SameMembers (Entries.put members name v) (Entries.put others name w) := by
  induction h with
  | nil =>
      exact .cons ⟨rfl, hvw⟩ .nil
  | cons hfirst hrest ih =>
      rw [Entries.put, Entries.put, hfirst.left]
      split
      · exact .cons ⟨rfl, hvw⟩ hrest
      · exact .cons hfirst ih

theorem SameMembers.ofList {members others : List (String × Value)}
    (h : SameMembers members others) :
    SameMembers (Entries.ofList members) (Entries.ofList others) := by
  have hmerge : forall {before before' : List (String × Value)}, SameMembers before before' ->
      SameMembers (Entries.merge before members) (Entries.merge before' others) := by
    induction h with
    | nil =>
        exact fun hbefore => hbefore
    | @cons m n _ _ hfirst _hrest ih =>
        intro before before' hbefore
        refine ih ?_
        show SameMembers (Entries.put before m.1 m.2) (Entries.put before' n.1 n.2)
        rw [← hfirst.left]
        exact hbefore.put m.1 hfirst.right
  exact hmerge .nil

theorem same_recordOf {members others : List (String × Value)} (h : SameMembers members others) :
    (Schema.recordOf members).same (Schema.recordOf others) = true :=
  same_ofMembers h.ofList

end Value
end ContentSchema
