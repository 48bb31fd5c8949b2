import ContentSchema.Proofs.JsonSchema.Acceptance
import Mathlib.Data.Finset.Max

/-!
# Exported bounds

What bounds on the length of texts and on whole numbers mean, as constraints and as keywords
of a document.  A value of a size satisfies a document of bounds exactly when its size is in
the range of the bounds, and it passes a constraint exactly when its size is within the
keywords that the constraint stands for.
-/

namespace ContentSchema
namespace JsonSchema

/-!
## Ranges

Between integers a range that is not empty is exactly as wide as its bounds say.
-/

def InRange (lower upper : List Int) (m : Int) : Prop :=
  (forall l, l ∈ lower -> l <= m) ∧ (forall u, u ∈ upper -> m <= u)

def Contradict (lower upper : List Int) : Prop :=
  exists l, l ∈ lower ∧ exists u, u ∈ upper ∧ u < l

theorem exists_least (xs : List Int) (t : Int) :
    exists m, m ∈ t :: xs ∧ forall x, x ∈ t :: xs -> m <= x := by
  rcases (t :: xs).toFinset.exists_min_image id ⟨t, by simp⟩ with ⟨m, hm, hle⟩
  exact ⟨m, List.mem_toFinset.mp hm, fun x hx => hle x (List.mem_toFinset.mpr hx)⟩

theorem exists_greatest (xs : List Int) (t : Int) :
    exists m, m ∈ t :: xs ∧ forall x, x ∈ t :: xs -> x <= m := by
  rcases (t :: xs).toFinset.exists_max_image id ⟨t, by simp⟩ with ⟨m, hm, hle⟩
  exact ⟨m, List.mem_toFinset.mp hm, fun x hx => hle x (List.mem_toFinset.mpr hx)⟩

/-- Everything in a range is at least `b` exactly when a lower bound of the range is, or
nothing is in the range. -/
theorem forall_inRange_ge_iff {lower upper : List Int} {b : Int} :
    (forall m, InRange lower upper m -> b <= m) <->
      (exists l, l ∈ lower ∧ b <= l) ∨ Contradict lower upper := by
  constructor
  · intro h
    by_contra hnone
    rcases not_or.mp hnone with ⟨hweaker, hconsistent⟩
    -- the integer below `b`, or the least upper bound if that is smaller still
    rcases exists_least upper (b - 1) with ⟨m, hm, hle⟩
    have hbelow : m <= b - 1 := hle _ List.mem_cons_self
    have hrange : InRange lower upper m := by
      refine ⟨?_, fun u hu => hle u (List.mem_cons_of_mem _ hu)⟩
      intro l hl
      rcases List.mem_cons.mp hm with hm | hm
      · have hlt : l < b := not_le.mp (fun hb => hweaker ⟨l, hl, hb⟩)
        omega
      · exact not_lt.mp (fun hlt => hconsistent ⟨l, hl, m, hm, hlt⟩)
    have hge := h m hrange
    omega
  · intro h m hm
    rcases h with ⟨l, hl, hb⟩ | ⟨l, hl, u, hu, hlt⟩
    · exact le_trans hb (hm.left l hl)
    · have hlower := hm.left l hl
      have hupper := hm.right u hu
      omega

theorem forall_inRange_le_iff {lower upper : List Int} {b : Int} :
    (forall m, InRange lower upper m -> m <= b) <->
      (exists u, u ∈ upper ∧ u <= b) ∨ Contradict lower upper := by
  constructor
  · intro h
    by_contra hnone
    rcases not_or.mp hnone with ⟨hweaker, hconsistent⟩
    rcases exists_greatest lower (b + 1) with ⟨m, hm, hle⟩
    have habove : b + 1 <= m := hle _ List.mem_cons_self
    have hrange : InRange lower upper m := by
      refine ⟨fun l hl => hle l (List.mem_cons_of_mem _ hl), ?_⟩
      intro u hu
      rcases List.mem_cons.mp hm with hm | hm
      · have hlt : b < u := not_le.mp (fun hb => hweaker ⟨u, hu, hb⟩)
        omega
      · exact not_lt.mp (fun hlt => hconsistent ⟨m, hm, u, hu, hlt⟩)
    have hle := h m hrange
    omega
  · intro h m hm
    rcases h with ⟨u, hu, hb⟩ | ⟨l, hl, u, hu, hlt⟩
    · exact le_trans (hm.right u hu) hb
    · have hlower := hm.left l hl
      have hupper := hm.right u hu
      omega

/-!
## Bounds of documents
-/

/-- What bounds are about: the length of a text, or a whole number itself. -/
inductive Sized : PrimitiveKind -> Value -> Int -> Prop
  | text (t : String) : Sized .string (.text t) t.length
  | int (n : Int) : Sized .number (.int n) n

def lowerBound? : String × Value -> Option Int
  | ("minLength", .int n) => some n
  | ("minimum", .int n) => some n
  | ("exclusiveMinimum", .int n) => some (n + 1)
  | _ => none

def upperBound? : String × Value -> Option Int
  | ("maxLength", .int n) => some n
  | ("maximum", .int n) => some n
  | _ => none

def naturalBounds : PrimitiveKind -> List Int
  | .string => [0]
  | _ => []

def lowerBounds (kind : PrimitiveKind) (keywords : Keywords) : List Int :=
  naturalBounds kind ++ keywords.filterMap lowerBound?

def upperBounds (keywords : Keywords) : List Int :=
  keywords.filterMap upperBound?

def WithinBound (k : String × Value) (m : Int) : Prop :=
  (forall l, lowerBound? k = some l -> l <= m) ∧ (forall u, upperBound? k = some u -> m <= u)

theorem inRange_iff {kind : PrimitiveKind} {keywords : Keywords} {m : Int} :
    InRange (lowerBounds kind keywords) (upperBounds keywords) m <->
      (forall l, l ∈ naturalBounds kind -> l <= m) ∧
        forall k, k ∈ keywords -> WithinBound k m := by
  constructor
  · intro h
    refine ⟨fun l hl => h.left l (List.mem_append_left _ hl), fun k hk => ⟨?_, ?_⟩⟩
    · intro l hkl
      exact h.left l (List.mem_append_right _ (List.mem_filterMap.mpr ⟨k, hk, hkl⟩))
    · intro u hku
      exact h.right u (List.mem_filterMap.mpr ⟨k, hk, hku⟩)
  · intro h
    refine ⟨?_, ?_⟩
    · intro l hl
      rcases List.mem_append.mp hl with hl | hl
      · exact h.left l hl
      · rcases List.mem_filterMap.mp hl with ⟨k, hk, hkl⟩
        exact (h.right k hk).left l hkl
    · intro u hu
      rcases List.mem_filterMap.mp hu with ⟨k, hk, hku⟩
      exact (h.right k hk).right u hku

theorem natural_of_sized {kind : PrimitiveKind} {v : Value} {m : Int} (hv : Sized kind v m) :
    forall l, l ∈ naturalBounds kind -> l <= m := by
  intro l hl
  cases hv with
  | text t =>
      rw [List.mem_singleton.mp hl]
      exact Int.natCast_nonneg _
  | int n => cases hl

theorem exists_sized {kind : PrimitiveKind} (hkind : kind = .string ∨ kind = .number) {m : Int}
    (hm : forall l, l ∈ naturalBounds kind -> l <= m) : exists v, Sized kind v m := by
  rcases hkind with hkind | hkind
  · subst hkind
    have hnatural : 0 <= m := hm 0 List.mem_cons_self
    have hsized := Sized.text (String.ofList (List.replicate m.toNat 'a'))
    rw [String.length_ofList, List.length_replicate, Int.toNat_of_nonneg hnatural] at hsized
    exact ⟨_, hsized⟩
  · subst hkind
    exact ⟨_, .int m⟩

inductive BoundKeyword : PrimitiveKind -> String × Value -> Prop
  | minLength (n : Int) : BoundKeyword .string ("minLength", .int n)
  | maxLength (n : Int) : BoundKeyword .string ("maxLength", .int n)
  | minimum (n : Int) : BoundKeyword .number ("minimum", .int n)
  | maximum (n : Int) : BoundKeyword .number ("maximum", .int n)
  | exclusiveMinimum (n : Int) : BoundKeyword .number ("exclusiveMinimum", .int n)

@[simp] theorem bounds_int {within : Quantity -> Quantity -> Bool} {n : Int} {q : Quantity} :
    Bounds (some q) within (.int n) <-> within (.rational n) q = true := by
  constructor
  · intro h
    rcases h with ⟨p, hp, hwithin⟩
    injection hp with hp
    rw [hp]
    exact hwithin q rfl
  · intro h
    exact bounds_of_within rfl rfl h

theorem lengthOf?_of_sized {v : Value} {m : Int} (h : Sized .string v m) :
    lengthOf? v = some (.rational m) := by
  cases h with
  | text t => rw [lengthOf?, Int.cast_natCast]

theorem numberOf?_of_sized {v : Value} {m : Int} (h : Sized .number v m) :
    numberOf? v = some (.rational m) := by
  cases h with
  | int n => rfl

@[simp] theorem int_le_iff {a b : Int} :
    (Quantity.rational a).le (.rational b) = true <-> a <= b := by
  rw [Quantity.rational_le, Rat.intCast_le_intCast]

@[simp] theorem int_lt_iff {a b : Int} :
    (Quantity.rational a).lt (.rational b) = true <-> a + 1 <= b := by
  rw [Int.add_one_le_iff, ← Rat.intCast_lt_intCast]
  exact decide_eq_true_iff

/-- A bound is met by a value of a size exactly when the size is within the bound. -/
theorem BoundKeyword.meets_iff {kind : PrimitiveKind} {k : String × Value}
    (h : BoundKeyword kind k) {v : Value} {m : Int} (hv : Sized kind v m) :
    Meets k.1 k.2 v <-> WithinBound k m := by
  unfold WithinBound
  cases h with
  | minLength n =>
      simp [Meets, lengthOf?_of_sized hv, lowerBound?, upperBound?]
  | maxLength n =>
      simp [Meets, lengthOf?_of_sized hv, lowerBound?, upperBound?]
  | minimum n =>
      simp [Meets, numberOf?_of_sized hv, lowerBound?, upperBound?]
  | maximum n =>
      simp [Meets, numberOf?_of_sized hv, lowerBound?, upperBound?]
  | exclusiveMinimum n =>
      simp [Meets, numberOf?_of_sized hv, lowerBound?, upperBound?]

/-!
## Constraints that bound
-/

/-- The constraints on lengths and on the range of numbers, with whole numbers as bounds. -/
inductive Delimits : PrimitiveKind -> Constraint -> Prop
  | nonEmpty : Delimits .string .nonEmpty
  | minLength (n : Int) : Delimits .string (.minLength (.int n))
  | maxLength (n : Int) : Delimits .string (.maxLength (.int n))
  | exactLength (n : Int) : Delimits .string (.exactLength (.int n))
  | positive : Delimits .number .positive
  | nonnegative : Delimits .number .nonnegative
  | atLeast (n : Int) : Delimits .number (.atLeast (.int n))
  | atMost (n : Int) : Delimits .number (.atMost (.int n))

def keywordsOf (c : Constraint) : Keywords :=
  match addConstraint [] c with
  | .ok keywords => keywords
  | .error _ => []

theorem Delimits.builtIn {kind : PrimitiveKind} {c : Constraint} (h : Delimits kind c) :
    c.BuiltIn := by
  cases h with
  | nonEmpty => exact .nonEmpty
  | minLength n => exact .minLength ⟨_, rfl⟩
  | maxLength n => exact .maxLength ⟨_, rfl⟩
  | exactLength n => exact .exactLength _
  | positive => exact .positive
  | nonnegative => exact .nonnegative
  | atLeast n => exact .atLeast ⟨_, rfl⟩
  | atMost n => exact .atMost ⟨_, rfl⟩

theorem Delimits.hasNumericBounds {kind : PrimitiveKind} {c : Constraint}
    (h : Delimits kind c) : c.HasNumericBounds := by
  intro p hp _hname
  cases h with
  | nonEmpty => cases hp
  | positive => cases hp
  | nonnegative => cases hp
  | _ =>
      rw [List.mem_singleton.mp hp]
      exact ⟨_, rfl⟩

theorem Emits.mem_keywordsOf {c : Constraint} {k : String × Value} (h : Emits c k) :
    k ∈ keywordsOf c := by
  cases h with
  | leastLength n => exact List.mem_cons_self
  | greatestLength n => exact List.mem_cons_of_mem _ List.mem_cons_self
  | pattern hpattern =>
      rcases Constraint.matching_eq_ok.mp hpattern with ⟨tree, _htree, hc⟩
      rw [hc]
      exact List.mem_cons_self
  | _ => exact List.mem_cons_self

theorem Delimits.boundKeyword {kind : PrimitiveKind} {c : Constraint} (h : Delimits kind c)
    {k : String × Value} (hk : k ∈ keywordsOf c) : BoundKeyword kind k := by
  cases h with
  | nonEmpty =>
      rw [List.mem_singleton.mp hk]
      exact .minLength 1
  | minLength n =>
      rw [List.mem_singleton.mp hk]
      exact .minLength n
  | maxLength n =>
      rw [List.mem_singleton.mp hk]
      exact .maxLength n
  | exactLength n =>
      rcases List.mem_cons.mp hk with hk | hk
      · rw [hk]
        exact .minLength n
      · rw [List.mem_singleton.mp hk]
        exact .maxLength n
  | positive =>
      rw [List.mem_singleton.mp hk]
      exact .exclusiveMinimum 0
  | nonnegative =>
      rw [List.mem_singleton.mp hk]
      exact .minimum 0
  | atLeast n =>
      rw [List.mem_singleton.mp hk]
      exact .minimum n
  | atMost n =>
      rw [List.mem_singleton.mp hk]
      exact .maximum n

theorem quantity_of_sized {v : Value} {m : Int} (h : Sized .number v m) :
    v.quantity? = some (.rational m) := by
  cases h with
  | int n => rfl

theorem Delimits.check_iff {kind : PrimitiveKind} {c : Constraint} (h : Delimits kind c)
    {v : Value} {m : Int} (hv : Sized kind v m) :
    c.check v = .ok true <->
      InRange ((keywordsOf c).filterMap lowerBound?) ((keywordsOf c).filterMap upperBound?)
        m := by
  have hok {b : Bool} {p : Prop} (hb : b = true <-> p) :
      (.ok b : Answer Bool) = .ok true <-> p := by
    rw [Except.ok.injEq, hb]
  cases h with
  | nonEmpty =>
      cases hv with
      | text t =>
          refine hok (b := decide (0 < t.length)) ?_
          show _ <-> InRange [1] [] _
          simp [InRange]
          omega
  | minLength n =>
      cases hv with
      | text t =>
          rw [Constraint.check_minLength rfl, ← Int.cast_natCast, hok int_le_iff]
          show _ <-> InRange [n] [] _
          simp [InRange]
  | maxLength n =>
      cases hv with
      | text t =>
          rw [Constraint.check_maxLength rfl, ← Int.cast_natCast, hok int_le_iff]
          show _ <-> InRange [] [n] _
          simp [InRange]
  | exactLength n =>
      cases hv with
      | text t =>
          refine hok (b := Value.same (.int t.length) (.int n)) ?_
          show _ <-> InRange [n] [n] _
          have heq : ((t.length : Int) : Rat) = n <-> (t.length : Int) = n :=
            Rat.intCast_inj
          simp only [Value.same, Value.sameScalar, Value.quantity?, Quantity.eq,
            decide_eq_true_iff, heq]
          simp [InRange]
          omega
  | positive =>
      rw [Constraint.check_positive (quantity_of_sized hv)]
      show _ <-> InRange [1] [] _
      rw [← Int.cast_zero (R := Rat), hok int_lt_iff]
      simp [InRange]
  | nonnegative =>
      rw [Constraint.check_nonnegative (quantity_of_sized hv)]
      show _ <-> InRange [0] [] _
      rw [← Int.cast_zero (R := Rat), hok int_le_iff]
      simp [InRange]
  | atLeast n =>
      rw [Constraint.check_atLeast rfl (quantity_of_sized hv), hok int_le_iff]
      show _ <-> InRange [n] [] _
      simp [InRange]
  | atMost n =>
      rw [Constraint.check_atMost rfl (quantity_of_sized hv), hok int_le_iff]
      show _ <-> InRange [] [n] _
      simp [InRange]

/-!
## Documents of bounds
-/

/-- Of values of a kind that have a size the keyword demands what its bounds say and nothing
else. -/
def OnlyBounds (kind : PrimitiveKind) (k : String × Value) : Prop :=
  IsLocal k.1 ∧ forall v m, Sized kind v m -> (Meets k.1 k.2 v <-> WithinBound k m)

theorem BoundKeyword.onlyBounds {kind : PrimitiveKind} {k : String × Value}
    (h : BoundKeyword kind k) : OnlyBounds kind k := by
  refine ⟨?_, fun v m hv => h.meets_iff hv⟩
  cases h <;> simp [IsLocal]

def Unbounded (k : String × Value) : Prop :=
  lowerBound? k = none ∧ upperBound? k = none

theorem Unbounded.within {k : String × Value} (h : Unbounded k) (m : Int) : WithinBound k m := by
  refine ⟨?_, ?_⟩
  · intro l hl
    rw [h.left] at hl
    cases hl
  · intro u hu
    rw [h.right] at hu
    cases hu

theorem unbounded_kindKeywords {kind : PrimitiveKind} {k : String × Value}
    (hk : k ∈ kindKeywords kind) : Unbounded k := by
  cases kind <;> simp [kindKeywords] at hk
  all_goals
    rcases hk with rfl | rfl <;> exact ⟨rfl, rfl⟩

theorem onlyBounds_kindKeywords {kind : PrimitiveKind} {k : String × Value}
    (hk : k ∈ kindKeywords kind) : OnlyBounds kind k := by
  refine ⟨isLocal_of_mem_kindKeywords hk, ?_⟩
  intro v m hv
  refine iff_of_true ?_ ((unbounded_kindKeywords hk).within m)
  cases hv with
  | text t =>
      rw [List.mem_singleton.mp hk]
      exact ⟨_, rfl, .string t⟩
  | int =>
      rw [List.mem_singleton.mp hk]
      exact ⟨_, rfl, .int _⟩

theorem BoundKeyword.name_ne_schema {kind : PrimitiveKind} {k : String × Value}
    (h : BoundKeyword kind k) : k.1 ≠ "$schema" := by
  cases h <;> simp

theorem name_ne_schema_of_mem_kindKeywords {kind : PrimitiveKind} {k : String × Value}
    (hk : k ∈ kindKeywords kind) : k.1 ≠ "$schema" := by
  cases kind <;> simp [kindKeywords] at hk
  all_goals
    rcases hk with rfl | rfl <;> simp

theorem unbounded_dialect : Unbounded ("$schema", .text dialect) :=
  ⟨rfl, rfl⟩

theorem onlyBounds_dialect {kind : PrimitiveKind} :
    OnlyBounds kind ("$schema", .text dialect) := by
  refine ⟨by simp [IsLocal], fun v m _hv => ?_⟩
  exact iff_of_true trivial (unbounded_dialect.within m)

theorem satisfies_iff_within {kind : PrimitiveKind} {keywords : Keywords}
    (h : forall k, k ∈ keywords -> OnlyBounds kind k) {v : Value} {m : Int}
    (hv : Sized kind v m) :
    Satisfies (toValue keywords) v <-> forall k, k ∈ keywords -> WithinBound k m := by
  constructor
  · intro hsatisfies k hk
    exact ((h k hk).right v m hv).mp ((satisfies_toValue_iff.mp hsatisfies).left k hk)
  · intro hwithin
    apply satisfies_of_local
    intro k hk
    exact ⟨((h k hk).right v m hv).mpr (hwithin k hk), (h k hk).left⟩

end JsonSchema
end ContentSchema
