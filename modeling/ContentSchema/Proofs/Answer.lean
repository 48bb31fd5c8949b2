import ContentSchema.Fault

/-!
# Answers

How the answer of an operation in steps depends on the answers of its steps.  Proofs about
such operations take them apart with these facts and open no step that they do not need.
-/

namespace ContentSchema
namespace Answer

variable {α β : Type}

def Succeeds (x : Answer α) : Prop :=
  exists a, x = .ok a

@[simp] theorem pure_eq (a : α) : (pure a : Answer α) = .ok a :=
  rfl

theorem pure_eq_ok {a b : α} :
    (pure a : Answer α) = .ok b <-> a = b := by
  constructor
  · intro h
    injection h
  · intro h
    rw [h]
    rfl

@[simp] theorem ok_bind (a : α) (next : α -> Answer β) : (.ok a >>= next) = next a :=
  rfl

@[simp] theorem error_bind (fault : Fault) (next : α -> Answer β) :
    (.error fault >>= next) = .error fault :=
  rfl

@[simp] theorem bind_ok (x : Answer α) : (x >>= fun a => .ok a) = x := by
  cases x <;> rfl

theorem eq_ok_of_toOption {x : Answer α} {a : α} (h : x.toOption = some a) : x = .ok a := by
  cases x with
  | error fault =>
      cases h
  | ok b =>
      injection h with h
      rw [h]

theorem succeeds_iff_isOk {x : Answer α} : Succeeds x <-> x.isOk = true := by
  cases x with
  | error fault =>
      refine iff_of_false ?_ Bool.false_ne_true
      intro h
      rcases h with ⟨a, h⟩
      cases h
  | ok a =>
      exact iff_of_true ⟨a, rfl⟩ rfl

@[simp] theorem bind_eq_ok {x : Answer α} {next : α -> Answer β} {b : β} :
    x >>= next = .ok b <-> exists a, x = .ok a ∧ next a = .ok b := by
  constructor
  · intro h
    cases x with
    | error fault =>
        cases h
    | ok a =>
        exact ⟨a, rfl, h⟩
  · intro h
    rcases h with ⟨a, hx, hnext⟩
    rw [hx]
    exact hnext

@[simp] theorem bind_eq_error {x : Answer α} {next : α -> Answer β} {fault : Fault} :
    x >>= next = .error fault <->
      x = .error fault ∨ exists a, x = .ok a ∧ next a = .error fault := by
  constructor
  · intro h
    cases x with
    | error other =>
        have hother : (Except.error other : Answer β) = .error fault := h
        injection hother with hfault
        exact Or.inl (by rw [hfault])
    | ok a =>
        exact Or.inr ⟨a, rfl, h⟩
  · intro h
    rcases h with hx | ⟨a, hx, hnext⟩
    · rw [hx]
      rfl
    · rw [hx]
      exact hnext

@[simp] theorem orFault_eq_ok {fault : Fault} {found : Option α} {a : α} :
    orFault fault found = .ok a <-> found = some a := by
  cases found <;> simp [orFault]

@[simp] theorem orFault_eq_error {fault other : Fault} {found : Option α} :
    orFault fault found = .error other <-> found = none ∧ other = fault := by
  cases found <;> simp [orFault, eq_comm]

@[simp] theorem refuse_ne_ok {e : DefinitionError} {a : α} :
    (refuse e : Answer α) ≠ .ok a := by
  intro h
  cases h

@[simp] theorem ite_refuse_eq_ok {p : Prop} [Decidable p] {e : DefinitionError} {a b : α} :
    (if p then .ok a else refuse e : Answer α) = .ok b <-> p ∧ b = a := by
  by_cases hp : p
  · rw [if_pos hp]
    constructor
    · intro h
      injection h with h
      exact ⟨hp, h.symm⟩
    · intro h
      rw [h.right]
  · rw [if_neg hp]
    constructor
    · intro h
      exact absurd h refuse_ne_ok
    · intro h
      exact absurd h.left hp

@[simp] theorem not_succeeds_error (fault : Fault) :
    ¬ Succeeds (.error fault : Answer α) := by
  intro h
  rcases h with ⟨a, ha⟩
  cases ha

@[simp] theorem succeeds_bind {x : Answer α} {next : α -> Answer β} :
    Succeeds (x >>= next) <-> exists a, x = .ok a ∧ Succeeds (next a) := by
  constructor
  · intro h
    rcases h with ⟨b, hb⟩
    rcases bind_eq_ok.mp hb with ⟨a, hx, hnext⟩
    exact ⟨a, hx, b, hnext⟩
  · intro h
    rcases h with ⟨a, hx, b, hnext⟩
    exact ⟨b, bind_eq_ok.mpr ⟨a, hx, hnext⟩⟩

@[simp] theorem succeeds_ok (a : α) : Succeeds (.ok a : Answer α) :=
  ⟨a, rfl⟩

theorem succeeds_pure {a : α} : Succeeds (pure a : Answer α) :=
  ⟨a, rfl⟩

theorem succeeds_bind_pure {x : Answer α} {f : α -> β} :
    Succeeds (x >>= fun a => pure (f a)) <-> Succeeds x := by
  rw [succeeds_bind]
  constructor
  · intro h
    rcases h with ⟨a, ha, _h⟩
    exact ⟨a, ha⟩
  · intro h
    rcases h with ⟨a, ha⟩
    exact ⟨a, ha, succeeds_pure⟩

theorem succeeds_both {γ : Type} {x : Answer α} {y : Answer β} {combine : α -> β -> γ} :
    Succeeds (x >>= fun a => y >>= fun b => pure (combine a b)) <->
      Succeeds x ∧ Succeeds y := by
  rw [succeeds_bind]
  constructor
  · intro h
    rcases h with ⟨a, ha, hy⟩
    exact ⟨⟨a, ha⟩, succeeds_bind_pure.mp hy⟩
  · intro h
    rcases h with ⟨⟨a, ha⟩, hy⟩
    exact ⟨a, ha, succeeds_bind_pure.mpr hy⟩

theorem map_bind_pure {α' γ γ' : Type} {x : Answer α} {f : α -> γ} {after : γ -> γ'}
    {change : α -> α'} {f' : α' -> γ'} (h : forall a, x = .ok a -> after (f a) = f' (change a)) :
    (x >>= fun a => pure (f a)).map after = x.map change >>= fun a => pure (f' a) := by
  cases hx : x with
  | error fault =>
      rfl
  | ok a =>
      exact congrArg Except.ok (h a hx)

theorem map_both {α' β' γ γ' : Type} {x : Answer α} {y : Answer β} {combine : α -> β -> γ}
    {after : γ -> γ'} {first : α -> α'} {second : β -> β'} {combine' : α' -> β' -> γ'}
    (h : forall a b, x = .ok a -> y = .ok b ->
      after (combine a b) = combine' (first a) (second b)) :
    (x >>= fun a => y >>= fun b => pure (combine a b)).map after =
      x.map first >>= fun a => y.map second >>= fun b => pure (combine' a b) := by
  cases hx : x with
  | error fault =>
      rfl
  | ok a =>
      exact map_bind_pure (h a · hx)

theorem succeeds_or_error (x : Answer α) :
    Succeeds x ∨ exists fault, x = .error fault := by
  cases x with
  | error fault =>
      exact Or.inr ⟨fault, rfl⟩
  | ok a =>
      exact Or.inl ⟨a, rfl⟩

theorem invariant_foldlM {P : β -> Prop} {step : β -> α -> Answer β} {xs : List α}
    (hstep : forall b b' x, x ∈ xs -> P b -> step b x = .ok b' -> P b') {b final : β}
    (hb : P b) (h : xs.foldlM step b = .ok final) : P final := by
  induction xs generalizing b with
  | nil =>
      rw [List.foldlM_nil] at h
      rw [← pure_eq_ok.mp h]
      exact hb
  | cons x rest ih =>
      rw [List.foldlM_cons] at h
      rcases bind_eq_ok.mp h with ⟨b', hb', h⟩
      exact ih (fun c c' y hy => hstep c c' y (List.mem_cons_of_mem _ hy))
        (hstep b b' x List.mem_cons_self hb hb') h

/-- A run whose steps ask for something and then go on without fault answers exactly when every
question is answered. -/
theorem foldlM_eq_ok {γ : Type} {ask : α -> Answer γ} {answer : α -> γ} {step : β -> α -> γ -> β}
    (hanswer : forall x y, ask x = .ok y -> y = answer x) {xs : List α} {b final : β} :
    xs.foldlM (fun b x => do return step b x (← ask x)) b = .ok final <->
      (forall x, x ∈ xs -> ask x = .ok (answer x)) ∧
        final = xs.foldl (fun b x => step b x (answer x)) b := by
  induction xs generalizing b with
  | nil =>
      rw [List.foldlM_nil, pure_eq_ok]
      simp [eq_comm]
  | cons x rest ih =>
      rw [List.foldlM_cons, bind_eq_ok, List.forall_mem_cons, List.foldl_cons]
      constructor
      · intro h
        rcases h with ⟨b', hb', hrest⟩
        rcases bind_eq_ok.mp hb' with ⟨y, hy, hstep⟩
        have hyx := hanswer x y hy
        subst hyx
        rw [← pure_eq_ok.mp hstep] at hrest
        rcases ih.mp hrest with ⟨hasked, hfinal⟩
        exact ⟨⟨hy, hasked⟩, hfinal⟩
      · intro h
        rcases h with ⟨⟨hx, hasked⟩, hfinal⟩
        exact ⟨_, bind_eq_ok.mpr ⟨_, hx, rfl⟩, ih.mpr ⟨hasked, hfinal⟩⟩

/-!
## Two operations side by side
-/

/-- Both operations answer, and their answers are related, or the same fault stops both. -/
inductive Related (R : α -> β -> Prop) : Answer α -> Answer β -> Prop
  | ok {a : α} {b : β} : R a b -> Related R (.ok a) (.ok b)
  | error (fault : Fault) : Related R (.error fault) (.error fault)

theorem Related.bind {γ δ : Type} {R : α -> β -> Prop} {S : γ -> δ -> Prop} {x : Answer α}
    {y : Answer β} {next : α -> Answer γ} {next' : β -> Answer δ} (h : Related R x y)
    (hnext : forall a b, R a b -> Related S (next a) (next' b)) :
    Related S (x >>= next) (y >>= next') := by
  cases h with
  | ok hab => exact hnext _ _ hab
  | error fault => exact .error fault

theorem Related.outcomes {R : α -> β -> Prop} {x : Answer α} {y : Answer β} (h : Related R x y) :
    (exists a b, x = .ok a ∧ y = .ok b ∧ R a b) ∨
      exists fault, x = .error fault ∧ y = .error fault := by
  cases h with
  | ok hab => exact Or.inl ⟨_, _, rfl, rfl, hab⟩
  | error fault => exact Or.inr ⟨fault, rfl, rfl⟩

theorem Related.refl {R : α -> α -> Prop} (h : forall a, R a a) (x : Answer α) : Related R x x := by
  cases x with
  | error fault => exact .error fault
  | ok a => exact .ok (h a)

end Answer
end ContentSchema
