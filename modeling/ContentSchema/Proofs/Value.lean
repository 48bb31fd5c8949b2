import ContentSchema.Proofs.Entries
import ContentSchema.Value.Equality

/-!
# Values

A text is the same as itself and as nothing else, whatever the other value is.  So a mapping
whose keys are texts can be read like entries under names, and that is what records of objects
are.
-/

namespace ContentSchema
namespace Value

@[simp] theorem text_beq_iff {t : String} {v : Value} :
    (Value.text t == v) = true <-> v = .text t := by
  show same (.text t) v = true <-> v = .text t
  cases v with
  | text s =>
      simp only [same, sameScalar, beq_iff_eq, Value.text.injEq]
      exact eq_comm
  | _ =>
      simp [same, sameScalar, quantity?]

@[simp] theorem beq_text_iff {t : String} {v : Value} :
    (v == Value.text t) = true <-> v = .text t := by
  show same v (.text t) = true <-> v = .text t
  cases v <;> simp [same, sameScalar, quantity?]

@[simp] theorem text?_eq_some_iff {v : Value} {t : String} : v.text? = some t <-> v = .text t := by
  cases v <;> simp [text?]

@[simp] theorem isNull_iff {v : Value} : v.isNull = true <-> v = .null := by
  cases v <;> simp [isNull]

/-!
## Members
-/

def ofMembers (members : List (String × Value)) : Value :=
  .mapping (members.map (fun m => (.text m.1, m.2)))

@[simp] theorem field?_ofMembers {members : List (String × Value)} {name : String} :
    Value.field? (members.map (fun m => (.text m.1, m.2))) name =
      Entries.get? members name := by
  induction members with
  | nil =>
      rfl
  | cons m rest ih =>
      have hkey : (Value.text m.1 == Value.text name) = (m.1 == name) := by
        rw [Bool.eq_iff_iff, text_beq_iff, beq_iff_eq, Value.text.injEq, eq_comm]
      rw [Entries.get?_cons, ← ih]
      show Entries.get? ((Value.text m.1, m.2) :: _) (.text name) = _
      rw [Entries.get?_cons, hkey]
      rfl

theorem field?_put {entries : List (Value × Value)} {name other : String} {v : Value} :
    Value.field? (Entries.put entries (.text name) v) other =
      if name = other then some v else Value.field? entries other := by
  rw [Value.field?, Entries.get?_put_of_exact (fun _ => beq_text_iff) (fun _ => beq_text_iff)]
  by_cases hname : name = other
  · rw [if_pos (beq_text_iff.mpr (by rw [hname])), if_pos hname]
  · rw [if_neg (fun h => hname (Value.text.inj (beq_text_iff.mp h))), if_neg hname]
    rfl

theorem ofMembers_injective {members others : List (String × Value)}
    (h : ofMembers members = ofMembers others) : members = others := by
  injection h with h
  refine (List.map_inj_right ?_).mp h
  intro m n hmn
  injection hmn with hname hvalue
  injection hname with hname
  exact Prod.ext hname hvalue

/-- The first value occurs in the second, as a part of any depth or as the whole. -/
inductive Inside (w : Value) : Value -> Prop
  | here : Inside w w
  | key {entries : List (Value × Value)} {e : Value × Value} :
      e ∈ entries -> Inside w e.1 -> Inside w (.mapping entries)
  | entry {entries : List (Value × Value)} {e : Value × Value} :
      e ∈ entries -> Inside w e.2 -> Inside w (.mapping entries)
  | list {items : List Value} {v : Value} : v ∈ items -> Inside w v -> Inside w (.list items)
  | tuple {items : List Value} {v : Value} : v ∈ items -> Inside w v -> Inside w (.tuple items)
  | set {items : List Value} {v : Value} : v ∈ items -> Inside w v -> Inside w (.set items)
  | frozenSet {items : List Value} {v : Value} :
      v ∈ items -> Inside w v -> Inside w (.frozenSet items)

def isScalar : Value -> Bool
  | list _ => false
  | tuple _ => false
  | mapping _ => false
  | set _ => false
  | frozenSet _ => false
  | _ => true

/-- Induction from what a value holds to the value itself; of a mapping it goes by the values
under its keys. -/
theorem held_induction {motive : Value -> Prop}
    (scalar : forall v, v.isScalar = true -> motive v)
    (list : forall items, (forall v, v ∈ items -> motive v) -> motive (.list items))
    (tuple : forall items, (forall v, v ∈ items -> motive v) -> motive (.tuple items))
    (mapping : forall entries, (forall e, e ∈ entries -> motive e.2) -> motive (.mapping entries))
    (set : forall items, (forall v, v ∈ items -> motive v) -> motive (.set items))
    (frozenSet : forall items, (forall v, v ∈ items -> motive v) -> motive (.frozenSet items)) :
    forall v, motive v
  | .list items =>
      list items (fun v _hv => held_induction scalar list tuple mapping set frozenSet v)
  | .tuple items =>
      tuple items (fun v _hv => held_induction scalar list tuple mapping set frozenSet v)
  | .mapping entries =>
      mapping entries (fun e _he => held_induction scalar list tuple mapping set frozenSet e.2)
  | .set items =>
      set items (fun v _hv => held_induction scalar list tuple mapping set frozenSet v)
  | .frozenSet items =>
      frozenSet items (fun v _hv => held_induction scalar list tuple mapping set frozenSet v)
  | .null => scalar _ rfl
  | .bool _ => scalar _ rfl
  | .int _ => scalar _ rfl
  | .float _ => scalar _ rfl
  | .text _ => scalar _ rfl
  | .date _ => scalar _ rfl
  | .dateTime _ => scalar _ rfl
  | .time _ => scalar _ rfl
  | .bytes _ => scalar _ rfl
  | .selector _ => scalar _ rfl
  | .path _ => scalar _ rfl
termination_by v => sizeOf v
decreasing_by
  all_goals simp_wf
  · have hitem := List.sizeOf_lt_of_mem _hv
    omega
  · have hitem := List.sizeOf_lt_of_mem _hv
    omega
  · have hentry := List.sizeOf_lt_of_mem _he
    rcases e with ⟨key, v⟩
    simp only [Prod.mk.sizeOf_spec] at hentry ⊢
    omega
  · have hitem := List.sizeOf_lt_of_mem _hv
    omega
  · have hitem := List.sizeOf_lt_of_mem _hv
    omega

end Value
end ContentSchema
