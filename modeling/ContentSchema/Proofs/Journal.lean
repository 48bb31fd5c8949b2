import ContentSchema.Log.Journal
import ContentSchema.Proofs.Answer

/-!
# Journals

The answer of a journaled operation does not depend on what it notes: it is the answer of its
steps, one after the other.  The calls on its log are those of its steps in the same order.
-/

namespace ContentSchema
namespace Journal

variable {α β γ : Type}

@[simp] theorem outcome_bind (first : Journal α) (next : α -> Journal β) :
    (first >>= next).outcome = first.outcome >>= fun a => (next a).outcome := by
  show (andThen first next).outcome = _
  unfold andThen
  cases first.outcome <;> rfl

@[simp] theorem outcome_pure (a : α) : (pure a : Journal α).outcome = .ok a :=
  rfl

@[simp] theorem outcome_ofAnswer (answer : Answer α) : (ofAnswer answer).outcome = answer :=
  rfl

@[simp] theorem outcome_note (e : Event) : (note e).outcome = .ok () :=
  rfl

@[simp] theorem pure_bind (a : α) (next : α -> Journal β) : (pure a >>= next) = next a := by
  show andThen ⟨[], .ok a⟩ next = next a
  simp only [andThen, List.nil_append]

theorem bind_assoc (first : Journal α) (second : α -> Journal β) (third : β -> Journal γ) :
    (first >>= second) >>= third = first >>= fun a => second a >>= third := by
  show andThen (andThen first second) third = andThen first (fun a => andThen (second a) third)
  rcases first with ⟨events, outcome⟩
  cases outcome with
  | error fault =>
      rfl
  | ok a =>
      simp only [andThen]
      cases (second a).outcome with
      | error fault =>
          rfl
      | ok b =>
          simp only [List.append_assoc]

/-!
## Calls on the log
-/

def calls (j : Journal α) : List LogEntry :=
  j.events.map Event.entry

@[simp] theorem calls_ofAnswer (answer : Answer α) : (ofAnswer answer).calls = [] :=
  rfl

@[simp] theorem calls_note (e : Event) : (note e).calls = [e.entry] :=
  rfl

@[simp] theorem calls_pure (a : α) : (pure a : Journal α).calls = [] :=
  rfl

/-- An operation in two steps that has an answer: both steps have one, and the calls of the first
come before those of the second. -/
theorem bind_eq_ok {first : Journal α} {next : α -> Journal β} {b : β}
    (h : (first >>= next).outcome = .ok b) :
    exists a, first.outcome = .ok a ∧ (next a).outcome = .ok b ∧
      (first >>= next).calls = first.calls ++ (next a).calls := by
  rw [outcome_bind] at h
  rcases Answer.bind_eq_ok.mp h with ⟨a, hfirst, hnext⟩
  refine ⟨a, hfirst, hnext, ?_⟩
  show (andThen first next).calls = _
  simp only [calls, andThen, hfirst, List.map_append]

end Journal
end ContentSchema
