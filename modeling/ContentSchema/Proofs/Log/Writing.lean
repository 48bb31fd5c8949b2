import ContentSchema.Log.Writing
import ContentSchema.Proofs.Journal

/-!
# Writing journals

Writing the journal of a whole operation comes to the same as writing those of its steps one
after the other.  An operation that answers while it is written answers in the same way without
a log, and nothing is left out of the log.
-/

namespace ContentSchema
namespace Journal

variable {α β : Type} {l : Logger} {j : Journal α}

@[simp] theorem writtenBy_ofAnswer (answer : Answer α) :
    (ofAnswer answer).writtenBy l = ofAnswer answer :=
  rfl

@[simp] theorem writtenBy_pure (a : α) : (pure a : Journal α).writtenBy l = pure a :=
  rfl

@[simp] theorem outcome_writtenBy_eq_ok {a : α} :
    (j.writtenBy l).outcome = .ok a <->
      j.outcome = .ok a ∧ forall e, e ∈ j.events -> l.takes e = true := by
  rw [← List.all_eq_true, writtenBy]
  cases j.events.all l.takes with
  | true =>
      exact (and_iff_left rfl).symm
  | false =>
      refine iff_of_false ?_ ?_
      · intro h
        cases h
      · intro h
        cases h.right

/-- The steps of an operation are written one after the other, and a step that is stopped by the
log stops what is behind it. -/
@[simp] theorem writtenBy_bind (first : Journal α) (next : α -> Journal β) :
    (first >>= next).writtenBy l = first.writtenBy l >>= fun a => (next a).writtenBy l := by
  show (andThen first next).writtenBy l =
    andThen (first.writtenBy l) (fun a => (next a).writtenBy l)
  rcases first with ⟨events, outcome⟩
  cases hall : events.all l.takes with
  | false =>
      have hlength : (events.takeWhile l.takes).length ≠ events.length := by
        intro hlength
        have hwhole := (List.takeWhile_prefix l.takes).eq_of_length hlength
        have htakes := List.all_takeWhile (p := l.takes) (l := events)
        rw [hwhole, hall] at htakes
        cases htakes
      cases outcome with
      | error fault =>
          simp [andThen, writtenBy, hall]
      | ok a =>
          simp [andThen, writtenBy, hall, List.takeWhile_append, hlength]
  | true =>
      cases outcome with
      | error fault =>
          simp [andThen, writtenBy, hall]
      | ok a =>
          have htakes := List.all_eq_true.mp hall
          cases hlater : (next a).events.all l.takes with
          | true =>
              simp [andThen, writtenBy, hall, hlater]
          | false =>
              simp [andThen, writtenBy, hall, hlater, List.takeWhile_append_of_pos htakes]

end Journal
end ContentSchema
