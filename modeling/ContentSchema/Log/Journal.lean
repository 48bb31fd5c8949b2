import ContentSchema.Fault
import ContentSchema.Log.Event

/-!
# Journals

An operation that notes events and may be stopped by a fault.  The events noted before a
fault stay in the journal.
-/

namespace ContentSchema

/-- The events of an operation, in order, and its answer. -/
structure Journal (α : Type) where
  events : List Event
  outcome : Answer α

namespace Journal

variable {α β : Type}

def ofAnswer (outcome : Answer α) : Journal α :=
  ⟨[], outcome⟩

def note (e : Event) : Journal Unit :=
  ⟨[e], .ok ()⟩

def andThen (first : Journal α) (next : α → Journal β) : Journal β :=
  match first.outcome with
  | .ok a =>
      let second := next a
      ⟨first.events ++ second.events, second.outcome⟩
  | .error fault => ⟨first.events, .error fault⟩

instance : Monad Journal where
  pure a := ⟨[], .ok a⟩
  bind := andThen

instance : MonadLift Answer Journal where
  monadLift := ofAnswer

end Journal
end ContentSchema
