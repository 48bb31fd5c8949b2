import ContentSchema.Log.Journal
import ContentSchema.Log.Problem

/-!
# Writing journals

What an operation notes is written to a log at once.  When an event cannot be written, this
stops the operation in place of all that would come behind it.
-/

namespace ContentSchema

def Logger.takes (l : Logger) (e : Event) : Bool :=
  match l with
  | silent => true
  | component _ => e.entry.isWritable

/-- The operation as it goes when its events are written to a log. -/
def Journal.writtenBy {α : Type} (l : Logger) (j : Journal α) : Journal α :=
  if j.events.all l.takes then j else ⟨j.events.takeWhile l.takes, .error .wrongType⟩

end ContentSchema
