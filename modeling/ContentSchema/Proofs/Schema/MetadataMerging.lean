import ContentSchema.Proofs.Merging
import ContentSchema.Proofs.Schema.Shape
import ContentSchema.Proofs.Value.Freezing

/-!
# Merging metadata

Metadata is written over metadata as the entries of one mapping over those of another, and is
frozen each time.  Freezing what is frozen changes nothing, so that adding twice is adding the
merged entries once; and hints for the editor, which are a mapping in the metadata, are merged in
the same way one level down.
-/

namespace ContentSchema
namespace Value

/-!
## Entries under names
-/

def named (members : List (String × Value)) : List (Value × Value) :=
  members.map (fun m => (.text m.1, m.2))

end Value

/-!
## Attributes
-/

namespace Attributes

def HasHints (a : Attributes) (hints : List (Value × Value)) : Prop :=
  Value.field? a.metadata "editor" = some (.mapping hints) ∨
    Value.field? a.metadata "editor" = none ∧ hints = []

theorem HasHints.editorHints {a : Attributes} {hints : List (Value × Value)}
    (h : a.HasHints hints) : a.editorHints = .ok hints := by
  rcases h with h | ⟨h, hhints⟩
  · rw [Attributes.editorHints, h]
    rfl
  · rw [Attributes.editorHints, h, hhints]

end Attributes

namespace Schema

variable {s : Schema} {a : Attributes}

end Schema
end ContentSchema
