import ContentSchema.Constraint.Basic
import ContentSchema.Pattern.Reading

/-!
# The pattern constraint

A text must match a pattern somewhere.  The pattern is read when the constraint is made, so a
text that is no pattern is refused before any value is tested.
-/

namespace ContentSchema

def Pattern.ReadingError.fault : Pattern.ReadingError → Fault
  | .malformed => .malformedPattern
  | .countTooLarge => .tooLarge
  | .conflictingSwitches => .badValue

def Pattern.compile (text : String) : Answer Pattern.Tree :=
  match Pattern.read text with
  | .ok tree => .ok tree
  | .error e => .error e.fault

def Constraint.matching (pattern : String) : Answer Constraint := do
  let tree ← Pattern.compile pattern
  return onText "matches" ("must match pattern " ++ Text.quoted pattern) (.matching tree)
    [("pattern", .text pattern)]

end ContentSchema
