import ContentSchema.Fault

/-!
# Failures of reading YAML

A text is malformed when it breaks a rule of the language, and then it can be reported as
such.  A scalar that has the form of a date or of a number but denotes none stops the
reading with a fault of its own.
-/

namespace ContentSchema
namespace Yaml

inductive Failure
  | malformed
  | stopped (fault : Fault)

instance : Inhabited Failure := ⟨.malformed⟩

abbrev Outcome (α : Type) := Except Failure α

def reject {α : Type} : Outcome α :=
  .error .malformed

end Yaml
end ContentSchema
