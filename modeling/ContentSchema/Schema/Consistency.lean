import ContentSchema.Schema.Basic

/-!
# Consistency

The defects of a schema tree in depth-first declared order: values that are no schemas, lists
of texts that are empty or repeat one, arrays without element, field names that come again,
and constraints on a kind that they do not apply to.  A tree without defects is consistent.
A list of values that have no hash cannot be looked through and stops the walk.
-/

namespace ContentSchema
namespace Schema

def rootPath : String := "<root>"

def childPath (path name : String) : String :=
  if path == rootPath then name else path ++ "." ++ name

def hasRepetition : List Value → Bool
  | [] => false
  | v :: rest => rest.contains v || hasRepetition rest

def misplacedConstraints (kind : PrimitiveKind) (constraints : List Constraint) (path : String) :
    List Defect :=
  (constraints.filter (fun c => !c.appliesTo.contains kind.name)).map
    (fun c => ⟨path, .misplacedConstraint c.name kind.name⟩)

/-- What is wrong with a list of allowed values.  A repetition shows only among values that can
be members of a set; others stop the walk. -/
def enumerationDefects (values : List Value) (path : String) : Answer (List Defect) :=
  if values.isEmpty then .ok [⟨path, .emptyEnum⟩]
  else if !Value.areHashable values then .error .wrongType
  else if hasRepetition values then .ok [⟨path, .repeatedEnumValue⟩]
  else .ok []

mutual

def defects : Schema → String → Answer (List Defect)
  | primitive _ kind constraints, path => .ok (misplacedConstraints kind constraints path)
  | enumeration _ values, path => enumerationDefects values path
  | object _ fields, path => fieldDefects [] fields path
  | array _ none, path => .ok [⟨path, .missingElement⟩]
  | array _ (some element), path => element.defects (path ++ "[]")
  | bare _, _ => .ok []
  | foreign v, path => .ok [⟨path, .notASchema v.typeName⟩]

def fieldDefects : List String → List (String × Schema) → String → Answer (List Defect)
  | _, [], _ => .ok []
  | seen, (name, child) :: rest, path => do
      let repeated := if seen.contains name then [⟨path, .repeatedField name⟩] else []
      let below ← child.defects (childPath path name)
      let later ← fieldDefects (name :: seen) rest path
      return repeated ++ below ++ later

end

def defectsAt (s : Schema) (path : String) : Answer (List Defect) :=
  s.defects (if path.isEmpty then rootPath else path)

def check (s : Schema) (path : String) : Answer Schema := do
  let found ← s.defectsAt path
  if found.isEmpty then .ok s else refuse (.inconsistent found)

end Schema
end ContentSchema
