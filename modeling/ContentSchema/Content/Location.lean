/-!
# Locations of files

A location is a sequence of steps, from the root or from the current folder.  Empty steps and
steps that stay in place are dropped when a location is read; steps upwards are kept.
-/

namespace ContentSchema

/-- Where a file or folder is; `root` is empty for what starts at the current folder. -/
structure Location where
  root : String
  steps : List String
deriving DecidableEq

namespace Location

/-- The root that a text starts with: exactly two slashes are a root of their own. -/
def rootOf (cs : List Char) : String :=
  match (cs.takeWhile (· = '/')).length with
  | 0 => ""
  | 2 => "//"
  | _ => "/"

def stepsOf (cs : List Char) : List String :=
  ((cs.splitOn '/').filter (fun step => !(step.isEmpty || step = ['.']))).map String.ofList

def ofText (text : String) : Location :=
  ⟨rootOf text.toList, stepsOf text.toList⟩

def text (l : Location) : String :=
  if l.root.isEmpty && l.steps.isEmpty then "." else l.root ++ "/".intercalate l.steps

def below (l : Location) (steps : List String) : Location :=
  { l with steps := l.steps ++ steps }

def name (l : Location) : String :=
  l.steps.getLast?.getD ""

/-- The suffix of a name: its last point and what follows, when something stands before the
point and behind it. -/
def suffix (l : Location) : List Char :=
  let reversed := l.name.toList.reverse
  let ending := reversed.takeWhile (· ≠ '.')
  let stem := reversed.drop (ending.length + 1)
  if ending.isEmpty || stem.isEmpty then [] else '.' :: ending.reverse

def stepsBefore : List String → List String → Bool
  | [], _ => true
  | _ :: _, [] => false
  | a :: as, b :: bs => a < b || (a = b && stepsBefore as bs)

end Location
end ContentSchema
