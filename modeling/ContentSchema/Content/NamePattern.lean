/-!
# Patterns for names

A pattern for the name of a file: an asterisk stands for any characters, a question mark for
one character, and brackets for one character of a set, given by characters and ranges and
negated by an exclamation mark.  Ranges whose ends are in the wrong order hold nothing.
-/

namespace ContentSchema
namespace NamePattern

/-!
## Sets of characters
-/

/-- A set of characters: groups of single characters, and a range from the end of each group
to the start of the next. -/
structure CharSet where
  negated : Bool
  groups : List (List Char)
deriving DecidableEq

namespace CharSet

/-- The groups between the dashes that make ranges.  A dash among the first `least`
characters of a group stands for itself. -/
def cut (least : Nat) : Nat → List Char → List (List Char)
  | 0, cs => [cs]
  | fuel + 1, cs =>
      let inner := (cs.drop least).takeWhile (· ≠ '-')
      let group := cs.take least ++ inner
      match cs.drop group.length with
      | [] => [group]
      | [dash] => [group ++ [dash]]
      | _ :: rest => group :: cut 2 fuel rest

/-- Joins a group to those behind it; a range that holds nothing goes with its two ends. -/
def joinGroup (group : List Char) : List (List Char) → List (List Char)
  | [] => [group]
  | next :: rest =>
      match group.getLast?, next with
      | some low, high :: tail =>
          if high < low then (group.dropLast ++ tail) :: rest else group :: next :: rest
      | _, _ => group :: next :: rest

def ofChars (cs : List Char) : CharSet :=
  let negated := cs.head? = some '!'
  let least := if negated then 2 else 1
  let groups := (cut least cs.length cs).foldr joinGroup []
  match groups with
  | first :: rest => ⟨negated, (if negated then first.drop 1 else first) :: rest⟩
  | [] => ⟨negated, []⟩

def rangesHold (c : Char) : List (List Char) → Bool
  | group :: next :: rest =>
      (match group.getLast?, next.head? with
        | some low, some high => low ≤ c && c ≤ high
        | _, _ => false) || rangesHold c (next :: rest)
  | _ => false

def holds (s : CharSet) (c : Char) : Bool :=
  (s.groups.any (·.contains c) || rangesHold c s.groups) != s.negated

end CharSet

/-!
## Patterns
-/

inductive Part
  | anyText
  | anyChar
  | oneOf (set : CharSet)
  | exactly (c : Char)
deriving DecidableEq

def bracketed? (cs : List Char) : Option (List Char × List Char) :=
  let mark := if cs.head? = some '!' then 1 else 0
  let literal := if (cs.drop mark).head? = some ']' then mark + 1 else mark
  let inner := (cs.drop literal).takeWhile (· ≠ ']')
  let set := cs.take literal ++ inner
  match cs.drop set.length with
  | _ :: rest => some (set, rest)
  | [] => none

def parts : Nat → List Char → List Part
  | 0, _ => []
  | _ + 1, [] => []
  | fuel + 1, '*' :: rest => .anyText :: parts fuel rest
  | fuel + 1, '?' :: rest => .anyChar :: parts fuel rest
  | fuel + 1, '[' :: rest =>
      match bracketed? rest with
      | some (set, rest) => .oneOf (.ofChars set) :: parts fuel rest
      | none => .exactly '[' :: parts fuel rest
  | fuel + 1, c :: rest => .exactly c :: parts fuel rest

def read (text : String) : List Part :=
  parts text.length text.toList

def isPattern (text : String) : Bool :=
  text.toList.any (fun c => c = '*' || c = '?' || c = '[')

/-!
## Matching
-/

def endings : List Char → List (List Char)
  | [] => [[]]
  | c :: rest => (c :: rest) :: endings rest

def Part.admits (p : Part) (c : Char) : Bool :=
  match p with
  | anyText => false
  | anyChar => true
  | oneOf set => set.holds c
  | exactly x => x = c

def matchesAll : List Part → List Char → Bool
  | [], cs => cs.isEmpty
  | .anyText :: rest, cs => (endings cs).any (matchesAll rest)
  | p :: rest, cs =>
      match cs with
      | c :: more => p.admits c && matchesAll rest more
      | [] => false

end NamePattern
end ContentSchema
