import ContentSchema.Pattern.Basic

/-!
# Matching

A pattern is tried at a place of the text and hands every place where it can end to the rest
of the pattern, in order of preference.  A repetition beyond its least number of rounds goes
round again only from a place farther on than where the last such round began, so the length
of the text bounds the rounds.
-/

namespace ContentSchema
namespace Pattern

/-!
## Places
-/

/-- A place in a text: what stands before it, nearest first, what comes after it, how many
characters precede it, and what the groups have matched so far. -/
structure Spot where
  before : List Char
  after : List Char
  position : Nat
  captures : List (Nat × List Char)

namespace Spot

def start (text : List Char) : Spot :=
  ⟨[], text, 0, []⟩

def next? (s : Spot) : Option (Char × Spot) :=
  match s.after with
  | [] => none
  | c :: rest =>
      some (c, { s with before := c :: s.before, after := rest, position := s.position + 1 })

def back? (s : Spot) (count : Nat) : Option Spot :=
  if s.position < count then none
  else
    some { s with
      before := s.before.drop count
      after := (s.before.take count).reverse ++ s.after
      position := s.position - count }

def capture? (s : Spot) (number : Nat) : Option (List Char) :=
  (s.captures.find? (fun g => g.1 = number)).map Prod.snd

def remember (s : Spot) (number : Nat) (since : Spot) : Spot :=
  let text := (s.before.take (s.position - since.position)).reverse
  { s with captures := (number, text) :: s.captures.filter (fun g => g.1 ≠ number) }

def through? (folding : Folding) : List Char → Spot → Option Spot
  | [], s => some s
  | c :: rest, s =>
      match s.next? with
      | some (d, s') => if folding.fold c = folding.fold d then through? folding rest s' else none
      | none => none

def wordSides (s : Spot) (asciiOnly : Bool) : Bool × Bool :=
  let isWord (c : Char) : Bool := Category.word.holds asciiOnly c
  ((s.before.head?.map isWord).getD false, (s.after.head?.map isWord).getD false)

end Spot

/-- Whether a place is of the given kind.  In an empty text no place is an edge of a word,
nor the inside or outside of one. -/
def Place.holds (s : Spot) : Place → Bool
  | textStart => s.before.isEmpty
  | lineStart => s.before.isEmpty || s.before.head? = some '\n'
  | textEnd => s.after.isEmpty
  | lastLineEnd => s.after.isEmpty || s.after = ['\n']
  | lineEnd => s.after.isEmpty || s.after.head? = some '\n'
  | wordEdge negated asciiOnly =>
      if s.before.isEmpty && s.after.isEmpty then false
      else
        let (left, right) := s.wordSides asciiOnly
        (left != right) != negated

/-!
## Repetition
-/

/-- The rest of a pattern: where it ends from a place, if it matches there. -/
abbrev Continuation := Spot → Option Spot

abbrev Matcher := Spot → Continuation → Option Spot

def rounds (body : Matcher) : Nat → Matcher
  | 0, s, k => k s
  | n + 1, s, k => body s (fun s' => rounds body n s' k)

def mayGoOn (most : Option Nat) (done : Nat) (last : Option Nat) (s : Spot) : Bool :=
  (match most with
    | none => true
    | some m => done < m) && last ≠ some s.position

def manyFirst (body : Matcher) (most : Option Nat) : Nat → Nat → Option Nat → Matcher
  | 0, _, _, s, k => k s
  | fuel + 1, done, last, s, k =>
      if mayGoOn most done last s then
        (body s (fun s' => manyFirst body most fuel (done + 1) (some s.position) s' k)).orElse
          (fun _ => k s)
      else k s

def fewFirst (body : Matcher) (most : Option Nat) : Nat → Nat → Option Nat → Matcher
  | 0, _, _, s, k => k s
  | fuel + 1, done, last, s, k =>
      (k s).orElse (fun _ =>
        if mayGoOn most done last s then
          body s (fun s' => fewFirst body most fuel (done + 1) (some s.position) s' k)
        else none)

def settledRounds (body : Matcher) (most : Option Nat) : Nat → Nat → Option Nat → Spot → Spot
  | 0, _, _, s => s
  | fuel + 1, done, last, s =>
      if mayGoOn most done last s then
        match body s some with
        | some s' => settledRounds body most fuel (done + 1) (some s.position) s'
        | none => s
      else s

/-- A repetition.  Rounds up to the least number need no progress; each later round begins
farther on than the one before, so one more round than characters left is never needed. -/
def repetition (mode : RepeatMode) (least : Nat) (most : Option Nat) (body : Matcher) : Matcher :=
  fun s k =>
    match mode with
    | .greedy =>
        rounds body least s (fun s' => manyFirst body most (s'.after.length + 2) least none s' k)
    | .lazy =>
        rounds body least s (fun s' => fewFirst body most (s'.after.length + 2) least none s' k)
    | .possessive =>
        let settled : Matcher := fun s k => (body s some).bind k
        rounds settled least s
          (fun s' => k (settledRounds body most (s'.after.length + 2) least none s'))

/-!
## Trees
-/

mutual

def Tree.run : Tree → Matcher
  | .anyCharacter newlineToo => fun s k =>
      match s.next? with
      | some (c, s') => if newlineToo || c ≠ '\n' then k s' else none
      | none => none
  | .character cls => fun s k =>
      match s.next? with
      | some (c, s') => if cls.holds c then k s' else none
      | none => none
  | .place p => fun s k => if p.holds s then k s else none
  | .sequence parts => fun s k => runSequence parts s k
  | .choice branches => fun s k => runChoice branches s k
  | .group number body => fun s k => body.run s (fun s' => k (s'.remember number s))
  | .backreference number folding => fun s k =>
      match s.capture? number with
      | some text => (s.through? folding text).bind k
      | none => none
  | .conditional number present absent => fun s k =>
      if (s.capture? number).isSome then present.run s k else absent.run s k
  | .lookAhead negated body => fun s k =>
      match body.run s some, negated with
      | some s', false => k { s with captures := s'.captures }
      | none, true => k s
      | _, _ => none
  | .lookBehind negated width body => fun s k =>
      match (s.back? width).bind (fun b => body.run b some), negated with
      | some s', false => k { s with captures := s'.captures }
      | none, true => k s
      | _, _ => none
  | .atomic body => fun s k => (body.run s some).bind k
  | .repeated mode least most body => repetition mode least most (fun s k => body.run s k)

def runSequence : List Tree → Matcher
  | [], s, k => k s
  | part :: rest, s, k => part.run s (fun s' => runSequence rest s' k)

def runChoice : List Tree → Matcher
  | [], _, _ => none
  | branch :: rest, s, k => (branch.run s k).orElse (fun _ => runChoice rest s k)

end

/-!
## Searching
-/

def searchFrom (tree : Tree) : Nat → Spot → Bool
  | 0, s => (tree.run s some).isSome
  | left + 1, s =>
      (tree.run s some).isSome ||
        match s.next? with
        | some (_, s') => searchFrom tree left s'
        | none => false

def Tree.occursIn (tree : Tree) (text : List Char) : Bool :=
  searchFrom tree text.length (Spot.start text)

end Pattern
end ContentSchema
