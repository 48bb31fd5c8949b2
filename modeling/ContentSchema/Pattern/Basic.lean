import ContentSchema.Text.LetterCase
import ContentSchema.Text.Blank
import ContentSchema.Text.Word

/-!
# Text patterns

The tree of a regular expression: tests of single characters, places in the text, sequences,
choices, groups that remember what they matched, references to such groups, looks ahead and
behind, and repetition in three modes.  Letter case and the extent of the character classes
are settled at every leaf, so a tree means the same wherever it stands.
-/

namespace ContentSchema
namespace Pattern

/-!
## Single characters
-/

inductive Folding
  | exact
  | ascii
  | full
deriving DecidableEq

inductive Category
  | digit
  | blank
  | word
deriving DecidableEq

inductive ClassItem
  | code (n : Nat)
  | range (first last : Nat)
  | category (kind : Category) (negated : Bool)
deriving DecidableEq

structure CharacterClass where
  negated : Bool
  items : List ClassItem
  folding : Folding
  asciiOnly : Bool
deriving DecidableEq

def asciiCounterpart (c : Char) : Char :=
  if 65 ≤ c.toNat ∧ c.toNat ≤ 90 then Char.ofNat (c.toNat + 32)
  else if 97 ≤ c.toNat ∧ c.toNat ≤ 122 then Char.ofNat (c.toNat - 32)
  else c

def Folding.variants (folding : Folding) (c : Char) : List Char :=
  match folding with
  | .exact => [c]
  | .ascii => [c, asciiCounterpart c]
  | .full => Text.caseVariants c

def Folding.fold (folding : Folding) (c : Char) : Char :=
  match folding with
  | .exact => c
  | .ascii => if 65 ≤ c.toNat ∧ c.toNat ≤ 90 then Char.ofNat (c.toNat + 32) else c
  | .full => Text.lowerCase c

def Category.holds (kind : Category) (asciiOnly : Bool) (c : Char) : Bool :=
  (!asciiOnly || c.toNat < 128 && (c.toNat < 0x1C || 0x1F < c.toNat)) &&
    match kind with
    | .digit => Text.isDecimalDigit c
    | .blank => Text.isBlank c
    | .word => Text.isWordCharacter c

def ClassItem.holds (asciiOnly : Bool) (c : Char) (variants : List Char) : ClassItem → Bool
  | code n => variants.any (fun v => v.toNat = n)
  | range first last => variants.any (fun v => first ≤ v.toNat && v.toNat ≤ last)
  | category kind negated => kind.holds asciiOnly c != negated

def CharacterClass.holds (cls : CharacterClass) (c : Char) : Bool :=
  let variants := cls.folding.variants c
  cls.items.any (fun item => item.holds cls.asciiOnly c variants) != cls.negated

/-!
## Trees
-/

inductive Place
  | textStart
  | lineStart
  | textEnd
  | lastLineEnd
  | lineEnd
  | wordEdge (negated asciiOnly : Bool)
deriving DecidableEq

/-- How a repetition chooses the number of rounds: as many as possible, as few as possible,
or as many as possible without taking any back. -/
inductive RepeatMode
  | greedy
  | lazy
  | possessive
deriving DecidableEq

inductive Tree
  | anyCharacter (newlineToo : Bool)
  | character (cls : CharacterClass)
  | place (p : Place)
  | sequence (parts : List Tree)
  | choice (branches : List Tree)
  | group (number : Nat) (body : Tree)
  | backreference (number : Nat) (folding : Folding)
  | conditional (number : Nat) (present absent : Tree)
  | lookAhead (negated : Bool) (body : Tree)
  | lookBehind (negated : Bool) (width : Nat) (body : Tree)
  | atomic (body : Tree)
  | repeated (mode : RepeatMode) (least : Nat) (most : Option Nat) (body : Tree)

end Pattern
end ContentSchema
