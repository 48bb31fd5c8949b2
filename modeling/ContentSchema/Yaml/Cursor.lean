import ContentSchema.Yaml.Failure

/-!
# Places in a YAML text

What is left of a text, with the index, line and column of the place.  A line ends at a line
feed, a carriage return, both together, the next-line control, or a line or paragraph
separator; a byte-order mark takes no column.
-/

namespace ContentSchema
namespace Yaml

/-!
## Characters
-/

def isBreak (c : Char) : Bool :=
  c = '\n' || c = '\r' || c.toNat = 0x85 || c.toNat = 0x2028 || c.toNat = 0x2029

def byteOrderMark : Char := Char.ofNat 0xFEFF

def endsLine : Option Char → Bool
  | none => true
  | some c => isBreak c

def endsWord : Option Char → Bool
  | none => true
  | some c => c = ' ' || isBreak c

def endsSpaced : Option Char → Bool
  | none => true
  | some c => c = ' ' || c = '\t' || isBreak c

def isAllowed (c : Char) : Bool :=
  let n := c.toNat
  n = 0x09 || n = 0x0A || n = 0x0D || (0x20 ≤ n && n ≤ 0x7E) || n = 0x85 ||
    (0xA0 ≤ n && n ≤ 0xD7FF) || (0xE000 ≤ n && n ≤ 0xFFFD) || 0x10000 ≤ n

def isNameChar (c : Char) : Bool :=
  Text.isAsciiLetter c || Text.isDigit c || c = '-' || c = '_'

/-!
## Places
-/

structure Cursor where
  rest : List Char
  index : Nat
  line : Nat
  column : Nat

namespace Cursor

def start (text : List Char) : Cursor :=
  ⟨text, 0, 0, 0⟩

def peek (c : Cursor) : Option Char :=
  c.rest.head?

def peekAt (c : Cursor) (n : Nat) : Option Char :=
  (c.rest.drop n).head?

def sees (c : Cursor) (x : Char) : Bool :=
  c.peek = some x

def next (c : Cursor) : Cursor :=
  match c.rest with
  | [] => c
  | x :: rest =>
      if isBreak x && !(x = '\r' && rest.head? = some '\n') then
        ⟨rest, c.index + 1, c.line + 1, 0⟩
      else
        ⟨rest, c.index + 1, c.line, if x = byteOrderMark then c.column else c.column + 1⟩

def advance (c : Cursor) : Nat → Cursor
  | 0 => c
  | n + 1 => c.next.advance n

def takeWhile (c : Cursor) (p : Char → Bool) : List Char × Cursor :=
  let taken := c.rest.takeWhile p
  (taken, c.advance taken.length)

def skipWhile (c : Cursor) (p : Char → Bool) : Cursor :=
  (c.takeWhile p).2

def skipBlanks (c : Cursor) : Cursor :=
  c.skipWhile (· = ' ')

def skipComment (c : Cursor) : Cursor :=
  if c.sees '#' then c.skipWhile (fun x => !isBreak x) else c

/-- The end of a line as it is read, and the place behind it; separators are kept, every
other end reads as a line feed. -/
def takeBreak (c : Cursor) : List Char × Cursor :=
  match c.rest with
  | '\r' :: '\n' :: _ => (['\n'], c.advance 2)
  | x :: _ =>
      if x.toNat = 0x2028 || x.toNat = 0x2029 then ([x], c.next)
      else if isBreak x then (['\n'], c.next)
      else ([], c)
  | [] => ([], c)

def finishLine (c : Cursor) : Outcome Cursor :=
  let c := c.skipBlanks.skipComment
  if endsLine c.peek then .ok c.takeBreak.2 else reject

def seesSeparator (c : Cursor) (x : Char) : Bool :=
  c.rest.take 3 = [x, x, x] && endsSpaced (c.peekAt 3)

def seesAnySeparator (c : Cursor) : Bool :=
  c.seesSeparator '-' || c.seesSeparator '.'

end Cursor
end Yaml
end ContentSchema
