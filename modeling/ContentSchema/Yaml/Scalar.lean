import ContentSchema.Yaml.Cursor

/-!
# Scalars

The four ways of writing a scalar: in single or double quotes, as a block with its line
breaks kept or folded, and plain.  A single line break inside a folded or flowing text reads
as a blank, further ones as themselves.
-/

namespace ContentSchema
namespace Yaml
namespace Cursor

/-!
## Quoted scalars
-/

def escapeChar? (x : Char) : Option Char :=
  match x with
  | '0' => some (Char.ofNat 0x00)
  | 'a' => some (Char.ofNat 0x07)
  | 'b' => some (Char.ofNat 0x08)
  | 't' => some (Char.ofNat 0x09)
  | '\t' => some (Char.ofNat 0x09)
  | 'n' => some (Char.ofNat 0x0A)
  | 'v' => some (Char.ofNat 0x0B)
  | 'f' => some (Char.ofNat 0x0C)
  | 'r' => some (Char.ofNat 0x0D)
  | 'e' => some (Char.ofNat 0x1B)
  | ' ' => some ' '
  | '"' => some '"'
  | '\\' => some '\\'
  | '/' => some '/'
  | 'N' => some (Char.ofNat 0x85)
  | '_' => some (Char.ofNat 0xA0)
  | 'L' => some (Char.ofNat 0x2028)
  | 'P' => some (Char.ofNat 0x2029)
  | _ => none

def escapeWidth? (x : Char) : Option Nat :=
  match x with
  | 'x' => some 2
  | 'u' => some 4
  | 'U' => some 8
  | _ => none

def takeHex (width : Nat) (c : Cursor) : Outcome (Nat × Cursor) :=
  let digits := c.rest.take width
  if digits.length = width && digits.all Text.isHexDigit then
    .ok (Text.numberOf 16 digits, c.advance width)
  else reject

def takeLowHalf? (c : Cursor) : Option (Nat × Cursor) :=
  match c.rest with
  | '\\' :: 'u' :: _ =>
      match takeHex 4 (c.advance 2) with
      | .ok (n, c) => if 0xDC00 ≤ n ∧ n < 0xE000 then some (n, c) else none
      | .error _ => none
  | _ => none

/-- The character of an escape by code point; two halves of a pair make one character. -/
def takeCodeEscape (width : Nat) (c : Cursor) : Outcome (Char × Cursor) := do
  let (n, c) ← takeHex width c
  if 0x10FFFF < n then .error (.stopped (if n < 0x80000000 then .badValue else .tooLarge))
  else if 0xD800 ≤ n ∧ n < 0xDC00 then
    match takeLowHalf? c with
    | some (low, c) =>
        return (Char.ofNat (0x10000 + (n - 0xD800) * 0x400 + (low - 0xDC00)), c)
    | none => return (Char.ofNat 0xFFFD, c)
  else if 0xDC00 ≤ n ∧ n < 0xE000 then return (Char.ofNat 0xFFFD, c)
  else return (Char.ofNat n, c)

def takeQuotedBreaks : Nat → Cursor → Outcome (List Char × Cursor)
  | 0, c => .ok ([], c)
  | fuel + 1, c =>
      if c.seesAnySeparator then reject
      else
        let c := c.skipWhile (fun x => x = ' ' || x = '\t')
        match c.peek with
        | some x =>
            if isBreak x then do
              let (lineBreak, c) := c.takeBreak
              let (later, c) ← takeQuotedBreaks fuel c
              return (lineBreak ++ later, c)
            else .ok ([], c)
        | none => .ok ([], c)

def foldedBreak (first further : List Char) : List Char :=
  if first ≠ ['\n'] then first ++ further
  else if further.isEmpty then [' ']
  else further

def takeQuotedSpace (c : Cursor) : Outcome (List Char × Cursor) :=
  let (blanks, c) := c.takeWhile (fun x => x = ' ' || x = '\t')
  match c.peek with
  | none => reject
  | some x =>
      if isBreak x then do
        let (first, c) := c.takeBreak
        let (further, c) ← takeQuotedBreaks c.rest.length c
        return (foldedBreak first further, c)
      else .ok (blanks, c)

def takeEscape (c : Cursor) : Outcome (List Char × Cursor) :=
  match c.peek with
  | none => reject
  | some x =>
      match escapeChar? x, escapeWidth? x with
      | some y, _ => .ok ([y], c.next)
      | none, some width => do
          let (y, c) ← takeCodeEscape width c.next
          return ([y], c)
      | none, none =>
          if isBreak x then
            let c := c.takeBreak.2
            takeQuotedBreaks c.rest.length c
          else reject

def takeQuotedBody (quote : Char) : Nat → Cursor → Outcome (List Char × Cursor)
  | 0, _ => reject
  | fuel + 1, c =>
      match c.peek with
      | none => reject
      | some x =>
          if x = quote then
            if quote = '\'' && c.peekAt 1 = some '\'' then do
              let (later, c) ← takeQuotedBody quote fuel (c.advance 2)
              return ('\'' :: later, c)
            else .ok ([], c.next)
          else if quote = '"' && x = '\\' then do
            let (chars, c) ← takeEscape c.next
            let (later, c) ← takeQuotedBody quote fuel c
            return (chars ++ later, c)
          else if endsSpaced (some x) then do
            let (chars, c) ← takeQuotedSpace c
            let (later, c) ← takeQuotedBody quote fuel c
            return (chars ++ later, c)
          else do
            let (later, c) ← takeQuotedBody quote fuel c.next
            return (x :: later, c)

def takeQuoted (quote : Char) (c : Cursor) : Outcome (String × Cursor) := do
  let (chars, c) ← takeQuotedBody quote (c.rest.length + 1) c.next
  return (String.ofList chars, c)

/-!
## Block scalars
-/

inductive Chomping
  | clip
  | strip
  | keep
deriving DecidableEq

def chomping? (x : Option Char) : Option Chomping :=
  match x with
  | some '+' => some .keep
  | some '-' => some .strip
  | _ => none

def takeIndent (c : Cursor) : Outcome (Option Nat × Cursor) :=
  match c.peek.bind Text.digitValue? with
  | some 0 => reject
  | some n => .ok (some n, c.next)
  | none => .ok (none, c)

def takeBlockSigns (c : Cursor) : Outcome (Chomping × Option Nat × Cursor) := do
  let (chomping, indent, c) ←
    match chomping? c.peek with
    | some chomping => do
        let (indent, c) ← c.next.takeIndent
        pure (chomping, indent, c)
    | none => do
        let (indent, c) ← c.takeIndent
        match indent, chomping? c.peek with
        | some n, some chomping => pure (chomping, some n, c.next)
        | _, _ => pure (Chomping.clip, indent, c)
  if endsWord c.peek then return (chomping, indent, c) else reject

/-- Empty lines in front of a block whose indentation is not given: their line breaks, and the
greatest column that blanks reach. -/
def takeLeadingLines : Nat → Nat → Cursor → List Char × Nat × Cursor
  | 0, deepest, c => ([], deepest, c)
  | fuel + 1, deepest, c =>
      match c.peek with
      | some x =>
          if x = ' ' then takeLeadingLines fuel (max deepest c.next.column) c.next
          else if isBreak x then
            let (lineBreak, c) := c.takeBreak
            let (later, deepest, c) := takeLeadingLines fuel deepest c
            (lineBreak ++ later, deepest, c)
          else ([], deepest, c)
      | none => ([], deepest, c)

def skipIndent (indent : Nat) (c : Cursor) : Cursor :=
  c.advance (min (c.rest.takeWhile (· = ' ')).length (indent - c.column))

def takeBlockBreaks (indent : Nat) : Nat → Cursor → List Char × Cursor
  | 0, c => ([], c)
  | fuel + 1, c =>
      let c := c.skipIndent indent
      match c.peek with
      | some x =>
          if isBreak x then
            let (lineBreak, c) := c.takeBreak
            let (later, c) := takeBlockBreaks indent fuel c
            (lineBreak ++ later, c)
          else ([], c)
      | none => ([], c)

def seesSpace (c : Cursor) : Bool :=
  c.sees ' ' || c.sees '\t'

/-- The lines of a block that stand at its indentation; `breaks` are the empty lines before
them.  What comes back with the text is the last line break and the empty lines at the
end. -/
def takeBlockLines (folded : Bool) (indent : Nat) :
    Nat → List Char → Cursor → List Char × List Char × List Char × Cursor
  | 0, breaks, c => ([], [], breaks, c)
  | fuel + 1, breaks, c =>
      if c.column = indent && c.peek.isSome then
        let startsDense := !c.seesSpace
        let (line, c) := c.takeWhile (fun x => !isBreak x)
        let (lineBreak, c) := c.takeBreak
        let (further, c) := takeBlockBreaks indent c.rest.length c
        if c.column = indent && c.peek.isSome then
          let joint :=
            if folded && lineBreak = ['\n'] && startsDense && !c.seesSpace then
              if further.isEmpty then [' '] else []
            else lineBreak
          let (later, last, trailing, c) := takeBlockLines folded indent fuel further c
          (breaks ++ line ++ joint ++ later, last, trailing, c)
        else (breaks ++ line, lineBreak, further, c)
      else ([], [], breaks, c)

def takeBlock (folded : Bool) (parent : Int) (c : Cursor) : Outcome (String × Cursor) := do
  let (chomping, given, c) ← takeBlockSigns c.next
  let c ← c.finishLine
  let least := max (parent + 1) 1
  let (breaks, indent, c) : List Char × Nat × Cursor :=
    match given with
    | some n =>
        let indent := (least + n - 1).toNat
        let (breaks, c) := takeBlockBreaks indent (c.rest.length + 1) c
        (breaks, indent, c)
    | none =>
        let (breaks, deepest, c) := takeLeadingLines (c.rest.length + 1) 0 c
        (breaks, max least.toNat deepest, c)
  let (text, last, trailing, c) := takeBlockLines folded indent (c.rest.length + 1) breaks c
  let tail :=
    match chomping with
    | .strip => []
    | .clip => last
    | .keep => last ++ trailing
  return (String.ofList (text ++ tail), c)

/-!
## Plain scalars
-/

structure Plain where
  contents : List Char
  passedBreak : Bool
  cursor : Cursor

def stopsPlain (inFlow : Bool) (c : Cursor) : Bool :=
  match c.peek with
  | none => true
  | some x =>
      endsSpaced (some x) ||
        (x = ':' &&
          (endsSpaced (c.peekAt 1) ||
            inFlow && ((c.peekAt 1).map (",[]\x7b\x7d".toList.contains ·)).getD false)) ||
        inFlow && ",?[]\x7b\x7d".toList.contains x

def takePlainWord (inFlow : Bool) : Nat → Cursor → List Char × Cursor
  | 0, c => ([], c)
  | fuel + 1, c =>
      if stopsPlain inFlow c then ([], c)
      else
        match c.peek with
        | some x =>
            let (later, c) := takePlainWord inFlow fuel c.next
            (x :: later, c)
        | none => ([], c)

def takePlainBreaks : Nat → Cursor → Option (List Char) × Cursor
  | 0, c => (some [], c)
  | fuel + 1, c =>
      match c.peek with
      | some x =>
          if x = ' ' then takePlainBreaks fuel c.next
          else if isBreak x then
            let (lineBreak, c) := c.takeBreak
            if c.seesAnySeparator then (none, c)
            else
              let (later, c) := takePlainBreaks fuel c
              (later.map (lineBreak ++ ·), c)
          else (some [], c)
      | none => (some [], c)

/-- What stands between two words of a plain scalar: blanks, or line breaks as they read.
Nothing comes back when the scalar ends here. -/
def takePlainSpace (c : Cursor) : List Char × Bool × Cursor :=
  let (blanks, c) := c.takeWhile (· = ' ')
  match c.peek with
  | some x =>
      if isBreak x then
        let (first, c) := c.takeBreak
        if c.seesAnySeparator then ([], true, c)
        else
          match takePlainBreaks c.rest.length c with
          | (some further, c) => (foldedBreak first further, true, c)
          | (none, c) => ([], true, c)
      else (blanks, false, c)
  | none => (blanks, false, c)

/-- The words of a plain scalar; `spaces` stands in front of the next word.  Outside of flow
collections a line must be indented at least by `indent`. -/
def takePlainWords (inFlow : Bool) (indent : Int) : Nat → List Char → Bool → Cursor → Plain
  | 0, _, passed, c => ⟨[], passed, c⟩
  | fuel + 1, spaces, passed, c =>
      if c.sees '#' then ⟨[], passed, c⟩
      else
        let (word, c) := takePlainWord inFlow c.rest.length c
        if word.isEmpty then ⟨[], passed, c⟩
        else
          let (between, broke, c) := takePlainSpace c
          if between.isEmpty || c.sees '#' || (!inFlow && (c.column : Int) < indent) then
            ⟨spaces ++ word, broke, c⟩
          else
            let later := takePlainWords inFlow indent fuel between broke c
            { later with contents := spaces ++ word ++ later.contents }

def takePlain (inFlow : Bool) (parent : Int) (c : Cursor) : Plain :=
  takePlainWords inFlow (parent + 1) (c.rest.length + 1) [] false c

end Cursor
end Yaml
end ContentSchema
