import ContentSchema.Pattern.Width
import ContentSchema.Text.Numeral

/-!
# Reading patterns

The text form of a pattern.  A backslash and the character after it form one symbol.
Switches at the very start hold for the whole pattern, those of a group inside the group.  A
brace that does not open a count is an ordinary character.
-/

namespace ContentSchema
namespace Pattern

inductive ReadingError
  | malformed
  | countTooLarge
  | conflictingSwitches
deriving DecidableEq

/-!
## Symbols
-/

inductive Symbol
  | plain (c : Char)
  | escaped (c : Char)
deriving DecidableEq

def symbols? : List Char → Option (List Symbol)
  | [] => some []
  | ['\\'] => none
  | '\\' :: c :: rest => (symbols? rest).map (.escaped c :: ·)
  | c :: rest => (symbols? rest).map (.plain c :: ·)

def takeWhilePlain (p : Char → Bool) : Nat → List Symbol → List Char × List Symbol
  | count + 1, .plain c :: rest =>
      if p c then
        let (taken, left) := takeWhilePlain p count rest
        (c :: taken, left)
      else ([], .plain c :: rest)
  | _, symbols => ([], symbols)

def takeDigits (symbols : List Symbol) : List Char × List Symbol :=
  takeWhilePlain Text.isDigit symbols.length symbols

def takeName? (terminator : Char) : List Char → List Symbol → Option (List Char × List Symbol)
  | _, [] => none
  | taken, .escaped c :: rest => takeName? terminator (c :: '\\' :: taken) rest
  | taken, .plain c :: rest =>
      if c = terminator then
        if taken.isEmpty then none else some (taken.reverse, rest)
      else takeName? terminator (c :: taken) rest

def isName (cs : List Char) : Bool :=
  match cs with
  | [] => false
  | c :: rest =>
      Text.isWordCharacter c && !Text.isDecimalDigit c && rest.all Text.isWordCharacter

def groupedDigits? : Nat → List Char → Option Nat
  | acc, [] => some acc
  | acc, '_' :: c :: rest =>
      match Text.decimalDigitValue? c with
      | some d => groupedDigits? (10 * acc + d) rest
      | none => none
  | acc, c :: rest =>
      match Text.decimalDigitValue? c with
      | some d => groupedDigits? (10 * acc + d) rest
      | none => none

def groupNumber? (cs : List Char) : Option Nat :=
  let cs := Text.trimBlanks cs
  let cs := if cs.head? = some '+' then cs.drop 1 else cs
  match cs with
  | [] => none
  | '_' :: _ => none
  | _ => (groupedDigits? 0 cs).bind (fun n => if n = 0 then none else some n)

/-!
## Switches
-/

abbrev Switches := List Char

def isSwitch (c : Char) : Bool :=
  "iLmsxatu".toList.contains c

def isTypeSwitch (c : Char) : Bool :=
  c = 'a' || c = 'u' || c = 'L'

def switchesOn? : Switches → List Symbol → Option (Switches × Char × List Symbol)
  | on, .plain c :: rest =>
      if c = ')' ∨ c = '-' ∨ c = ':' then some (on, c, rest)
      else if !isSwitch c ∨ c = 'L' then none
      else if isTypeSwitch c && on.any (fun d => isTypeSwitch d && d != c) then none
      else switchesOn? (c :: on) rest
  | _, _ => none

def switchesOff? : Switches → List Symbol → Option (Switches × List Symbol)
  | off, .plain c :: rest =>
      if c = ':' then some (off, rest)
      else if !isSwitch c ∨ isTypeSwitch c then none
      else switchesOff? (c :: off) rest
  | _, _ => none

inductive SwitchGroup
  | whole (on : Switches)
  | inner (on off : Switches)

def switchGroup? (symbols : List Symbol) : Option (SwitchGroup × List Symbol) := do
  let (on, stop, rest) ← switchesOn? [] symbols
  if stop = ')' then
    if on.isEmpty then none else some (.whole on, rest)
  else if on.contains 't' then none
  else if stop = ':' then
    if on.isEmpty then none else some (.inner on [], rest)
  else
    let (off, rest) ← switchesOff? [] rest
    if off.isEmpty || off.contains 't' || on.any off.contains then none
    else some (.inner on off, rest)

def adjusted (switches on off : Switches) : Switches :=
  let kept := if on.any isTypeSwitch then switches.filter (fun c => !isTypeSwitch c) else switches
  (kept ++ on).filter (fun c => !off.contains c)

def foldingOf (switches : Switches) : Folding :=
  if switches.contains 'i' then
    if switches.contains 'a' then .ascii else .full
  else .exact

/-!
## Escapes
-/

def classOf (switches : Switches) (item : ClassItem) : Tree :=
  .character ⟨false, [item], foldingOf switches, switches.contains 'a'⟩

def categoryEscape? (c : Char) : Option ClassItem :=
  match c with
  | 'd' => some (.category .digit false)
  | 'D' => some (.category .digit true)
  | 's' => some (.category .blank false)
  | 'S' => some (.category .blank true)
  | 'w' => some (.category .word false)
  | 'W' => some (.category .word true)
  | _ => none

def placeEscape? (switches : Switches) (c : Char) : Option Place :=
  match c with
  | 'A' => some .textStart
  | 'Z' => some .textEnd
  | 'b' => some (.wordEdge false (switches.contains 'a'))
  | 'B' => some (.wordEdge true (switches.contains 'a'))
  | _ => none

def controlEscape? (c : Char) : Option Nat :=
  match c with
  | 'a' => some 7
  | 'b' => some 8
  | 't' => some 9
  | 'n' => some 10
  | 'v' => some 11
  | 'f' => some 12
  | 'r' => some 13
  | _ => none

def hexEscape? (count : Nat) (symbols : List Symbol) : Option (Nat × List Symbol) :=
  let (digits, rest) := takeWhilePlain Text.isHexDigit count symbols
  let n := Text.numberOf 16 digits
  if digits.length = count ∧ n ≤ 0x10FFFF then some (n, rest) else none

def isOctal (c : Char) : Bool :=
  48 ≤ c.toNat && c.toNat ≤ 55

def codeEscape? (c : Char) (rest : List Symbol) : Option (Nat × List Symbol) :=
  match c with
  | 'x' => hexEscape? 2 rest
  | 'u' => hexEscape? 4 rest
  | 'U' => hexEscape? 8 rest
  | _ =>
      if Text.isAsciiLetter c || Text.isDigit c then none
      else some (c.toNat, rest)

def classEscape? (c : Char) (rest : List Symbol) : Option (ClassItem × List Symbol) :=
  match controlEscape? c, categoryEscape? c with
  | some n, _ => some (.code n, rest)
  | none, some item => some (item, rest)
  | none, none =>
      if isOctal c then
        let (digits, rest) := takeWhilePlain isOctal 2 rest
        let n := Text.numberOf 8 (c :: digits)
        if n ≤ 0xFF then some (.code n, rest) else none
      else (codeEscape? c rest).map (fun r => (.code r.1, r.2))

inductive Numbered
  | code (n : Nat)
  | group (number : Nat)

def numberedEscape? (c : Char) (rest : List Symbol) : Option (Numbered × List Symbol) :=
  if c = '0' then
    let (digits, rest) := takeWhilePlain isOctal 2 rest
    some (.code (Text.numberOf 8 (c :: digits)), rest)
  else
    match takeWhilePlain Text.isDigit 1 rest with
    | ([d], rest') =>
        match takeWhilePlain isOctal 1 rest' with
        | ([e], rest'') =>
            if isOctal c && isOctal d then
              let n := Text.numberOf 8 [c, d, e]
              if n ≤ 0xFF then some (.code n, rest'') else none
            else some (.group (Text.numberOf 10 [c, d]), rest')
        | _ => some (.group (Text.numberOf 10 [c, d]), rest')
    | _ => some (.group (Text.numberOf 10 [c]), rest)

/-!
## Character classes
-/

/-- The members of a class up to its closing bracket; a bracket that comes first is a member.
`fuel` bounds the number of members. -/
def classItems? : Nat → List ClassItem → List Symbol → Option (List ClassItem × List Symbol)
  | 0, _, _ => none
  | _ + 1, _, [] => none
  | fuel + 1, items, symbol :: rest =>
      if symbol = .plain ']' && !items.isEmpty then some (items, rest)
      else do
        let (item, rest) ←
          match symbol with
          | .plain c => some (ClassItem.code c.toNat, rest)
          | .escaped c => classEscape? c rest
        match rest with
        | .plain '-' :: .plain ']' :: rest' => some (items ++ [item, .code 45], rest')
        | .plain '-' :: next :: rest' =>
            let (last, rest'') ←
              match next with
              | .plain c => some (ClassItem.code c.toNat, rest')
              | .escaped c => classEscape? c rest'
            match item, last with
            | .code a, .code b =>
                if b < a then none else classItems? fuel (items ++ [.range a b]) rest''
            | _, _ => none
        | [.plain '-'] => none
        | _ => classItems? fuel (items ++ [item]) rest

/-!
## Counts
-/

/-- A count in braces, or the sign that the brace is an ordinary character. -/
inductive Count
  | literal
  | bounds (least : Nat) (most : Option Nat)

def countLimit : Nat := 4294967295

def digitLimit : Nat := 4300

def countValue (digits : List Char) : Except ReadingError Nat :=
  if digitLimit < digits.length then .error .conflictingSwitches
  else
    let n := Text.numberOf 10 digits
    if countLimit ≤ n then .error .countTooLarge else .ok n

def count (symbols : List Symbol) : Except ReadingError (Count × List Symbol) :=
  let (low, rest) := takeDigits symbols
  let (high, rest) : List Char × List Symbol :=
    match rest with
    | .plain ',' :: rest' => takeDigits rest'
    | _ => (low, rest)
  match symbols, rest with
  | .plain '\x7d' :: _, _ => .ok (.literal, symbols)
  | _, .plain '\x7d' :: rest' => do
      let least ← if low.isEmpty then pure 0 else countValue low
      if high.isEmpty then return (.bounds least none, rest')
      else
        let most ← countValue high
        if most < least then throw .malformed
        return (.bounds least (some most), rest')
  | _, _ => .ok (.literal, symbols)

/-!
## Groups
-/

structure Groups where
  widths : List (Option Width)
  names : List (List Char × Nat)
  frontier : Option Nat
  awaited : List Nat
  variableLookBehind : Bool

namespace Groups

def none : Groups :=
  ⟨[], [], Option.none, [], false⟩

def openGroup? (g : Groups) (name : Option (List Char)) : Option (Nat × Groups) :=
  let number := g.widths.length + 1
  match name with
  | Option.none => some (number, { g with widths := g.widths ++ [Option.none] })
  | some name =>
      if g.names.any (fun n => n.1 = name) then Option.none
      else
        some (number, { g with
          widths := g.widths ++ [Option.none]
          names := (name, number) :: g.names })

def closeGroup (g : Groups) (number : Nat) (body : Tree) : Groups :=
  { g with widths := g.widths.set (number - 1) (some (body.width g.widths)) }

def isClosed (g : Groups) (number : Nat) : Bool :=
  ((g.widths[number - 1]?).join).isSome

/-- Inside a look behind only groups from before it may be referred to. -/
def reachesBehind (g : Groups) (number : Nat) : Bool :=
  match g.frontier with
  | Option.none => true
  | some known => g.isClosed number && number < known

def numberOf? (g : Groups) (name : List Char) : Option Nat :=
  (g.names.find? (fun n => n.1 = name)).map Prod.snd

def allows (g : Groups) (number : Nat) : Bool :=
  1 ≤ number && number ≤ g.widths.length && g.isClosed number && g.reachesBehind number

end Groups

/-!
## Trees
-/

structure Progress where
  rest : List Symbol
  groups : Groups

abbrev Read (α : Type) := StateT Progress (Except ReadingError) α

def malformed {α : Type} : Read α :=
  throw .malformed

def required {α : Type} : Option α → Read α
  | some a => pure a
  | none => malformed

def advance {α : Type} (f : List Symbol → Option (α × List Symbol)) : Read α := do
  let (a, rest) ← required (f (← get).rest)
  modify (fun p => { p with rest := rest })
  return a

def accept (c : Char) : Read Bool := do
  match (← get).rest with
  | .plain d :: rest =>
      if d = c then
        modify (fun p => { p with rest := rest })
        return true
      else return false
  | _ => return false

def expect (c : Char) : Read Unit := do
  if !(← accept c) then malformed

def closeComment : List Symbol → Option (Unit × List Symbol)
  | [] => none
  | .plain ')' :: rest => some ((), rest)
  | _ :: rest => closeComment rest

def lineComment : List Symbol → List Symbol
  | [] => []
  | .plain '\n' :: rest => rest
  | _ :: rest => lineComment rest

def isSkipped (c : Char) : Bool :=
  c.toNat = 32 || (9 ≤ c.toNat && c.toNat ≤ 13)

def isRepeatable : Tree → Bool
  | .place _ => false
  | .repeated _ _ _ _ => false
  | _ => true

def repeatMode : Read RepeatMode := do
  let isLazy ← accept '?'
  if isLazy then return .lazy
  let isPossessive ← accept '+'
  return if isPossessive then .possessive else .greedy

def repeatLast (switches : Switches) (least : Nat) (most : Option Nat) (parts : List Tree) :
    Read (List Tree) := do
  match parts with
  | [] => malformed
  | last :: earlier =>
      if !isRepeatable last || switches.contains 't' then malformed
      else
        return .repeated (← repeatMode) least most last :: earlier

def escapedPart (switches : Switches) (c : Char) : Read Tree := do
  match placeEscape? switches c, categoryEscape? c, controlEscape? c with
  | some p, _, _ => return .place p
  | none, some item, _ => return classOf switches item
  | none, none, some n => return classOf switches (.code n)
  | none, none, none =>
      if Text.isDigit c then
        match ← advance (numberedEscape? c) with
        | .code n => return classOf switches (.code n)
        | .group number =>
            if (← get).groups.allows number then
              return .backreference number (foldingOf switches)
            else malformed
      else return classOf switches (.code (← advance (codeEscape? c)))

mutual

def alternatives : Nat → Switches → Read Tree
  | 0, _ => malformed
  | fuel + 1, switches => do
      let first ← parts fuel switches []
      if ← accept '|' then
        match ← alternatives fuel switches with
        | .choice others => return .choice (first :: others)
        | other => return .choice [first, other]
      else return first

/-- Parts up to a bar, a closing bracket or the end; `done` holds the parts so far, last
first. -/
def parts : Nat → Switches → List Tree → Read Tree
  | 0, _, _ => malformed
  | fuel + 1, switches, done => do
      match (← get).rest with
      | [] => return .sequence done.reverse
      | .plain '|' :: _ => return .sequence done.reverse
      | .plain ')' :: _ => return .sequence done.reverse
      | .escaped c :: rest =>
          modify (fun p => { p with rest := rest })
          let part ← escapedPart switches c
          parts fuel switches (part :: done)
      | .plain c :: rest =>
          modify (fun p => { p with rest := rest })
          if switches.contains 'x' && isSkipped c then parts fuel switches done
          else if switches.contains 'x' && c = '#' then
            modify (fun p => { p with rest := lineComment rest })
            parts fuel switches done
          else
            match c with
            | '[' =>
                let negated ← accept '^'
                let items ← advance (fun symbols => classItems? (symbols.length + 1) [] symbols)
                let cls : CharacterClass :=
                  ⟨negated, items, foldingOf switches, switches.contains 'a'⟩
                parts fuel switches (.character cls :: done)
            | '?' => parts fuel switches (← repeatLast switches 0 (some 1) done)
            | '*' => parts fuel switches (← repeatLast switches 0 none done)
            | '+' => parts fuel switches (← repeatLast switches 1 none done)
            | '\x7b' =>
                match count rest with
                | .error e => throw e
                | .ok (.literal, rest') =>
                    modify (fun p => { p with rest := rest' })
                    parts fuel switches (classOf switches (.code c.toNat) :: done)
                | .ok (.bounds least most, rest') =>
                    modify (fun p => { p with rest := rest' })
                    parts fuel switches (← repeatLast switches least most done)
            | '.' => parts fuel switches (.anyCharacter (switches.contains 's') :: done)
            | '^' =>
                let p := if switches.contains 'm' then Place.lineStart else Place.textStart
                parts fuel switches (.place p :: done)
            | '$' =>
                let p := if switches.contains 'm' then Place.lineEnd else Place.lastLineEnd
                parts fuel switches (.place p :: done)
            | '(' =>
                match ← bracketed fuel switches with
                | some part => parts fuel switches (part :: done)
                | none => parts fuel switches done
            | _ => parts fuel switches (classOf switches (.code c.toNat) :: done)

def bracketed : Nat → Switches → Read (Option Tree)
  | 0, _ => malformed
  | fuel + 1, switches => do
      if ← accept '?' then
        match (← get).rest with
        | .plain 'P' :: .plain '<' :: rest =>
            modify (fun p => { p with rest := rest })
            let name ← advance (takeName? '>' [])
            if isName name then return some (← captured fuel switches (some name)) else malformed
        | .plain 'P' :: .plain '=' :: rest =>
            modify (fun p => { p with rest := rest })
            let name ← advance (takeName? ')' [])
            let groups := (← get).groups
            let number ← required (if isName name then groups.numberOf? name else none)
            if groups.allows number then
              return some (.backreference number (foldingOf switches))
            else malformed
        | .plain ':' :: rest =>
            modify (fun p => { p with rest := rest })
            return some (← grouped fuel switches)
        | .plain '#' :: rest =>
            modify (fun p => { p with rest := rest })
            advance closeComment
            return none
        | .plain '=' :: rest =>
            modify (fun p => { p with rest := rest })
            return some (.lookAhead false (← grouped fuel switches))
        | .plain '!' :: rest =>
            modify (fun p => { p with rest := rest })
            return some (.lookAhead true (← grouped fuel switches))
        | .plain '<' :: .plain '=' :: rest =>
            modify (fun p => { p with rest := rest })
            return some (← behind fuel switches false)
        | .plain '<' :: .plain '!' :: rest =>
            modify (fun p => { p with rest := rest })
            return some (← behind fuel switches true)
        | .plain '(' :: rest =>
            modify (fun p => { p with rest := rest })
            return some (← condition fuel switches)
        | .plain '>' :: rest =>
            modify (fun p => { p with rest := rest })
            return some (.atomic (← grouped fuel switches))
        | symbols =>
            match switchGroup? symbols with
            | some (.inner on off, rest) =>
                modify (fun p => { p with rest := rest })
                return some (← grouped fuel (adjusted switches on off))
            | _ => malformed
      else return some (← captured fuel switches none)

def grouped : Nat → Switches → Read Tree
  | 0, _ => malformed
  | fuel + 1, switches => do
      let body ← alternatives fuel switches
      expect ')'
      return .sequence [body]

def captured : Nat → Switches → Option (List Char) → Read Tree
  | 0, _, _ => malformed
  | fuel + 1, switches, name => do
      let (number, groups) ← required ((← get).groups.openGroup? name)
      modify (fun p => { p with groups := groups })
      let body ← alternatives fuel switches
      expect ')'
      modify (fun p => { p with groups := p.groups.closeGroup number body })
      return .group number body

def behind : Nat → Switches → Bool → Read Tree
  | 0, _, _ => malformed
  | fuel + 1, switches, negated => do
      let outer := (← get).groups.frontier
      modify (fun p => { p with groups := { p.groups with
        frontier := some (outer.getD (p.groups.widths.length + 1)) } })
      let body ← alternatives fuel switches
      modify (fun p => { p with groups := { p.groups with frontier := outer } })
      expect ')'
      let width := body.width (← get).groups.widths
      if !width.isFixed then
        modify (fun p => { p with groups := { p.groups with variableLookBehind := true } })
      return .lookBehind negated width.least body

def condition : Nat → Switches → Read Tree
  | 0, _ => malformed
  | fuel + 1, switches => do
      let name ← advance (takeName? ')' [])
      let number ←
        if isName name then required ((← get).groups.numberOf? name)
        else do
          let number ← required (groupNumber? name)
          modify (fun p => { p with groups := { p.groups with
            awaited := number :: p.groups.awaited } })
          pure number
      if !(← get).groups.reachesBehind number then malformed
      else
        let present ← parts fuel switches []
        let absent ← if ← accept '|' then parts fuel switches [] else pure (.sequence [])
        expect ')'
        return .conditional number present absent

end

/-- Switches, comments and skipped blanks at the very start; the switches hold for the whole
pattern. -/
def leadingSwitches : Nat → Switches → List Symbol → Switches × List Symbol
  | 0, switches, symbols => (switches, symbols)
  | fuel + 1, switches, symbols =>
      match symbols with
      | .plain '(' :: .plain '?' :: .plain '#' :: rest =>
          match closeComment rest with
          | some (_, rest') => leadingSwitches fuel switches rest'
          | none => (switches, symbols)
      | .plain '(' :: .plain '?' :: rest =>
          match switchGroup? rest with
          | some (.whole on, rest') => leadingSwitches fuel (switches ++ on) rest'
          | _ => (switches, symbols)
      | .plain c :: rest =>
          if switches.contains 'x' && isSkipped c then leadingSwitches fuel switches rest
          else if switches.contains 'x' && c = '#' then
            leadingSwitches fuel switches (lineComment rest)
          else (switches, symbols)
      | _ => (switches, symbols)

def read (text : String) : Except ReadingError Tree := do
  match symbols? text.toList with
  | none => throw .malformed
  | some all =>
      let (switches, rest) := leadingSwitches (all.length + 1) [] all
      let (tree, p) ← (alternatives (4 * all.length + 8) switches).run ⟨rest, Groups.none⟩
      if switches.contains 'a' && switches.contains 'u' then throw .conflictingSwitches
      else if !p.rest.isEmpty || p.groups.variableLookBehind ||
          p.groups.awaited.any (fun n => p.groups.widths.length < n) then throw .malformed
      else return tree

end Pattern
end ContentSchema
