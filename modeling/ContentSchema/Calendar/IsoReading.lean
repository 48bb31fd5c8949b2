import ContentSchema.Calendar.Clock
import ContentSchema.Number.Power
import ContentSchema.Text.Blank
import ContentSchema.Text.Numeral

/-!
# Reading dates and times

Days are read as year, month and day or as year, week and weekday, each with or without
dashes.  A moment is a day, any one character, and a time; the time has hours, then
optionally minutes, seconds and a fraction, and optionally an offset or a `Z`.

Positions in a text are counted in bytes of its encoding, so a character that takes several
bytes stands there as often.  Past the end of the text the null character is read.
-/

namespace ContentSchema
namespace IsoReading

open Text (isDigit digitValue?)

/-!
## Digits
-/

/-- The characters of a text, each as often as it has bytes. -/
def octets (cs : List Char) : List Char :=
  cs.flatMap (fun c => List.replicate c.utf8Size c)

def front (cs : List Char) : Char :=
  cs.headD '\x00'

def charAt (cs : List Char) (i : Nat) : Char :=
  front (cs.drop i)

/-- Exactly `count` digits, as a number that continues `acc`. -/
def digits? : Nat → Nat → List Char → Option (Nat × List Char)
  | 0, acc, cs => some (acc, cs)
  | _ + 1, _, [] => none
  | count + 1, acc, c :: rest =>
      match digitValue? c with
      | some d => digits? count (10 * acc + d) rest
      | none => none

/-!
## Days
-/

/-- The rest of a day after year and dash, by week: `length` is the length of the whole day
text, `used` what was read of it up to the week. -/
def week? (year : Nat) (dashed : Bool) (length used : Nat) (cs : List Char) : Option Date := do
  let (week, rest) ← digits? 2 0 cs
  if used + 2 < length then
    let rest ← if dashed then (if front rest = '-' then some (rest.drop 1) else none)
      else some rest
    let (weekday, _) ← digits? 1 0 rest
    Date.ofWeek? year week weekday
  else Date.ofWeek? year week 1

def monthDay? (year : Nat) (dashed : Bool) (cs : List Char) : Option Date := do
  let (month, rest) ← digits? 2 0 cs
  let rest ← if dashed then (if front rest = '-' then some (rest.drop 1) else none) else some rest
  let (day, _) ← digits? 2 0 rest
  Date.ofParts? year month day

/-- A day at the front of a text, `length` bytes being meant for it. -/
def day? (length : Nat) (cs : List Char) : Option Date := do
  let (year, rest) ← digits? 4 0 cs
  let dashed := front rest = '-'
  let rest := if dashed then rest.drop 1 else rest
  if front rest = 'W' then
    week? year dashed length (if dashed then 6 else 5) (rest.drop 1)
  else monthDay? year dashed rest

def date? (text : List Char) : Option Date :=
  let cs := octets text
  if cs.length = 7 ∨ cs.length = 8 ∨ cs.length = 10 then day? cs.length cs else none

/-!
## Times
-/

structure Parts where
  hour : Nat
  minute : Nat
  second : Nat
  microsecond : Nat
  leftover : Bool

def Parts.withField (p : Parts) (field value : Nat) : Parts :=
  match field with
  | 0 => { p with hour := value }
  | 1 => { p with minute := value }
  | _ => { p with second := value }

/-- The fraction of a second.  Six digits count, and further ones are skipped; with fewer
than six, `remaining` of them must all be digits. -/
def fraction? (p : Parts) (remaining : Nat) (cs : List Char) : Option Parts := do
  let width := min remaining 6
  let (value, rest) ← digits? width 0 cs
  let after := rest.dropWhile isDigit
  return { p with microsecond := value * tenTo (6 - width), leftover := front after ≠ '\x00' }

/-- Hours, minutes and seconds and a fraction.  `length` counts the bytes that belong to
this part of the text, while reading may look one byte further.  `field` says which field
comes next, and `spaced` whether a colon followed the hour. -/
def fields? (p : Parts) (spaced : Bool) : Nat → Nat → Nat → List Char → Option Parts
  | 0, _, length, cs => fraction? p length cs
  | left + 1, field, length, cs => do
      let (value, rest) ← digits? 2 0 cs
      let p := p.withField field value
      let next := front rest
      let spaced := if field = 0 then next = ':' else spaced
      let rest' := rest.drop 1
      if length ≤ 3 then return { p with leftover := next ≠ '\x00' }
      else if spaced && next = ':' then fields? p spaced left (field + 1) (length - 3) rest'
      else if next = '.' ∨ next = ',' then fraction? p (length - 3) rest'
      else if spaced then none
      else fields? p spaced left (field + 1) (length - 2) rest

def parts? (length : Nat) (cs : List Char) : Option Parts :=
  fields? ⟨0, 0, 0, 0, false⟩ true 3 0 length cs

def offset? (negative : Bool) (cs : List Char) : Option Offset := do
  let p ← parts? cs.length cs
  if p.leftover then none
  else
    let seconds := (p.hour * 60 + p.minute) * 60 + p.second
    if seconds = 0 then some Offset.utc
    else
      let size : Int := (seconds * 1000000 + p.microsecond : Nat)
      Offset.ofMicroseconds? (if negative then -size else size)

def startsOffset (c : Char) : Bool :=
  c = '+' || c = '-' || c = 'Z'

def clock? (cs : List Char) : Option ClockTime := do
  let own := cs.takeWhile (fun c => !startsOffset c)
  let p ← parts? own.length cs
  let time ← TimeOfDay.ofParts? p.hour p.minute p.second p.microsecond
  match cs.drop own.length with
  | [] => if p.leftover then none else some ⟨time, none⟩
  | 'Z' :: rest => if front rest = '\x00' then some ⟨time, some Offset.utc⟩ else none
  | sign :: rest =>
      let o ← offset? (sign = '-') rest
      return ⟨time, some o⟩

/-!
## Moments
-/

/-- The length of the day at the front of a moment, which is told by the characters at fixed
places; `length` is the length of the whole text. -/
def dayLength? (length : Nat) (cs : List Char) : Option Nat :=
  if length = 7 then some 7
  else if charAt cs 4 = '-' then
    if charAt cs 5 = 'W' then
      if length < 8 then none
      else if 8 < length ∧ charAt cs 8 = '-' then
        if length = 9 then none
        else if 10 < length ∧ isDigit (charAt cs 10) then some 8
        else some 10
      else some 8
    else some 10
  else if charAt cs 4 = 'W' then
    let place := 7 + ((cs.drop 7).takeWhile isDigit).length
    if place < 9 then some place
    else if place % 2 = 0 then some 7 else some 8
  else some 8

/-- A moment: a day, any one character, and a time; or a day alone, which means midnight. -/
def moment? (text : List Char) : Option DateTime := do
  let cs := octets text
  if cs.length < 7 then none
  else
    let length ← dayLength? cs.length cs
    let day ← day? length cs
    if length < cs.length then
      let rest := cs.drop length
      let clock ← clock? (rest.drop (front rest).utf8Size)
      return ⟨day, clock.time, clock.offset⟩
    else return ⟨day, TimeOfDay.midnight, none⟩

end IsoReading
end ContentSchema
