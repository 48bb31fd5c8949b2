import ContentSchema.Number.Power
import ContentSchema.Text.Lines
import ContentSchema.Yaml.Failure

/-!
# Timestamps

A timestamp is a day, or a day and a time of day with an optional distance from universal
time.  The form is read first; whether the day and the time exist is decided when the value
is made.
-/

namespace ContentSchema
namespace Yaml

/-!
## The form
-/

inductive TimestampZone
  | universal
  | distance (negative : Bool) (hours minutes : Nat)
deriving DecidableEq

structure TimestampClock where
  hour : Nat
  minute : Nat
  second : Nat
  fraction : List Char
  zone : Option TimestampZone
deriving DecidableEq

/-- The parts of a timestamp; `isFull` says that month and day have two digits. -/
structure Timestamp where
  year : Nat
  month : Nat
  day : Nat
  isFull : Bool
  clock : Option TimestampClock
deriving DecidableEq

namespace Timestamp

def takeDigits (least most : Nat) (cs : List Char) : Option (List Char × List Char) :=
  let digits := (cs.take most).takeWhile Text.isDigit
  if least ≤ digits.length then some (digits, cs.drop digits.length) else none

def takeAfter (sign : Char) (least most : Nat) (cs : List Char) :
    Option (List Char × List Char) :=
  match cs with
  | c :: rest => if c = sign then takeDigits least most rest else none
  | [] => none

def isGap (c : Char) : Bool :=
  c = ' ' || c = '\t'

def zone? (cs : List Char) : Option TimestampZone :=
  match cs with
  | ['Z'] => some .universal
  | sign :: rest => do
      if sign ≠ '+' ∧ sign ≠ '-' then none
      let (hours, rest) ← takeDigits 1 2 rest
      let minutes ←
        if rest.isEmpty then some []
        else do
          let (minutes, rest) ← takeAfter ':' 2 2 rest
          if rest.isEmpty then some minutes else none
      return .distance (sign = '-') (Text.numberOf 10 hours) (Text.numberOf 10 minutes)
  | [] => none

def clock? (cs : List Char) : Option TimestampClock := do
  let (hour, cs) ← takeDigits 1 2 cs
  let (minute, cs) ← takeAfter ':' 2 2 cs
  let (second, cs) ← takeAfter ':' 2 2 cs
  let (fraction, cs) : List Char × List Char :=
    match cs with
    | '.' :: rest => rest.span Text.isDigit
    | _ => ([], cs)
  let zone ← if cs.isEmpty then some none else (zone? (cs.dropWhile isGap)).map some
  return ⟨Text.numberOf 10 hour, Text.numberOf 10 minute, Text.numberOf 10 second, fraction, zone⟩

def skipSeparator? (cs : List Char) : Option (List Char) :=
  match cs with
  | 'T' :: rest => some rest
  | 't' :: rest => some rest
  | c :: rest => if isGap c then some (rest.dropWhile isGap) else none
  | [] => none

def read? (text : String) : Option Timestamp := do
  let (year, cs) ← takeDigits 4 4 (Text.withoutFinalNewline text.toList)
  let (month, cs) ← takeAfter '-' 1 2 cs
  let (day, cs) ← takeAfter '-' 1 2 cs
  let clock ← if cs.isEmpty then some none else ((skipSeparator? cs).bind clock?).map some
  return ⟨Text.numberOf 10 year, Text.numberOf 10 month, Text.numberOf 10 day,
    month.length = 2 && day.length = 2, clock⟩

/-- Whether a plain scalar of this form is a timestamp; a day alone must be written in full. -/
def isImplicit (t : Timestamp) : Bool :=
  t.clock.isSome || t.isFull

/-!
## The value
-/

def microsecond (fraction : List Char) : Nat :=
  let kept := fraction.take 6
  Text.numberOf 10 kept * tenTo (6 - kept.length)

def offset? : TimestampZone → Option Offset
  | .universal => some .utc
  | .distance negative hours minutes =>
      let size : Int := ((hours * 60 + minutes) * 60000000 : Nat)
      Offset.ofMicroseconds? (if negative then -size else size)

def value? (t : Timestamp) : Option Value := do
  let date ← Date.ofParts? t.year t.month t.day
  match t.clock with
  | none => return .date date
  | some c =>
      let time ← TimeOfDay.ofParts? c.hour c.minute c.second (microsecond c.fraction)
      let offset ←
        match c.zone with
        | some zone => (offset? zone).map some
        | none => some none
      return .dateTime ⟨date, time, offset⟩

end Timestamp
end Yaml
end ContentSchema
