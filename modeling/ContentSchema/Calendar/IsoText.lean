import ContentSchema.Calendar.Clock
import ContentSchema.Text.Numeral

/-!
# Standard text of dates and times

Dates are written year, month, day with dashes; times with colons, with six digits of a
second when there are microseconds; offsets with a sign, hours and minutes, and seconds and
microseconds only when there are any.
-/

namespace ContentSchema

open Text (fixedDigits)

namespace Date

def isoChars (d : Date) : List Char :=
  fixedDigits 10 4 d.year ++ '-' :: fixedDigits 10 2 d.month ++ '-' :: fixedDigits 10 2 d.day

def isoText (d : Date) : String :=
  String.ofList d.isoChars

end Date

namespace TimeOfDay

def isoChars (t : TimeOfDay) : List Char :=
  fixedDigits 10 2 t.hour ++ ':' :: fixedDigits 10 2 t.minute ++ ':' :: fixedDigits 10 2 t.second ++
    (if t.microsecond = 0 then [] else '.' :: fixedDigits 10 6 t.microsecond)

end TimeOfDay

namespace Offset

def isoChars (o : Offset) : List Char :=
  let size := o.microseconds.natAbs
  let seconds := size / 1000000
  let micros := size % 1000000
  (if o.microseconds < 0 then '-' else '+') ::
    (fixedDigits 10 2 (seconds / 3600) ++ ':' :: fixedDigits 10 2 (seconds / 60 % 60) ++
      (if seconds % 60 = 0 ∧ micros = 0 then []
        else ':' :: fixedDigits 10 2 (seconds % 60) ++
          (if micros = 0 then [] else '.' :: fixedDigits 10 6 micros)))

end Offset

def offsetChars (offset : Option Offset) : List Char :=
  match offset with
  | some o => o.isoChars
  | none => []

namespace ClockTime

def isoText (t : ClockTime) : String :=
  String.ofList (t.time.isoChars ++ offsetChars t.offset)

end ClockTime

namespace DateTime

def isoChars (between : Char) (t : DateTime) : List Char :=
  t.date.isoChars ++ between :: t.time.isoChars ++ offsetChars t.offset

def isoText (t : DateTime) : String :=
  String.ofList (t.isoChars 'T')

def spacedText (t : DateTime) : String :=
  String.ofList (t.isoChars ' ')

end DateTime
end ContentSchema
