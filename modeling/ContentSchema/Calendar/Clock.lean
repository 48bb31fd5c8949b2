import ContentSchema.Calendar.Date

/-!
# Times of day and instants

A time of day has microseconds.  A time may state its distance from universal time, in
microseconds and shorter than a day either way.  A moment is a day and a time; two moments
that both state a distance are the same when they are the same instant.
-/

namespace ContentSchema

structure TimeOfDay where
  hour : Nat
  minute : Nat
  second : Nat
  microsecond : Nat
deriving DecidableEq

namespace TimeOfDay

def isValid (t : TimeOfDay) : Bool :=
  t.hour < 24 && t.minute < 60 && t.second < 60 && t.microsecond < 1000000

def ofParts? (hour minute second microsecond : Nat) : Option TimeOfDay :=
  let t : TimeOfDay := ⟨hour, minute, second, microsecond⟩
  if t.isValid then some t else none

def midnight : TimeOfDay := ⟨0, 0, 0, 0⟩

def microseconds (t : TimeOfDay) : Nat :=
  ((t.hour * 60 + t.minute) * 60 + t.second) * 1000000 + t.microsecond

end TimeOfDay

def microsecondsPerDay : Nat := 86400000000

/-- A distance from universal time in microseconds, eastward positive. -/
structure Offset where
  microseconds : Int
deriving DecidableEq

namespace Offset

def utc : Offset := ⟨0⟩

def isValid (o : Offset) : Bool :=
  o.microseconds.natAbs < microsecondsPerDay

def ofMicroseconds? (n : Int) : Option Offset :=
  let o : Offset := ⟨n⟩
  if o.isValid then some o else none

end Offset

structure ClockTime where
  time : TimeOfDay
  offset : Option Offset
deriving DecidableEq

structure DateTime where
  date : Date
  time : TimeOfDay
  offset : Option Offset
deriving DecidableEq

namespace DateTime

def localMicroseconds (t : DateTime) : Int :=
  ((t.date.ordinal * microsecondsPerDay + t.time.microseconds : Nat) : Int)

def instant (t : DateTime) (o : Offset) : Int :=
  t.localMicroseconds - o.microseconds

/-- The same moment: the same instant when both state an offset, the same day and time when
neither does. -/
def sameMoment (a b : DateTime) : Bool :=
  match a.offset, b.offset with
  | some x, some y => a.instant x = b.instant y
  | none, none => a.date = b.date && a.time = b.time
  | _, _ => false

def before? (a b : DateTime) : Option Bool :=
  match a.offset, b.offset with
  | some x, some y => some (a.instant x < b.instant y)
  | none, none => some (a.localMicroseconds < b.localMicroseconds)
  | _, _ => none

end DateTime

namespace ClockTime

def sameTime (a b : ClockTime) : Bool :=
  match a.offset, b.offset with
  | some x, some y =>
      (a.time.microseconds : Int) - x.microseconds = (b.time.microseconds : Int) - y.microseconds
  | none, none => a.time = b.time
  | _, _ => false

def before? (a b : ClockTime) : Option Bool :=
  match a.offset, b.offset with
  | some x, some y =>
      some ((a.time.microseconds : Int) - x.microseconds <
        (b.time.microseconds : Int) - y.microseconds)
  | none, none => some (a.time.microseconds < b.time.microseconds)
  | _, _ => none

end ClockTime
end ContentSchema
