import ContentSchema.Value.DateText
import Mathlib.Tactic.IntervalCases
import Mathlib.Tactic.SplitIfs

/-!
# Genuine dates and moments

A day is genuine when the calendar has it, and a moment when its day is genuine and its time and
offset are in range.  This module says so without the tables that dates are computed with, and
shows that whatever a text is read as is genuine: as year, month and day, as year and week, with
a time or without one.
-/

namespace ContentSchema

theorem ite_some_eq_some {α : Type} {p : α -> Bool} {a b : α} :
    (if p a then some a else none) = some b <-> b = a ∧ p b = true := by
  rw [Option.ite_none_right_eq_some, Option.some.injEq]
  constructor
  · intro h
    rw [← h.right]
    exact ⟨rfl, h.left⟩
  · intro h
    rw [← h.left]
    exact ⟨h.right, rfl⟩

/-!
## Days
-/

namespace Date

def LeapYear (year : Nat) : Prop :=
  4 ∣ year ∧ (100 ∣ year -> 400 ∣ year)

instance (year : Nat) : Decidable (LeapYear year) :=
  inferInstanceAs (Decidable (4 ∣ year ∧ (100 ∣ year -> 400 ∣ year)))

def lastDay (year month : Nat) : Nat :=
  if month = 2 then
    if LeapYear year then 29 else 28
  else if month = 4 ∨ month = 6 ∨ month = 9 ∨ month = 11 then 30
  else 31

/-- The calendar has the day. -/
structure Genuine (d : Date) : Prop where
  year : 1 <= d.year ∧ d.year <= 9999
  month : 1 <= d.month ∧ d.month <= 12
  day : 1 <= d.day ∧ d.day <= lastDay d.year d.month

@[simp] theorem isLeapYear_iff {year : Nat} : isLeapYear year = true <-> LeapYear year := by
  simp only [isLeapYear, LeapYear, Bool.and_eq_true, Bool.or_eq_true, decide_eq_true_eq]
  omega

theorem monthLength_eq_lastDay {year month : Nat} (hmonth : 1 <= month ∧ month <= 12) :
    monthLength year month = lastDay year month := by
  have hfebruary : (if isLeapYear year then 29 else 28) = if LeapYear year then 29 else 28 := by
    simp
  rcases hmonth with ⟨hlow, hhigh⟩
  interval_cases month <;> first | exact hfebruary | rfl

@[simp] theorem isValid_iff {d : Date} : d.isValid = true <-> d.Genuine := by
  simp only [isValid, Bool.and_eq_true, decide_eq_true_eq]
  constructor
  · intro h
    rcases h with ⟨⟨⟨⟨⟨hfirst, hlast⟩, hjanuary⟩, hdecember⟩, hday⟩, hend⟩
    refine ⟨⟨hfirst, hlast⟩, ⟨hjanuary, hdecember⟩, hday, ?_⟩
    rw [← monthLength_eq_lastDay ⟨hjanuary, hdecember⟩]
    exact hend
  · intro h
    have hend := h.day.right
    rw [← monthLength_eq_lastDay h.month] at hend
    exact ⟨⟨⟨⟨h.year, h.month.left⟩, h.month.right⟩, h.day.left⟩, hend⟩

@[simp] theorem ofParts?_eq_some {year month day : Nat} {d : Date} :
    ofParts? year month day = some d <-> d = ⟨year, month, day⟩ ∧ d.Genuine := by
  rw [← isValid_iff]
  exact ite_some_eq_some

theorem genuine_of_ofDayOfYear? {year : Nat} {dayOfYear : Int} {d : Date}
    (h : ofDayOfYear? year dayOfYear = some d) : d.Genuine := by
  simp only [ofDayOfYear?] at h
  split_ifs at h <;> exact (ofParts?_eq_some.mp h).right

theorem genuine_of_ofWeek? {year week weekday : Nat} {d : Date}
    (h : ofWeek? year week weekday = some d) : d.Genuine := by
  simp only [ofWeek?, Option.ite_none_left_eq_some] at h
  exact genuine_of_ofDayOfYear? h.right.right

end Date

/-!
## Times and offsets
-/

structure TimeOfDay.Genuine (t : TimeOfDay) : Prop where
  hour : t.hour < 24
  minute : t.minute < 60
  second : t.second < 60
  microsecond : t.microsecond < 1000000

@[simp] theorem TimeOfDay.isValid_iff {t : TimeOfDay} : t.isValid = true <-> t.Genuine := by
  simp only [isValid, Bool.and_eq_true, decide_eq_true_eq]
  constructor
  · intro h
    exact ⟨h.left.left.left, h.left.left.right, h.left.right, h.right⟩
  · intro h
    exact ⟨⟨⟨h.hour, h.minute⟩, h.second⟩, h.microsecond⟩

@[simp] theorem TimeOfDay.ofParts?_eq_some {hour minute second microsecond : Nat} {t : TimeOfDay} :
    ofParts? hour minute second microsecond = some t <->
      t = ⟨hour, minute, second, microsecond⟩ ∧ t.Genuine := by
  rw [← isValid_iff]
  exact ite_some_eq_some

theorem TimeOfDay.genuine_midnight : midnight.Genuine := by
  constructor <;> decide

def Offset.Genuine (o : Offset) : Prop :=
  o.microseconds.natAbs < 24 * 60 * 60 * 1000000

@[simp] theorem Offset.isValid_iff {o : Offset} : o.isValid = true <-> o.Genuine := by
  rw [isValid, decide_eq_true_eq]
  rfl

@[simp] theorem Offset.ofMicroseconds?_eq_some {n : Int} {o : Offset} :
    ofMicroseconds? n = some o <-> o = ⟨n⟩ ∧ o.Genuine := by
  rw [← isValid_iff]
  exact ite_some_eq_some

theorem Offset.genuine_utc : utc.Genuine := by
  show (0 : Int).natAbs < _
  decide

structure DateTime.Genuine (t : DateTime) : Prop where
  date : t.date.Genuine
  time : t.time.Genuine
  offset : forall o, t.offset = some o -> o.Genuine

/-- The value is a day of the calendar, or a moment of such a day. -/
def Value.GenuineDate : Value -> Prop
  | .date d => d.Genuine
  | .dateTime t => t.Genuine
  | _ => False

/-!
## What texts are read as
-/

namespace IsoReading

theorem genuine_of_week? {year length used : Nat} {dashed : Bool} {cs : List Char} {d : Date}
    (h : week? year dashed length used cs = some d) : d.Genuine := by
  rcases Option.bind_eq_some_iff.mp h with ⟨⟨week, rest⟩, _hweek, h⟩
  by_cases hlonger : used + 2 < length
  · simp only [if_pos hlonger] at h
    split_ifs at h
    all_goals
      rcases Option.bind_eq_some_iff.mp h with ⟨_rest, _hrest, h⟩
      rcases Option.bind_eq_some_iff.mp h with ⟨_weekday, _hweekday, h⟩
      exact Date.genuine_of_ofWeek? h
  · simp only [if_neg hlonger] at h
    exact Date.genuine_of_ofWeek? h

theorem genuine_of_monthDay? {year : Nat} {dashed : Bool} {cs : List Char} {d : Date}
    (h : monthDay? year dashed cs = some d) : d.Genuine := by
  rcases Option.bind_eq_some_iff.mp h with ⟨⟨month, rest⟩, _hmonth, h⟩
  split_ifs at h
  all_goals
    rcases Option.bind_eq_some_iff.mp h with ⟨_rest, _hrest, h⟩
    rcases Option.bind_eq_some_iff.mp h with ⟨_day, _hday, h⟩
    exact (Date.ofParts?_eq_some.mp h).right

theorem genuine_of_day? {length : Nat} {cs : List Char} {d : Date}
    (h : day? length cs = some d) : d.Genuine := by
  rcases Option.bind_eq_some_iff.mp h with ⟨_year, _hyear, h⟩
  simp only at h
  split_ifs at h
  all_goals first
    | exact genuine_of_week? h
    | exact genuine_of_monthDay? h

theorem genuine_of_date? {cs : List Char} {d : Date} (h : date? cs = some d) : d.Genuine := by
  simp only [date?, Option.ite_none_right_eq_some] at h
  exact genuine_of_day? h.right

theorem genuine_of_offset? {negative : Bool} {cs : List Char} {o : Offset}
    (h : offset? negative cs = some o) : o.Genuine := by
  rcases Option.bind_eq_some_iff.mp h with ⟨p, _hp, h⟩
  simp only at h
  split_ifs at h
  · injection h with h
    rw [← h]
    exact Offset.genuine_utc
  all_goals exact (Offset.ofMicroseconds?_eq_some.mp h).right

theorem genuine_of_clock? {cs : List Char} {t : ClockTime} (h : clock? cs = some t) :
    t.time.Genuine ∧ forall o, t.offset = some o -> o.Genuine := by
  rcases Option.bind_eq_some_iff.mp h with ⟨p, _hp, h⟩
  rcases Option.bind_eq_some_iff.mp h with ⟨time, htime, h⟩
  have htime := (TimeOfDay.ofParts?_eq_some.mp htime).right
  split at h
  · simp only [Option.ite_none_left_eq_some, Option.some.injEq] at h
    rw [← h.right]
    exact ⟨htime, fun o ho => by cases ho⟩
  · simp only [Option.ite_none_right_eq_some, Option.some.injEq] at h
    rw [← h.right]
    refine ⟨htime, fun o ho => ?_⟩
    injection ho with ho
    rw [← ho]
    exact Offset.genuine_utc
  · rcases Option.bind_eq_some_iff.mp h with ⟨read, hread, h⟩
    injection h with h
    rw [← h]
    refine ⟨htime, fun o ho => ?_⟩
    injection ho with ho
    rw [← ho]
    exact genuine_of_offset? hread

theorem genuine_of_moment? {cs : List Char} {t : DateTime} (h : moment? cs = some t) :
    t.Genuine := by
  simp only [moment?, Option.ite_none_left_eq_some] at h
  rcases Option.bind_eq_some_iff.mp h.right with ⟨length, _hlength, h⟩
  rcases Option.bind_eq_some_iff.mp h with ⟨day, hday, h⟩
  have hday := genuine_of_day? hday
  split_ifs at h
  · rcases Option.bind_eq_some_iff.mp h with ⟨clock, hclock, h⟩
    injection h with h
    rw [← h]
    have hclock := genuine_of_clock? hclock
    exact ⟨hday, hclock.left, hclock.right⟩
  · injection h with h
    rw [← h]
    exact ⟨hday, TimeOfDay.genuine_midnight, fun o ho => by cases ho⟩

end IsoReading

theorem Value.genuine_of_ofDateChars? {cs : List Char} {v : Value}
    (h : ofDateChars? cs = some v) : v.GenuineDate := by
  simp only [ofDateChars?, Option.ite_none_left_eq_some] at h
  cases hdate : IsoReading.date? cs with
  | some d =>
      rw [hdate] at h
      injection h.right with h
      rw [← h]
      exact IsoReading.genuine_of_date? hdate
  | none =>
      rw [hdate] at h
      rcases Option.map_eq_some_iff.mp h.right with ⟨t, ht, hv⟩
      rw [← hv]
      exact IsoReading.genuine_of_moment? ht

end ContentSchema
