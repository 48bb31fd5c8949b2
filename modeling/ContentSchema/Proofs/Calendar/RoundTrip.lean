import ContentSchema.Proofs.Calendar.Digits
import ContentSchema.Proofs.Calendar.Genuine
import Mathlib

/-!
# Reading standard text back

The standard text of a genuine day is read as this day, and the standard text of a genuine moment
as this moment, with one exception: an offset of only a fraction of a second is taken for
universal time.
-/

namespace ContentSchema

open Text (fixedDigits isDigit IsPlain)

/-!
## What is read of an offset
-/

namespace Offset

/-- The offset that is read where this one is written: whole seconds decide whether there is any
offset. -/
def asRead (o : Offset) : Offset :=
  if o.microseconds.natAbs < 1000000 then utc else o

/-- The offset is none, or at least a second either way. -/
def Resolved (o : Offset) : Prop :=
  o.microseconds = 0 ∨ 1000000 <= o.microseconds.natAbs

theorem asRead_eq_self_iff {o : Offset} : o.asRead = o <-> o.Resolved := by
  unfold asRead Resolved
  by_cases hsmall : o.microseconds.natAbs < 1000000
  · rw [if_pos hsmall]
    constructor
    · intro h
      rw [← h]
      exact Or.inl rfl
    · intro h
      rcases h with h | h
      · rw [utc, ← h]
      · omega
  · rw [if_neg hsmall]
    exact ⟨fun _ => Or.inr (by omega), fun _ => rfl⟩

end Offset

def DateTime.asRead (t : DateTime) : DateTime :=
  { t with offset := t.offset.map Offset.asRead }

theorem DateTime.asRead_eq_self_iff {t : DateTime} :
    t.asRead = t <-> forall o, t.offset = some o -> o.Resolved := by
  rcases t with ⟨date, time, offset⟩
  cases offset with
  | none =>
      exact ⟨fun _ => nofun, fun _ => rfl⟩
  | some o =>
      simp only [asRead, Option.map_some, mk.injEq, Option.some.injEq, true_and,
        Offset.asRead_eq_self_iff, forall_eq']

/-!
## The characters of standard texts
-/

theorem isPlain_of_mem_fixedDigits {width n : Nat} {c : Char} (hc : c ∈ fixedDigits 10 width n) :
    IsPlain c :=
  Text.isPlain_of_isDigit (Text.isDigit_of_mem_fixedDigits hc)

namespace Date

theorem isPlain_of_mem_isoChars {d : Date} {c : Char} (hc : c ∈ d.isoChars) : IsPlain c := by
  simp only [isoChars, List.mem_append, List.mem_cons] at hc
  rcases hc with (hc | hc | hc) | hc | hc
  · exact isPlain_of_mem_fixedDigits hc
  · rw [hc]
    decide
  · exact isPlain_of_mem_fixedDigits hc
  · rw [hc]
    decide
  · exact isPlain_of_mem_fixedDigits hc

theorem Genuine.fit {d : Date} (h : d.Genuine) :
    d.year < 10 ^ 4 ∧ d.month < 10 ^ 2 ∧ d.day < 10 ^ 2 := by
  have hlast : lastDay d.year d.month <= 31 := by
    unfold lastDay
    split_ifs <;> omega
  have hyear := h.year.right
  have hmonth := h.month.right
  have hday := h.day.right
  omega

@[simp] theorem length_isoChars (d : Date) : d.isoChars.length = 10 := by
  simp [isoChars]

end Date

namespace TimeOfDay

theorem mem_isoChars {t : TimeOfDay} {c : Char} (hc : c ∈ t.isoChars) :
    isDigit c = true ∨ c = ':' ∨ c = '.' := by
  have hdigit {width n : Nat} (hc : c ∈ fixedDigits 10 width n) :
      isDigit c = true ∨ c = ':' ∨ c = '.' :=
    Or.inl (Text.isDigit_of_mem_fixedDigits hc)
  simp only [isoChars, List.mem_append, List.mem_cons] at hc
  rcases hc with ((hc | hc | hc) | hc | hc) | hc
  · exact hdigit hc
  · exact Or.inr (Or.inl hc)
  · exact hdigit hc
  · exact Or.inr (Or.inl hc)
  · exact hdigit hc
  · split_ifs at hc
    · cases hc
    · rcases List.mem_cons.mp hc with hc | hc
      · exact Or.inr (Or.inr hc)
      · exact hdigit hc

theorem isPlain_of_mem_isoChars {t : TimeOfDay} {c : Char} (hc : c ∈ t.isoChars) :
    IsPlain c := by
  rcases mem_isoChars hc with hc | hc | hc
  · exact Text.isPlain_of_isDigit hc
  · rw [hc]
    decide
  · rw [hc]
    decide

theorem not_startsOffset_of_mem_isoChars {t : TimeOfDay} {c : Char} (hc : c ∈ t.isoChars) :
    IsoReading.startsOffset c = false := by
  have hsign {sign : Char} (hsign : isDigit sign = false) (hc : isDigit c = true) :
      (c = sign) = False := by
    refine eq_false (fun heq => ?_)
    rw [heq, hsign] at hc
    cases hc
  rcases mem_isoChars hc with hc | hc | hc
  · simp only [IsoReading.startsOffset, hsign (show isDigit '+' = false from rfl) hc,
      hsign (show isDigit '-' = false from rfl) hc, hsign (show isDigit 'Z' = false from rfl) hc]
    rfl
  · rw [hc]
    rfl
  · rw [hc]
    rfl

theorem Genuine.fit {t : TimeOfDay} (h : t.Genuine) :
    t.hour < 10 ^ 2 ∧ t.minute < 10 ^ 2 ∧ t.second < 10 ^ 2 := by
  have hhour := h.hour
  have hminute := h.minute
  have hsecond := h.second
  omega

@[simp] theorem length_isoChars (t : TimeOfDay) :
    t.isoChars.length = if t.microsecond = 0 then 8 else 15 := by
  simp only [isoChars, List.length_append, List.length_cons, Text.length_fixedDigits]
  split_ifs
  · rfl
  · rw [List.length_cons, Text.length_fixedDigits]

end TimeOfDay

namespace Offset

def clock (o : Offset) : TimeOfDay :=
  ⟨o.microseconds.natAbs / 1000000 / 3600, o.microseconds.natAbs / 1000000 / 60 % 60,
    o.microseconds.natAbs / 1000000 % 60, o.microseconds.natAbs % 1000000⟩

def clockChars (o : Offset) : List Char :=
  if o.clock.second = 0 ∧ o.clock.microsecond = 0 then
    fixedDigits 10 2 o.clock.hour ++ ':' :: fixedDigits 10 2 o.clock.minute
  else o.clock.isoChars

def sign (o : Offset) : Char :=
  if o.microseconds < 0 then '-' else '+'

theorem isoChars_eq (o : Offset) : o.isoChars = o.sign :: o.clockChars := by
  unfold isoChars clockChars
  by_cases hwhole : o.clock.second = 0 ∧ o.clock.microsecond = 0
  · rw [if_pos hwhole]
    simp only [clock] at hwhole
    simp only [if_pos hwhole, List.append_nil]
    rfl
  · rw [if_neg hwhole]
    simp only [clock] at hwhole
    simp only [if_neg hwhole, TimeOfDay.isoChars, List.append_assoc, List.cons_append]
    rfl

theorem Genuine.clock {o : Offset} (h : o.Genuine) : o.clock.Genuine := by
  have h : o.microseconds.natAbs < 24 * 60 * 60 * 1000000 := h
  constructor <;> simp only [Offset.clock] <;> omega

theorem clock_microseconds (o : Offset) : o.clock.microseconds = o.microseconds.natAbs := by
  simp only [TimeOfDay.microseconds, clock]
  omega

theorem sign_eq (o : Offset) : o.sign = '-' ∨ o.sign = '+' := by
  unfold sign
  split_ifs
  · exact Or.inl rfl
  · exact Or.inr rfl

theorem signed_size (o : Offset) :
    (if o.sign = '-' then -(o.microseconds.natAbs : Int) else o.microseconds.natAbs) =
      o.microseconds := by
  unfold sign
  by_cases hnegative : o.microseconds < 0
  · rw [if_pos hnegative, if_pos rfl]
    omega
  · rw [if_neg hnegative, if_neg (by decide)]
    omega

theorem isPlain_of_mem_isoChars {o : Offset} {c : Char} (hc : c ∈ o.isoChars) : IsPlain c := by
  rw [isoChars_eq] at hc
  rcases List.mem_cons.mp hc with hc | hc
  · rw [hc]
    rcases o.sign_eq with hsign | hsign <;> rw [hsign] <;> decide
  · unfold clockChars at hc
    split_ifs at hc
    · rcases List.mem_append.mp hc with hc | hc
      · exact isPlain_of_mem_fixedDigits hc
      · rcases List.mem_cons.mp hc with hc | hc
        · rw [hc]
          decide
        · exact isPlain_of_mem_fixedDigits hc
    · exact TimeOfDay.isPlain_of_mem_isoChars hc

end Offset

theorem DateTime.isPlain_of_mem_isoChars {t : DateTime} {c : Char} (hc : c ∈ t.isoChars 'T') :
    IsPlain c := by
  simp only [isoChars, List.mem_append, List.mem_cons] at hc
  rcases hc with (hc | hc | hc) | hc
  · exact Date.isPlain_of_mem_isoChars hc
  · rw [hc]
    decide
  · exact TimeOfDay.isPlain_of_mem_isoChars hc
  · cases hoffset : t.offset with
    | none =>
        rw [hoffset] at hc
        cases hc
    | some o =>
        rw [hoffset] at hc
        exact Offset.isPlain_of_mem_isoChars hc

/-!
## Reading days
-/

namespace IsoReading

@[simp] theorem front_cons (c : Char) (cs : List Char) : front (c :: cs) = c :=
  rfl

theorem isDigit_front_fixedDigits (width n : Nat) (rest : List Char) :
    isDigit (front (fixedDigits 10 (width + 1) n ++ rest)) = true := by
  rcases Text.fixedDigits_eq_cons width n with ⟨c, others, hdigits, hc⟩
  rw [hdigits]
  exact hc

theorem not_week_front_fixedDigits (width n : Nat) (rest : List Char) :
    front (fixedDigits 10 (width + 1) n ++ rest) ≠ 'W' := by
  intro h
  have hdigit := isDigit_front_fixedDigits width n rest
  rw [h] at hdigit
  cases hdigit

theorem day?_isoChars {d : Date} (hd : d.Genuine) (length : Nat) (rest : List Char) :
    day? length (d.isoChars ++ rest) = some d := by
  rcases hd.fit with ⟨hyear, hmonth, hday⟩
  have hparts : Date.ofParts? d.year d.month d.day = some d :=
    Date.ofParts?_eq_some.mpr ⟨rfl, hd⟩
  have hmonthDay : monthDay? d.year true
      (fixedDigits 10 2 d.month ++ '-' :: (fixedDigits 10 2 d.day ++ rest)) = some d := by
    simp [monthDay?, digits?_fixedDigits hmonth, digits?_fixedDigits hday, hparts]
  simp [Date.isoChars, day?, digits?_fixedDigits hyear, if_neg (not_week_front_fixedDigits _ _ _),
    hmonthDay]

/-!
## Reading times
-/

variable {p : Parts} {spaced : Bool} {left field length n : Nat} {rest : List Char}

theorem fields?_colon (hn : n < 10 ^ 2) (hspaced : field = 0 ∨ spaced = true)
    (hlength : 3 < length) :
    fields? p spaced (left + 1) field length (fixedDigits 10 2 n ++ ':' :: rest) =
      fields? (p.withField field n) true left (field + 1) (length - 3) rest := by
  have hcolon : (if field = 0 then True else spaced = true) = True := by
    rcases hspaced with h | h
    · rw [if_pos h]
    · rw [h, eq_self_iff_true, ite_self]
  simp only [fields?, digits?_fixedDigits hn, Option.bind_eq_bind, Option.bind_some, front_cons,
    List.drop_one, List.tail_cons, hcolon, if_neg (Nat.not_le.mpr hlength), decide_true,
    Bool.and_self, if_true, Nat.zero_mul, Nat.zero_add]

theorem fields?_point (hn : n < 10 ^ 2) (hlength : 3 < length) :
    fields? p spaced (left + 1) field length (fixedDigits 10 2 n ++ '.' :: rest) =
      fraction? (p.withField field n) (length - 3) rest := by
  have hpoint : ('.' = ':') = False := by simp
  simp [fields?, digits?_fixedDigits hn, if_neg (Nat.not_le.mpr hlength), hpoint]

theorem fields?_last (hn : n < 10 ^ 2) (hlength : length <= 3) :
    fields? p spaced (left + 1) field length (fixedDigits 10 2 n ++ rest) =
      some { p.withField field n with leftover := front rest ≠ '\x00' } := by
  simp only [fields?, digits?_fixedDigits hn, Option.bind_eq_bind, Option.bind_some,
    if_pos hlength, Nat.zero_mul, Nat.zero_add]
  rfl

theorem dropWhile_isDigit (hrest : isDigit (front rest) = false) :
    rest.dropWhile isDigit = rest := by
  cases rest with
  | nil =>
      rfl
  | cons c others =>
      rw [List.dropWhile_cons, show isDigit c = false from hrest]
      rfl

theorem fraction?_six (hn : n < 10 ^ 6) (hrest : isDigit (front rest) = false) :
    fraction? p 6 (fixedDigits 10 6 n ++ rest) =
      some { p with microsecond := n, leftover := front rest ≠ '\x00' } := by
  simp only [fraction?, Nat.min_self, digits?_fixedDigits hn, Option.bind_eq_bind,
    Option.bind_some, dropWhile_isDigit hrest, Nat.zero_mul, Nat.zero_add]
  simp [tenTo]

theorem parts?_isoChars {t : TimeOfDay} (ht : t.Genuine) (hrest : isDigit (front rest) = false) :
    parts? t.isoChars.length (t.isoChars ++ rest) =
      some ⟨t.hour, t.minute, t.second, t.microsecond, front rest ≠ '\x00'⟩ := by
  rcases ht.fit with ⟨hhour, hminute, hsecond⟩
  have hlength := t.length_isoChars
  by_cases hwhole : t.microsecond = 0
  · rw [if_pos hwhole] at hlength
    rw [hlength, parts?]
    simp only [TimeOfDay.isoChars, if_pos hwhole, List.append_assoc, List.cons_append,
      List.nil_append]
    rw [fields?_colon hhour (Or.inl rfl) (by decide),
      fields?_colon hminute (Or.inr rfl) (by decide), fields?_last hsecond (by decide), hwhole]
    rfl
  · rw [if_neg hwhole] at hlength
    rw [hlength, parts?]
    simp only [TimeOfDay.isoChars, if_neg hwhole, List.append_assoc, List.cons_append]
    rw [fields?_colon hhour (Or.inl rfl) (by decide),
      fields?_colon hminute (Or.inr rfl) (by decide), fields?_point hsecond (by decide),
      fraction?_six ht.microsecond hrest]
    rfl

/-!
## Reading offsets and moments
-/

theorem parts?_clockChars {o : Offset} (ho : o.Genuine) :
    parts? o.clockChars.length o.clockChars =
      some ⟨o.clock.hour, o.clock.minute, o.clock.second, o.clock.microsecond, false⟩ := by
  have hclock := ho.clock
  unfold Offset.clockChars
  split_ifs with hwhole
  · rcases hclock.fit with ⟨hhour, hminute, _hsecond⟩
    simp only [List.length_append, List.length_cons, Text.length_fixedDigits, parts?]
    rw [fields?_colon hhour (Or.inl rfl) (by decide),
      ← List.append_nil (fixedDigits 10 2 o.clock.minute),
      fields?_last hminute (by decide), hwhole.left, hwhole.right]
    rfl
  · have hend : isDigit (front []) = false := rfl
    have hparts := parts?_isoChars hclock hend
    rw [List.append_nil] at hparts
    exact hparts

theorem offset?_clockChars {o : Offset} (ho : o.Genuine) :
    offset? (o.sign = '-') o.clockChars = some o.asRead := by
  have hsize := o.clock_microseconds
  simp only [TimeOfDay.microseconds] at hsize
  have hfraction := ho.clock.microsecond
  simp only [offset?, parts?_clockChars ho, Option.bind_eq_bind, Option.bind_some, hsize,
    Bool.false_eq_true, if_false, decide_eq_true_eq, o.signed_size]
  by_cases hsmall : o.microseconds.natAbs < 1000000
  · rw [if_pos (by omega), Offset.asRead, if_pos hsmall]
  · rw [if_neg (by omega), Offset.asRead, if_neg hsmall]
    exact Offset.ofMicroseconds?_eq_some.mpr ⟨rfl, ho⟩

theorem takeWhile_clock (t : TimeOfDay) (offset : Option Offset) :
    (t.isoChars ++ offsetChars offset).takeWhile (fun c => !startsOffset c) = t.isoChars := by
  have hoffset : (offsetChars offset).takeWhile (fun c => !startsOffset c) = [] := by
    cases offset with
    | none =>
        rfl
    | some o =>
        rw [offsetChars, o.isoChars_eq]
        rcases o.sign_eq with hsign | hsign <;> rw [hsign] <;> rfl
  rw [List.takeWhile_append_of_pos, hoffset, List.append_nil]
  intro c hc
  rw [TimeOfDay.not_startsOffset_of_mem_isoChars hc]
  rfl

/-- A time and its offset are read back. -/
theorem clock?_isoChars {t : TimeOfDay} {offset : Option Offset} (ht : t.Genuine)
    (hoffset : forall o, offset = some o -> o.Genuine) :
    clock? (t.isoChars ++ offsetChars offset) = some ⟨t, offset.map Offset.asRead⟩ := by
  have htime : TimeOfDay.ofParts? t.hour t.minute t.second t.microsecond = some t :=
    TimeOfDay.ofParts?_eq_some.mpr ⟨rfl, ht⟩
  have hfront : isDigit (front (offsetChars offset)) = false := by
    cases offset with
    | none =>
        rfl
    | some o =>
        rw [offsetChars, o.isoChars_eq]
        rcases o.sign_eq with hsign | hsign <;> rw [hsign] <;> rfl
  simp only [clock?, takeWhile_clock, parts?_isoChars ht hfront, Option.bind_eq_bind,
    Option.bind_some, htime, List.drop_left]
  cases offset with
  | none =>
      rfl
  | some o =>
      have hread := offset?_clockChars (hoffset o rfl)
      rw [offsetChars, o.isoChars_eq]
      rcases o.sign_eq with hsign | hsign <;> rw [hsign] at hread ⊢
      all_goals exact Option.bind_eq_some_iff.mpr ⟨o.asRead, hread, rfl⟩

theorem dayLength?_isoChars (d : Date) {length : Nat} (hlength : 10 <= length) :
    dayLength? length (d.isoChars ++ rest) = some 10 := by
  have hyear : (d.isoChars ++ rest).drop 4 =
      '-' :: (fixedDigits 10 2 d.month ++ '-' :: (fixedDigits 10 2 d.day ++ rest)) := by
    simp only [Date.isoChars, List.append_assoc, List.cons_append]
    exact List.drop_left' (Text.length_fixedDigits 10 4 d.year)
  have hdash : charAt (d.isoChars ++ rest) 4 = '-' := by
    rw [charAt, hyear, front_cons]
  have hweek : charAt (d.isoChars ++ rest) 5 ≠ 'W' := by
    rw [charAt, ← List.drop_drop (i := 1) (j := 4), hyear, List.drop_one, List.tail_cons]
    exact not_week_front_fixedDigits 1 d.month _
  rw [dayLength?, if_neg (by omega), if_pos hdash, if_neg hweek]

theorem moment?_isoChars {t : DateTime} (ht : t.Genuine) :
    moment? (t.isoChars 'T') = some t.asRead := by
  have hchars : t.isoChars 'T' =
      t.date.isoChars ++ 'T' :: (t.time.isoChars ++ offsetChars t.offset) := by
    simp only [DateTime.isoChars, List.append_assoc, List.cons_append]
  have hplain : octets (t.isoChars 'T') = t.isoChars 'T' :=
    octets_of_plain (fun c hc => DateTime.isPlain_of_mem_isoChars hc)
  have hlength : 10 < (t.isoChars 'T').length := by
    rw [hchars, List.length_append, t.date.length_isoChars, List.length_cons]
    omega
  have hrest : (t.isoChars 'T').drop 10 = 'T' :: (t.time.isoChars ++ offsetChars t.offset) := by
    rw [hchars]
    exact List.drop_left' t.date.length_isoChars
  have hday : day? 10 (t.isoChars 'T') = some t.date := by
    rw [hchars]
    exact day?_isoChars ht.date 10 _
  have hdayLength : dayLength? (t.isoChars 'T').length (t.isoChars 'T') = some 10 := by
    have hlong : 10 <= (t.isoChars 'T').length := Nat.le_of_lt hlength
    rw [hchars] at hlong ⊢
    exact dayLength?_isoChars t.date hlong
  have hbetween : ('T' :: (t.time.isoChars ++ offsetChars t.offset)).drop 'T'.utf8Size =
      t.time.isoChars ++ offsetChars t.offset := rfl
  have hseven : ¬ (t.isoChars 'T').length < 7 := by
    omega
  simp only [moment?, hplain, if_neg hseven, hdayLength, Option.bind_eq_bind, Option.bind_some,
    hday, if_pos hlength, hrest, front_cons, hbetween, clock?_isoChars ht.time ht.offset]
  rfl

end IsoReading

/-!
## The round trip
-/

namespace Value

theorem ofDateChars?_of_plain {cs : List Char} (hfilled : cs ≠ [])
    (hplain : forall c, c ∈ cs -> IsPlain c) :
    ofDateChars? cs =
      match IsoReading.date? cs with
      | some d => some (.date d)
      | none => (IsoReading.moment? cs).map .dateTime := by
  have htrimmed : (cs.isEmpty || cs != Text.trimBlanks cs) = false := by
    rw [Text.trimBlanks_of_plain hplain, bne_self_eq_false, Bool.or_false,
      List.isEmpty_eq_false_iff]
    exact hfilled
  rw [ofDateChars?, htrimmed, spellUtc_of_plain hplain]
  rfl

theorem toDate?_isoText_date {d : Date} (hd : d.Genuine) :
    toDate? (.text d.isoText) = some (.date d) := by
  have hplain : forall c, c ∈ d.isoChars -> IsPlain c := fun c => Date.isPlain_of_mem_isoChars
  have hfilled : d.isoChars ≠ [] := List.ne_nil_of_length_pos (by rw [d.length_isoChars]; decide)
  have hread : IsoReading.date? d.isoChars = some d := by
    have hday := IsoReading.day?_isoChars hd 10 []
    rw [List.append_nil] at hday
    rw [IsoReading.date?, IsoReading.octets_of_plain hplain, d.length_isoChars]
    exact hday
  rw [toDate?, Date.isoText, String.toList_ofList, ofDateChars?_of_plain hfilled hplain, hread]

theorem toDate?_isoText_dateTime {t : DateTime} (ht : t.Genuine) :
    toDate? (.text t.isoText) = some (.dateTime t.asRead) := by
  have hplain : forall c, c ∈ t.isoChars 'T' -> IsPlain c :=
    fun c => DateTime.isPlain_of_mem_isoChars
  have hlength : 18 < (t.isoChars 'T').length := by
    have htime : 8 <= t.time.isoChars.length := by
      rw [t.time.length_isoChars]
      split_ifs <;> decide
    simp only [DateTime.isoChars, List.length_append, List.length_cons, t.date.length_isoChars]
    omega
  have hfilled : t.isoChars 'T' ≠ [] := List.ne_nil_of_length_pos (by omega)
  have hnoDate : IsoReading.date? (t.isoChars 'T') = none := by
    rw [IsoReading.date?, IsoReading.octets_of_plain hplain, if_neg (by omega)]
  rw [toDate?, DateTime.isoText, String.toList_ofList, ofDateChars?_of_plain hfilled hplain,
    hnoDate, IsoReading.moment?_isoChars ht]
  rfl

/-- The standard text of a day is read as this day.  The standard text of a moment is read as
this moment exactly when an offset, if there is one, is none or at least a second either way;
a smaller one is read as universal time.  Whatever a text in any of the forms is read as is a
day of the calendar, or a moment of such a day with time and offset in range. -/
theorem toDate?_isoText :
    (forall d : Date, d.Genuine -> toDate? (.text d.isoText) = some (.date d)) ∧
    (forall t : DateTime, t.Genuine ->
      toDate? (.text t.isoText) = some (.dateTime t.asRead) ∧
      (toDate? (.text t.isoText) = some (.dateTime t) <->
        forall o, t.offset = some o -> o.Resolved)) ∧
    (forall s v, toDate? (.text s) = some v -> v.GenuineDate) := by
  refine ⟨fun d hd => toDate?_isoText_date hd, fun t ht => ?_, fun s v h =>
    genuine_of_ofDateChars? h⟩
  have hread := toDate?_isoText_dateTime ht
  refine ⟨hread, ?_⟩
  rw [hread, Option.some.injEq, dateTime.injEq, DateTime.asRead_eq_self_iff]

theorem leapDay_isoText :
    (exists d : Date, d.Genuine ∧ d.isoText = "2024-02-29" ∧
      toDate? (.text "2024-02-29") = some (.date d)) ∧
    (exists t : DateTime, t.Genuine ∧ t.isoText = "2024-02-29T23:59:59.000250-05:30" ∧
      toDate? (.text "2024-02-29T23:59:59.000250-05:30") = some (.dateTime t)) ∧
    (exists d : Date, toDate? (.text "2020W537") = some (.date d) ∧ d = ⟨2021, 1, 3⟩ ∧
      d.Genuine) := by
  let d : Date := ⟨2024, 2, 29⟩
  let t : DateTime := ⟨d, ⟨23, 59, 59, 250⟩, some ⟨-19800000000⟩⟩
  have hd : d.Genuine := ⟨by decide, by decide, by decide⟩
  have ht : t.Genuine := by
    refine ⟨hd, ⟨by decide, by decide, by decide, by decide⟩, fun o ho => ?_⟩
    injection ho with ho
    rw [← ho]
    show (-19800000000 : Int).natAbs < 24 * 60 * 60 * 1000000
    omega
  have hresolved : forall o, t.offset = some o -> o.Resolved := by
    intro o ho
    injection ho with ho
    rw [← ho]
    refine Or.inr ?_
    show 1000000 <= (-19800000000 : Int).natAbs
    omega
  rcases toDate?_isoText with ⟨hdate, hmoment, hgenuine⟩
  have hweek : toDate? (.text "2020W537") = some (.date ⟨2021, 1, 3⟩) := by
    cbv
  have hdayText : d.isoText = "2024-02-29" := by
    decide +kernel
  have hmomentText : t.isoText = "2024-02-29T23:59:59.000250-05:30" := by
    decide +kernel
  have hday := hdate d hd
  have hread := (hmoment t ht).right.mpr hresolved
  rw [hdayText] at hday
  rw [hmomentText] at hread
  exact ⟨⟨d, hd, hdayText, hday⟩, ⟨t, ht, hmomentText, hread⟩,
    ⟨_, hweek, rfl, hgenuine _ _ hweek⟩⟩

def slightlyEast : DateTime :=
  ⟨⟨2024, 1, 1⟩, .midnight, some ⟨1⟩⟩

theorem genuine_slightlyEast : slightlyEast.Genuine := by
  refine ⟨⟨by decide, by decide, by decide⟩, TimeOfDay.genuine_midnight, fun o ho => ?_⟩
  injection ho with ho
  rw [← ho]
  show (1 : Int).natAbs < 24 * 60 * 60 * 1000000
  decide

theorem asRead_slightlyEast_ne : slightlyEast.asRead ≠ slightlyEast := by
  decide

/-- An offset of a microsecond is lost: the text of the moment states it, and is read as the
same time in universal time. -/
theorem microsecond_offset_lost :
    exists t u : DateTime, t.Genuine ∧
      t = ⟨⟨2024, 1, 1⟩, .midnight, some ⟨1⟩⟩ ∧ u = ⟨⟨2024, 1, 1⟩, .midnight, some ⟨0⟩⟩ ∧
      t.isoText = "2024-01-01T00:00:00+00:00:00.000001" ∧
      toDate? (.text t.isoText) = some (.dateTime u) ∧
      toDate? (.text t.isoText) ≠ some (.dateTime t) := by
  have hread := toDate?_isoText_dateTime genuine_slightlyEast
  refine ⟨slightlyEast, slightlyEast.asRead, genuine_slightlyEast, rfl, rfl, by decide +kernel,
    hread, ?_⟩
  rw [hread]
  intro h
  injection h with h
  injection h with h
  exact asRead_slightlyEast_ne h

end Value
end ContentSchema
