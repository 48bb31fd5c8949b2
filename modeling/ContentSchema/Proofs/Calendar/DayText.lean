import ContentSchema.Proofs.Calendar.Tails

/-!
# Texts of days

A day is read from one of six forms: year, month and day, or year and week with or without a day
of the week, each with dashes or without.  Of what stands behind such a text, nothing is read.  How
long the day at the front of a moment is, is told from what stands behind the year and behind the
week, and agrees with the form.  It stays the same when universal time is written behind the text,
unless the text ends in a dash behind a week.
-/

namespace ContentSchema
namespace IsoReading

open Text (isDigit IsPlain)

/-!
## The parts of a day
-/

def behindDash? (dashed : Bool) (cs : List Char) : Option (List Char) :=
  if dashed then (if front cs = '-' then some (cs.drop 1) else none) else some cs

theorem monthDay?_eq (year : Nat) (dashed : Bool) (cs : List Char) :
    monthDay? year dashed cs =
      (digits? 2 0 cs).bind fun month => (behindDash? dashed month.2).bind fun rest =>
        (digits? 2 0 rest).bind fun day => Date.ofParts? year month.1 day.1 := by
  unfold monthDay? behindDash?
  cases digits? 2 0 cs with
  | none =>
      rfl
  | some month =>
      cases dashed with
      | false =>
          rfl
      | true =>
          rfl

theorem week?_eq (year length used : Nat) (dashed : Bool) (cs : List Char) :
    week? year dashed length used cs =
      (digits? 2 0 cs).bind fun week =>
        if used + 2 < length then
          (behindDash? dashed week.2).bind fun rest =>
            (digits? 1 0 rest).bind fun weekday => Date.ofWeek? year week.1 weekday.1
        else Date.ofWeek? year week.1 1 := by
  unfold week? behindDash?
  cases digits? 2 0 cs with
  | none =>
      rfl
  | some week =>
      cases dashed with
      | false =>
          rfl
      | true =>
          rfl

def withoutDash (cs : List Char) : List Char :=
  if front cs = '-' then cs.drop 1 else cs

def afterYear? (length year : Nat) (dashed : Bool) (cs : List Char) : Option Date :=
  if front cs = 'W' then week? year dashed length (if dashed then 6 else 5) (cs.drop 1)
  else monthDay? year dashed cs

theorem day?_eq (length : Nat) (cs : List Char) :
    day? length cs =
      (digits? 4 0 cs).bind fun year =>
        afterYear? length year.1 (front year.2 = '-') (withoutDash year.2) := by
  unfold day? afterYear? withoutDash
  cases digits? 4 0 cs with
  | none =>
      rfl
  | some year =>
      simp only [Option.bind_eq_bind, Option.bind_some, decide_eq_true_eq]

/-!
## Forms
-/

/-- The forms of a day for which `length` bytes are meant. -/
inductive DayText (length : Nat) : List Char -> Prop
  | dashed {a b c d e f g h : Char} :
      (forall x, x ∈ [a, b, c, d, e, f, g, h] -> isDigit x = true) ->
      DayText length [a, b, c, d, '-', e, f, '-', g, h]
  | plain {a b c d e f g h : Char} :
      (forall x, x ∈ [a, b, c, d, e, f, g, h] -> isDigit x = true) ->
      DayText length [a, b, c, d, e, f, g, h]
  | dashedWeek {a b c d e f : Char} :
      (forall x, x ∈ [a, b, c, d, e, f] -> isDigit x = true) -> length <= 8 ->
      DayText length [a, b, c, d, '-', 'W', e, f]
  | dashedWeekday {a b c d e f g : Char} :
      (forall x, x ∈ [a, b, c, d, e, f, g] -> isDigit x = true) -> 8 < length ->
      DayText length [a, b, c, d, '-', 'W', e, f, '-', g]
  | plainWeek {a b c d e f : Char} :
      (forall x, x ∈ [a, b, c, d, e, f] -> isDigit x = true) -> length <= 7 ->
      DayText length [a, b, c, d, 'W', e, f]
  | plainWeekday {a b c d e f g : Char} :
      (forall x, x ∈ [a, b, c, d, e, f, g] -> isDigit x = true) -> 7 < length ->
      DayText length [a, b, c, d, 'W', e, f, g]

/-!
## What is read
-/

theorem eq_cons_of_front {cs : List Char} {c : Char} (hc : c ≠ '\x00') (h : front cs = c) :
    cs = c :: cs.drop 1 := by
  cases cs with
  | nil =>
      exact absurd h hc.symm
  | cons d rest =>
      rw [← h]
      rfl

theorem two_of_digits? {acc : Nat} {cs : List Char} {read : Nat × List Char}
    (h : digits? 2 acc cs = some read) :
    exists a b, cs = a :: b :: read.2 ∧ isDigit a = true ∧ isDigit b = true := by
  rcases digits_of_digits? h with ⟨ds, hcs, hlength, hdigits⟩
  rcases List.length_eq_two.mp hlength with ⟨a, b, hds⟩
  rw [hds] at hcs hdigits
  exact ⟨a, b, hcs, hdigits a (by simp), hdigits b (by simp)⟩

theorem dash_of_behindDash? {cs rest : List Char} (h : behindDash? true cs = some rest) :
    cs = '-' :: rest := by
  rw [behindDash?, if_pos rfl, Option.ite_none_right_eq_some, Option.some.injEq] at h
  rw [← h.right]
  exact eq_cons_of_front (by decide) h.left

theorem exists_monthDay {year : Nat} {dashed : Bool} {cs : List Char} {day : Date}
    (h : monthDay? year dashed cs = some day) :
    exists e f g h rest, (forall x, x ∈ [e, f, g, h] -> isDigit x = true) ∧
      cs = if dashed then e :: f :: '-' :: g :: h :: rest else e :: f :: g :: h :: rest := by
  rw [monthDay?_eq] at h
  rcases Option.bind_eq_some_iff.mp h with ⟨month, hmonth, h⟩
  rcases Option.bind_eq_some_iff.mp h with ⟨rest, hrest, h⟩
  rcases Option.bind_eq_some_iff.mp h with ⟨read, hread, _h⟩
  rcases two_of_digits? hmonth with ⟨e, f, hcs, he, hf⟩
  rcases two_of_digits? hread with ⟨g, h, hbehind, hg, hh⟩
  refine ⟨e, f, g, h, read.2, by simp [he, hf, hg, hh], ?_⟩
  cases dashed with
  | true =>
      rw [hcs, dash_of_behindDash? hrest, hbehind]
      rfl
  | false =>
      injection hrest with hrest
      rw [hcs, hrest, hbehind]
      rfl

theorem exists_week {year length used : Nat} {dashed : Bool} {cs : List Char} {day : Date}
    (h : week? year dashed length used cs = some day) :
    exists e f rest, isDigit e = true ∧ isDigit f = true ∧ cs = e :: f :: rest ∧
      (used + 2 < length -> exists g others, isDigit g = true ∧
        rest = if dashed then '-' :: g :: others else g :: others) := by
  rw [week?_eq] at h
  rcases Option.bind_eq_some_iff.mp h with ⟨week, hweek, h⟩
  rcases two_of_digits? hweek with ⟨e, f, hcs, he, hf⟩
  refine ⟨e, f, week.2, he, hf, hcs, fun hmore => ?_⟩
  rw [if_pos hmore] at h
  rcases Option.bind_eq_some_iff.mp h with ⟨rest, hrest, h⟩
  rcases Option.bind_eq_some_iff.mp h with ⟨weekday, hweekday, _h⟩
  rcases digits_of_digits? hweekday with ⟨ds, hbehind, hlength, hdigits⟩
  rcases List.length_eq_one_iff.mp hlength with ⟨g, hds⟩
  rw [hds] at hbehind hdigits
  refine ⟨g, weekday.2, hdigits g List.mem_cons_self, ?_⟩
  cases dashed with
  | true =>
      rw [dash_of_behindDash? hrest, hbehind]
      rfl
  | false =>
      injection hrest with hrest
      rw [hrest, hbehind]
      rfl

theorem exists_dayText_of_afterYear? {length year : Nat} {dashed : Bool} {cs : List Char}
    {day : Date} {a b c d : Char} (hyear : forall x, x ∈ [a, b, c, d] -> isDigit x = true)
    (h : afterYear? length year dashed cs = some day) :
    exists text rest, DayText length text ∧
      a :: b :: c :: d :: (if dashed then '-' :: cs else cs) = text ++ rest := by
  unfold afterYear? at h
  by_cases hweek : front cs = 'W'
  · rw [if_pos hweek] at h
    rcases exists_week h with ⟨e, f, rest, he, hf, hbehind, hmore⟩
    have hcs : cs = 'W' :: e :: f :: rest := by
      rw [eq_cons_of_front (by decide) hweek, hbehind]
    have hdigits : forall x, x ∈ [a, b, c, d, e, f] -> isDigit x = true := by
      simpa [he, hf, and_assoc] using hyear
    rw [hcs]
    cases dashed with
    | true =>
        by_cases hlong : 8 < length
        · rcases hmore hlong with ⟨g, others, hg, hrest⟩
          rw [hrest]
          exact ⟨_, others, .dashedWeekday (by simpa [hg, and_assoc] using hdigits) hlong, rfl⟩
        · exact ⟨_, rest, .dashedWeek hdigits (by omega), rfl⟩
    | false =>
        by_cases hlong : 7 < length
        · rcases hmore hlong with ⟨g, others, hg, hrest⟩
          rw [hrest]
          exact ⟨_, others, .plainWeekday (by simpa [hg, and_assoc] using hdigits) hlong, rfl⟩
        · exact ⟨_, rest, .plainWeek hdigits (by omega), rfl⟩
  · rw [if_neg hweek] at h
    rcases exists_monthDay h with ⟨e, f, g, i, rest, hnumbers, hcs⟩
    have hdigits : forall x, x ∈ [a, b, c, d, e, f, g, i] -> isDigit x = true := by
      intro x hx
      rcases List.mem_append.mp (show x ∈ [a, b, c, d] ++ [e, f, g, i] from hx) with hx | hx
      · exact hyear x hx
      · exact hnumbers x hx
    rw [hcs]
    cases dashed with
    | true =>
        exact ⟨_, rest, .dashed hdigits, rfl⟩
    | false =>
        exact ⟨_, rest, .plain hdigits, rfl⟩

theorem exists_dayText {length : Nat} {cs : List Char} {day : Date}
    (h : day? length cs = some day) :
    exists text rest, cs = text ++ rest ∧ DayText length text := by
  rw [day?_eq] at h
  rcases Option.bind_eq_some_iff.mp h with ⟨year, hyear, h⟩
  rcases digits_of_digits? hyear with ⟨ds, hcs, hlength, hdigits⟩
  rcases List.length_eq_four.mp hlength with ⟨a, b, c, d, hds⟩
  rw [hds] at hcs hdigits
  rcases exists_dayText_of_afterYear? hdigits h with ⟨text, rest, htext, hchars⟩
  refine ⟨text, rest, ?_, htext⟩
  rw [hcs, ← hchars]
  by_cases hdash : front year.2 = '-'
  · simp only [hdash, decide_true, if_true, withoutDash]
    rw [← eq_cons_of_front (by decide) hdash]
    rfl
  · simp only [hdash, decide_false, Bool.false_eq_true, if_false, withoutDash]
    rfl

/-!
## What the forms tell
-/

theorem ne_of_isDigit {c d : Char} (hc : isDigit c = true) (hd : isDigit d = false) : c ≠ d := by
  intro h
  rw [h, hd] at hc
  cases hc

variable {length : Nat} {text : List Char}

theorem DayText.mem (h : DayText length text) {c : Char} (hc : c ∈ text) :
    isDigit c = true ∨ c = '-' ∨ c = 'W' := by
  revert c
  cases h with
  | dashed hdigits | plain hdigits | dashedWeek hdigits _hshort | dashedWeekday hdigits _hlong
  | plainWeek hdigits _hshort | plainWeekday hdigits _hlong =>
      have hleft : forall x, x ∈ _ -> isDigit x = true ∨ x = '-' ∨ x = 'W' :=
        fun x hx => Or.inl (hdigits x hx)
      simpa using hleft

theorem DayText.isPlain (h : DayText length text) : forall c, c ∈ text -> IsPlain c := by
  intro c hc
  rcases h.mem hc with hc | hc | hc
  · exact Text.isPlain_of_isDigit hc
  · rw [hc]
    decide
  · rw [hc]
    decide

theorem DayText.seven_le (h : DayText length text) : 7 <= text.length := by
  cases h <;> simp

theorem DayText.isDigit_front (h : DayText length text) : isDigit (front text) = true := by
  cases h with
  | dashed hdigits | plain hdigits | dashedWeek hdigits _hshort | dashedWeekday hdigits _hlong
  | plainWeek hdigits _hshort | plainWeekday hdigits _hlong =>
      exact hdigits _ List.mem_cons_self

theorem exists_number (ds : List Char) (hdigits : forall c, c ∈ ds -> isDigit c = true)
    (acc : Nat) :
    exists value, forall rest, digits? ds.length acc (ds ++ rest) = some (value, rest) := by
  induction ds generalizing acc with
  | nil =>
      exact ⟨acc, fun rest => rfl⟩
  | cons c others ih =>
      rcases List.forall_mem_cons.mp hdigits with ⟨hc, hothers⟩
      rcases ih hothers (10 * acc + (c.toNat - 48)) with ⟨value, hread⟩
      refine ⟨value, fun rest => ?_⟩
      rw [List.cons_append, List.length_cons, digits?, digitValue?_of_isDigit hc]
      exact hread rest

theorem exists_pair {e f : Char} (he : isDigit e = true) (hf : isDigit f = true) :
    exists value, forall rest, digits? 2 0 (e :: f :: rest) = some (value, rest) :=
  exists_number [e, f] (by simp [he, hf]) 0

theorem exists_year {a b c d : Char} {others : List Char}
    (hdigits : forall x, x ∈ a :: b :: c :: d :: others -> isDigit x = true) :
    exists year, forall length cs,
      day? length (a :: b :: c :: d :: '-' :: cs) = afterYear? length year true cs ∧
      (front cs ≠ '-' ->
        day? length (a :: b :: c :: d :: cs) = afterYear? length year false cs) := by
  have hyear : forall x, x ∈ [a, b, c, d] -> isDigit x = true :=
    fun x hx => hdigits x (List.mem_append_left others hx)
  rcases exists_number [a, b, c, d] hyear 0 with ⟨year, hread⟩
  have hread : forall rest, digits? 4 0 (a :: b :: c :: d :: rest) = some (year, rest) := hread
  refine ⟨year, fun length cs => ⟨?_, fun hdash => ?_⟩⟩
  · rw [day?_eq, hread]
    rfl
  · simp only [day?_eq, hread, Option.bind_some, withoutDash, hdash, decide_false, if_false]

theorem afterYear?_of_isDigit {e : Char} (he : isDigit e = true) (length year : Nat)
    (dashed : Bool) (cs : List Char) :
    afterYear? length year dashed (e :: cs) = monthDay? year dashed (e :: cs) :=
  if_neg (ne_of_isDigit he rfl)

section Separated

variable {dashed : Bool} {separator : List Char}
  (hseparator : forall cs, behindDash? dashed (separator ++ cs) = some cs)
include hseparator

theorem monthDay?_rest {e f g i : Char} (he : isDigit e = true) (hf : isDigit f = true)
    (hg : isDigit g = true) (hi : isDigit i = true) (year : Nat) (rest : List Char) :
    monthDay? year dashed (e :: f :: (separator ++ g :: i :: rest)) =
      monthDay? year dashed (e :: f :: (separator ++ [g, i])) := by
  rcases exists_pair he hf with ⟨month, hmonth⟩
  rcases exists_pair hg hi with ⟨day, hday⟩
  simp only [monthDay?_eq, hmonth, Option.bind_some, hseparator, hday]

theorem week?_rest {e f g : Char} (he : isDigit e = true) (hf : isDigit f = true)
    (hg : isDigit g = true) (year length used : Nat) (rest : List Char) :
    week? year dashed length used (e :: f :: (separator ++ g :: rest)) =
      week? year dashed length used (e :: f :: (separator ++ [g])) := by
  rcases exists_pair he hf with ⟨week, hweek⟩
  rcases exists_number [g] (by simp [hg]) 0 with ⟨weekday, hweekday⟩
  have hweekday : forall rest, digits? 1 0 (g :: rest) = some (weekday, rest) := hweekday
  simp only [week?_eq, hweek, Option.bind_some, hseparator, hweekday]

end Separated

theorem week?_rest_of_le {length used : Nat} (hend : length <= used + 2) {e f : Char}
    (he : isDigit e = true) (hf : isDigit f = true) (year : Nat) (dashed : Bool)
    (rest : List Char) :
    week? year dashed length used (e :: f :: rest) = week? year dashed length used [e, f] := by
  rcases exists_pair he hf with ⟨week, hweek⟩
  simp only [week?_eq, hweek, Option.bind_some, if_neg (Nat.not_lt.mpr hend)]

/-- Of what stands behind a text of a day, nothing is read. -/
theorem DayText.day?_append (h : DayText length text) (rest : List Char) :
    day? length (text ++ rest) = day? length text := by
  have hdash : forall cs, behindDash? true (['-'] ++ cs) = some cs := fun cs => rfl
  have hnone : forall cs, behindDash? false ([] ++ cs) = some cs := fun cs => rfl
  have hweek : forall cs, front ('W' :: cs) ≠ '-' := by
    intro cs
    rw [front_cons]
    decide
  cases h with
  | @dashed a b c d e f g i hdigits =>
      have he : isDigit e = true := hdigits e (by simp)
      rcases exists_year hdigits with ⟨year, hyear⟩
      have hread := monthDay?_rest hdash he (hdigits f (by simp)) (hdigits g (by simp))
        (hdigits i (by simp)) year rest
      rw [← afterYear?_of_isDigit he length, ← afterYear?_of_isDigit he length,
        ← (hyear _ _).left, ← (hyear _ _).left] at hread
      exact hread
  | @plain a b c d e f g i hdigits =>
      have he : isDigit e = true := hdigits e (by simp)
      have hfront : forall cs, front (e :: cs) ≠ '-' := fun cs => ne_of_isDigit he rfl
      rcases exists_year hdigits with ⟨year, hyear⟩
      have hread := monthDay?_rest hnone he (hdigits f (by simp)) (hdigits g (by simp))
        (hdigits i (by simp)) year rest
      rw [← afterYear?_of_isDigit he length, ← afterYear?_of_isDigit he length,
        ← (hyear _ _).right (hfront _), ← (hyear _ _).right (hfront _)] at hread
      exact hread
  | @dashedWeek a b c d e f hdigits hshort =>
      rcases exists_year hdigits with ⟨year, hyear⟩
      have hread : afterYear? length year true ('W' :: e :: f :: rest) =
          afterYear? length year true ['W', e, f] :=
        week?_rest_of_le hshort (hdigits e (by simp)) (hdigits f (by simp)) year true rest
      rw [← (hyear _ _).left, ← (hyear _ _).left] at hread
      exact hread
  | @dashedWeekday a b c d e f g hdigits hlong =>
      rcases exists_year hdigits with ⟨year, hyear⟩
      have hread : afterYear? length year true ('W' :: e :: f :: '-' :: g :: rest) =
          afterYear? length year true ['W', e, f, '-', g] :=
        week?_rest hdash (hdigits e (by simp)) (hdigits f (by simp)) (hdigits g (by simp)) year
          length 6 rest
      rw [← (hyear _ _).left, ← (hyear _ _).left] at hread
      exact hread
  | @plainWeek a b c d e f hdigits hshort =>
      rcases exists_year hdigits with ⟨year, hyear⟩
      have hread : afterYear? length year false ('W' :: e :: f :: rest) =
          afterYear? length year false ['W', e, f] :=
        week?_rest_of_le hshort (hdigits e (by simp)) (hdigits f (by simp)) year false rest
      rw [← (hyear _ _).right (hweek _), ← (hyear _ _).right (hweek _)] at hread
      exact hread
  | @plainWeekday a b c d e f g hdigits hlong =>
      rcases exists_year hdigits with ⟨year, hyear⟩
      have hread : afterYear? length year false ('W' :: e :: f :: g :: rest) =
          afterYear? length year false ['W', e, f, g] :=
        week?_rest hnone (hdigits e (by simp)) (hdigits f (by simp)) (hdigits g (by simp)) year
          length 5 rest
      rw [← (hyear _ _).right (hweek _), ← (hyear _ _).right (hweek _)] at hread
      exact hread

/-- What is read as a day begins with a text of a day, also where a character that belongs to no
day comes next. -/
theorem exists_dayText_before {cs tail : List Char} {day : Date}
    (hdigit : isDigit (front tail) = false) (hdash : front tail ≠ '-') (hweek : front tail ≠ 'W')
    (h : day? length (cs ++ tail) = some day) :
    exists text rest, cs = text ++ rest ∧ DayText length text ∧ day? length text = some day := by
  rcases exists_dayText h with ⟨text, rest, hcs, htext⟩
  rw [hcs, htext.day?_append] at h
  rcases List.append_eq_append_iff.mp hcs with ⟨beyond, htext', htail⟩ | ⟨between, hcs, _hrest⟩
  · cases beyond with
    | nil =>
        rw [List.append_nil] at htext'
        exact ⟨text, [], by rw [htext', List.append_nil], htext, h⟩
    | cons c others =>
        have hc : c ∈ text := by
          rw [htext']
          exact List.mem_append_right cs List.mem_cons_self
        have hfront : front tail = c := by rw [htail]; rfl
        rw [hfront] at hdigit hdash hweek
        rcases htext.mem hc with hmem | hmem | hmem
        · rw [hmem] at hdigit
          cases hdigit
        · exact absurd hmem hdash
        · exact absurd hmem hweek
  · exact ⟨text, between, hcs, htext, h⟩

theorem DayText.date?_eq (h : DayText 10 text) (hlength : text.length < 10) :
    text.length = 8 ∧ date? text = day? 10 text := by
  have hplain := h.isPlain
  cases h with
  | dashed hdigits | dashedWeekday hdigits _hlong =>
      simp at hlength
  | dashedWeek _hdigits hshort | plainWeek _hdigits hshort =>
      omega
  | @plain a b c d e f g i hdigits =>
      have he : isDigit e = true := hdigits e (by simp)
      rcases exists_year hdigits with ⟨year, hyear⟩
      have hfront : front [e, f, g, i] ≠ '-' := ne_of_isDigit he rfl
      refine ⟨rfl, ?_⟩
      rw [date?, octets_of_plain hplain, if_pos (by simp), (hyear _ _).right hfront,
        (hyear _ _).right hfront, afterYear?_of_isDigit he, afterYear?_of_isDigit he]
  | @plainWeekday a b c d e f g hdigits hlong =>
      rcases exists_year hdigits with ⟨year, hyear⟩
      have hfront : front ['W', e, f, g] ≠ '-' := show 'W' ≠ '-' by decide
      refine ⟨rfl, ?_⟩
      rw [date?, octets_of_plain hplain, if_pos (by simp), (hyear _ _).right hfront,
        (hyear _ _).right hfront]
      rfl

theorem DayText.eight_le (h : DayText 8 text) : 8 <= text.length := by
  cases h with
  | dashed hdigits | plain hdigits | dashedWeek hdigits _hshort | dashedWeekday hdigits _hlong
  | plainWeekday hdigits _hlong =>
      simp
  | plainWeek _hdigits hshort =>
      omega

/-!
## What length is told
-/

@[simp] theorem charAt_cons_succ (c : Char) (cs : List Char) (i : Nat) :
    charAt (c :: cs) (i + 1) = charAt cs i :=
  rfl

@[simp] theorem charAt_zero (cs : List Char) : charAt cs 0 = front cs :=
  rfl

theorem isDigit_front_utcChars (cs : List Char) :
    isDigit (front (cs ++ utcChars)) = isDigit (front cs) := by
  cases cs with
  | nil =>
      rfl
  | cons c rest =>
      rfl

theorem length_pos_of_isDigit_front {cs : List Char} (h : isDigit (front cs) = true) :
    0 < cs.length := by
  cases cs with
  | nil =>
      cases h
  | cons c rest =>
      exact Nat.succ_pos rest.length

section Told

variable {a b c d e f g i : Char} {total : Nat} {rest : List Char}

theorem dayLength?_dashed (htotal : total ≠ 7) (he : isDigit e = true) :
    dayLength? total (a :: b :: c :: d :: '-' :: e :: rest) = some 10 := by
  have hweek : e ≠ 'W' := ne_of_isDigit he rfl
  simp [dayLength?, htotal, hweek]

theorem dayLength?_plain (htotal : total ≠ 7) (he : isDigit e = true) :
    dayLength? total (a :: b :: c :: d :: e :: rest) = some 8 := by
  have hdash : e ≠ '-' := ne_of_isDigit he rfl
  have hweek : e ≠ 'W' := ne_of_isDigit he rfl
  simp [dayLength?, htotal, hdash, hweek]

theorem dayLength?_dashedWeek (htotal : total = 8 + rest.length) :
    dayLength? total (a :: b :: c :: d :: '-' :: 'W' :: e :: f :: rest) =
      if front rest = '-' then
        if rest.length = 1 then none
        else if isDigit (charAt rest 2) then some 8 else some 10
      else some 8 := by
  have hseven : total ≠ 7 := by omega
  have height : ¬ total < 8 := by omega
  have hdash : 8 < total ∧ front rest = '-' <-> front rest = '-' := by
    refine and_iff_right_of_imp (fun h => ?_)
    rw [eq_cons_of_front (by decide) h] at htotal
    simp only [List.length_cons] at htotal
    omega
  have hdigit : 10 < total ∧ isDigit (charAt rest 2) = true <->
      isDigit (charAt rest 2) = true := by
    refine and_iff_right_of_imp (fun h => ?_)
    have hbehind := length_pos_of_isDigit_front h
    rw [List.length_drop] at hbehind
    omega
  have hnine : total = 9 <-> rest.length = 1 := by omega
  simp [dayLength?, hseven, height, hdash, hdigit, hnine]

theorem dayLength?_plainWeek (htotal : total ≠ 7) :
    dayLength? total (a :: b :: c :: d :: 'W' :: e :: f :: rest) =
      if 7 + (rest.takeWhile isDigit).length < 9 then some (7 + (rest.takeWhile isDigit).length)
      else if (7 + (rest.takeWhile isDigit).length) % 2 = 0 then some 7 else some 8 := by
  have hweek : 'W' ≠ '-' := by decide
  simp [dayLength?, htotal]

theorem dayLength?_dashedWeek_utcChars (htotal : total = 8 + rest.length) (hrest : rest ≠ ['-']) :
    dayLength? (total + 6) (a :: b :: c :: d :: '-' :: 'W' :: e :: f :: (rest ++ utcChars)) =
      dayLength? total (a :: b :: c :: d :: '-' :: 'W' :: e :: f :: rest) := by
  have hwith : total + 6 = 8 + (rest ++ utcChars).length := by
    rw [List.length_append, htotal]
    rfl
  rw [dayLength?_dashedWeek hwith, dayLength?_dashedWeek htotal]
  rcases rest with _ | ⟨x, _ | ⟨y, others⟩⟩
  · rfl
  · have hx : x ≠ '-' := fun h => hrest (by rw [h])
    simp [hx]
  · simp only [List.cons_append, front_cons, charAt_cons_succ, charAt_zero,
      isDigit_front_utcChars, List.length_cons, Nat.succ_ne_zero, Nat.add_eq_right, if_false]
    rfl

end Told

theorem DayText.length_eq {rest : List Char} {total : Nat} (h : DayText length text)
    (htotal : total = text.length + rest.length)
    (htold : dayLength? total (text ++ rest) = some length) : text.length = length := by
  cases h with
  | @dashed a b c d e f g i hdigits =>
      have htotal : total ≠ 7 := by simp at htotal; omega
      exact Option.some.inj ((dayLength?_dashed htotal (hdigits e (by simp))).symm.trans htold)
  | @plain a b c d e f g i hdigits =>
      have htotal : total ≠ 7 := by simp at htotal; omega
      exact Option.some.inj ((dayLength?_plain htotal (hdigits e (by simp))).symm.trans htold)
  | dashedWeek hdigits hshort =>
      simp only [List.cons_append, List.nil_append, List.length_cons, List.length_nil]
        at htold htotal ⊢
      rw [dayLength?_dashedWeek (by omega)] at htold
      split_ifs at htold <;> cases htold
      · rfl
      · omega
      · rfl
  | @dashedWeekday a b c d e f g hdigits hlong =>
      have hbehind : total = 8 + ('-' :: g :: rest).length := by
        simp only [List.length_cons, List.length_nil] at htotal ⊢
        omega
      simp only [List.cons_append, List.nil_append, List.length_cons, List.length_nil] at htold ⊢
      rw [dayLength?_dashedWeek hbehind] at htold
      split_ifs at htold with hdash <;> cases htold
      · omega
      · rfl
      · exact absurd rfl hdash
  | plainWeek hdigits hshort =>
      simp only [List.cons_append, List.nil_append, List.length_cons, List.length_nil]
        at htold htotal ⊢
      by_cases hseven : total = 7
      · rw [hseven] at htold
        exact Option.some.inj htold
      · rw [dayLength?_plainWeek hseven] at htold
        split_ifs at htold <;> cases htold <;> omega
  | @plainWeekday a b c d e f g hdigits hlong =>
      simp only [List.cons_append, List.nil_append, List.length_cons, List.length_nil]
        at htold htotal ⊢
      rw [dayLength?_plainWeek (by omega), List.takeWhile_cons_of_pos (hdigits g (by simp)),
        List.length_cons] at htold
      split_ifs at htold <;> cases htold <;> omega

/-- Universal time behind the text does not change the length that is told, unless the text ends
in a dash behind the day. -/
theorem DayText.dayLength?_utcChars {rest : List Char} {total : Nat} (h : DayText length text)
    (htotal : total = text.length + rest.length) (hrest : rest ≠ ['-']) :
    dayLength? (total + 6) (text ++ (rest ++ utcChars)) = dayLength? total (text ++ rest) := by
  cases h with
  | @dashed a b c d e f g i hdigits =>
      have he : isDigit e = true := hdigits e (by simp)
      simp only [List.cons_append, List.nil_append, List.length_cons, List.length_nil] at htotal ⊢
      rw [dayLength?_dashed (by omega) he, dayLength?_dashed (by omega) he]
  | @plain a b c d e f g i hdigits =>
      have he : isDigit e = true := hdigits e (by simp)
      simp only [List.cons_append, List.nil_append, List.length_cons, List.length_nil] at htotal ⊢
      rw [dayLength?_plain (by omega) he, dayLength?_plain (by omega) he]
  | dashedWeek hdigits hshort =>
      exact dayLength?_dashedWeek_utcChars htotal hrest
  | @dashedWeekday a b c d e f g hdigits hlong =>
      have hbehind : total = 8 + ('-' :: g :: rest).length := by
        simp only [List.length_cons, List.length_nil] at htotal ⊢
        omega
      exact dayLength?_dashedWeek_utcChars hbehind (by simp)
  | plainWeek hdigits hshort =>
      simp only [List.cons_append, List.nil_append, List.length_cons, List.length_nil] at htotal ⊢
      have hstop : isDigit (front utcChars) = false := rfl
      rw [dayLength?_plainWeek (by omega), takeWhile_isDigit_append hstop]
      by_cases hseven : total = 7
      · have hrest : rest = [] := List.length_eq_zero_iff.mp (by omega)
        rw [hseven, hrest]
        rfl
      · rw [dayLength?_plainWeek hseven]
  | plainWeekday hdigits hlong =>
      simp only [List.cons_append, List.nil_append, List.length_cons, List.length_nil] at htotal ⊢
      have hstop : isDigit (front utcChars) = false := rfl
      rw [dayLength?_plainWeek (by omega), dayLength?_plainWeek (by omega), ← List.cons_append,
        takeWhile_isDigit_append hstop]

end IsoReading
end ContentSchema
