import ContentSchema.Proofs.Calendar.DayText

/-!
# A final `Z`

A final `Z` is spelled as a zero offset before the text is read, and it names universal time only
where the text before it has a time that is read without it.  Behind a day alone the sign of the
offset is taken for the character between day and time, and the zeros for midnight; behind eight
characters of a day and one more, the text is a day by its length.  Where the text before it is no
moment, or states an offset itself, the zero offset makes it one or is not read at all.
-/

namespace ContentSchema
namespace IsoReading

open Text (isDigit IsPlain)

/-!
## Clocks
-/

def Unmarked (cs : List Char) : Prop :=
  forall c, c ∈ cs -> startsOffset c = false

def markedOffset? (mark : Char) (cs : List Char) : Option Offset :=
  if mark = 'Z' then (if front cs = '\x00' then some Offset.utc else none)
  else offset? (mark = '-') cs

def Parts.time? (p : Parts) : Option TimeOfDay :=
  TimeOfDay.ofParts? p.hour p.minute p.second p.microsecond

theorem unmarked_or_marked (cs : List Char) :
    Unmarked cs ∨ exists own mark rest,
      cs = own ++ mark :: rest ∧ Unmarked own ∧ startsOffset mark = true := by
  induction cs with
  | nil =>
      exact Or.inl (fun c hc => absurd hc List.not_mem_nil)
  | cons c rest ih =>
      cases hc : startsOffset c with
      | true =>
          exact Or.inr ⟨[], c, rest, rfl, fun c hc => absurd hc List.not_mem_nil, hc⟩
      | false =>
          rcases ih with hrest | ⟨own, mark, others, hrest, hown, hmark⟩
          · exact Or.inl (List.forall_mem_cons.mpr ⟨hc, hrest⟩)
          · exact Or.inr ⟨c :: own, mark, others, by rw [hrest, List.cons_append],
              List.forall_mem_cons.mpr ⟨hc, hown⟩, hmark⟩

theorem takeWhile_of_unmarked {own : List Char} (hown : Unmarked own) {tail : List Char}
    (htail : tail.takeWhile (fun c => !startsOffset c) = []) :
    (own ++ tail).takeWhile (fun c => !startsOffset c) = own := by
  rw [List.takeWhile_append_of_pos (fun c hc => by rw [hown c hc]; rfl), htail, List.append_nil]

theorem clock?_unmarked {cs : List Char} (hcs : Unmarked cs) :
    clock? cs = (parts? cs.length cs).bind fun p => p.time?.bind fun time =>
      if p.leftover then none else some ⟨time, none⟩ := by
  have hnone : [].takeWhile (fun c => !startsOffset c) = [] := rfl
  have hown := takeWhile_of_unmarked hcs hnone
  rw [List.append_nil] at hown
  simp only [clock?, hown, List.drop_length]
  rfl

theorem clock?_marked {own : List Char} (hown : Unmarked own) {mark : Char}
    (hmark : startsOffset mark = true) (rest : List Char) :
    clock? (own ++ mark :: rest) =
      ((parts? own.length (own ++ mark :: rest)).bind Parts.time?).bind fun time =>
        (markedOffset? mark rest).map fun o => ⟨time, some o⟩ := by
  have hfirst : (mark :: rest).takeWhile (fun c => !startsOffset c) = [] := by
    rw [List.takeWhile_cons, hmark]
    rfl
  simp only [clock?, takeWhile_of_unmarked hown hfirst, List.drop_left, markedOffset?,
    Option.bind_assoc]
  refine congrArg _ (funext fun p => congrArg _ (funext fun time => ?_))
  split
  · cases ‹mark :: rest = []›
  · rename_i others heq
    injection heq with hz hothers
    rw [hz, hothers]
    split <;> rfl
  · rename_i sign others hz heq
    injection heq with hsign hothers
    have hmark : mark ≠ 'Z' := fun h => hz (hsign.symm.trans h)
    rw [if_neg hmark, hsign, hothers]
    cases offset? (sign = '-') others <;> rfl

theorem offset?_of_utcChars {negative : Bool} {cs : List Char} {o : Offset}
    (h : offset? negative (cs ++ utcChars) = some o) : offset? negative cs = some o := by
  rcases Option.bind_eq_some_iff.mp h with ⟨p, hp, ho⟩
  cases hleft : p.leftover with
  | true =>
      rw [hleft] at ho
      cases ho
  | false =>
      rw [parts?, List.length_append] at hp
      have hfields := (fields?_of_utcChars hp hleft).right
      exact Option.bind_eq_some_iff.mpr ⟨p, hfields, ho⟩

theorem markedOffset?_of_utcChars {mark : Char} {cs : List Char} {o : Offset}
    (h : markedOffset? mark (cs ++ utcChars) = some o) : markedOffset? mark cs = some o := by
  unfold markedOffset? at h ⊢
  split_ifs at h with hz hnull
  · have hcs : cs ≠ [] := by
      intro hcs
      rw [hcs] at hnull
      exact absurd hnull (by decide)
    rw [front_append_of_ne_nil hcs] at hnull
    rw [if_pos hz, if_pos hnull]
    exact h
  · rw [if_neg hz]
    exact offset?_of_utcChars h

theorem markedOffset?_utc : markedOffset? '+' ['0', '0', ':', '0', '0'] = some Offset.utc := by
  decide

theorem time?_tail {u w : List Char} (hu : Stops u) (hw : Stops w) (length : Nat)
    (cs : List Char) :
    (parts? length (cs ++ u)).bind Parts.time? = (parts? length (cs ++ w)).bind Parts.time? := by
  have hsettled (parts : Option Parts) :
      parts.bind Parts.time? = (parts.map Parts.settled).bind Parts.time? := by
    rw [Option.bind_map]
    rfl
  rw [hsettled, hsettled (parts? length (cs ++ w))]
  exact congrArg (·.bind Parts.time?) (fields?_tail hu hw _ _ _ _ _ _)

theorem clock?_unmarked_utcChars {cs : List Char} (hcs : Unmarked cs) :
    clock? (cs ++ utcChars) =
      ((parts? cs.length cs).bind Parts.time?).map fun time => ⟨time, some Offset.utc⟩ := by
  have htime := time?_tail stops_nil stops_utcChars cs.length cs
  rw [List.append_nil] at htime
  rw [htime, Option.map_eq_bind, utcChars, clock?_marked hcs rfl, markedOffset?_utc]
  rfl

theorem clock?_of_marked_utcChars {own rest : List Char} (hown : Unmarked own) {mark : Char}
    (hmark : startsOffset mark = true) {ck : ClockTime}
    (h : clock? (own ++ mark :: (rest ++ utcChars)) = some ck) :
    clock? (own ++ mark :: rest) = some ck ∧ ck.offset ≠ none := by
  have htime := time?_tail (stops_of_startsOffset hmark rest)
    (stops_of_startsOffset hmark (rest ++ utcChars)) own.length own
  rw [clock?_marked hown hmark, ← htime] at h
  rcases Option.bind_eq_some_iff.mp h with ⟨time, hread, h⟩
  rcases Option.map_eq_some_iff.mp h with ⟨o, ho, hck⟩
  rw [clock?_marked hown hmark, hread, Option.bind_some, markedOffset?_of_utcChars ho, ← hck]
  exact ⟨rfl, nofun⟩

theorem clock?_naive_utcChars {cs : List Char} {time : TimeOfDay}
    (h : clock? cs = some ⟨time, none⟩) :
    clock? (cs ++ utcChars) = some ⟨time, some Offset.utc⟩ := by
  rcases unmarked_or_marked cs with hcs | ⟨own, mark, rest, hcs, hown, hmark⟩
  · rw [clock?_unmarked hcs] at h
    rcases Option.bind_eq_some_iff.mp h with ⟨p, hp, h⟩
    rcases Option.bind_eq_some_iff.mp h with ⟨t, ht, h⟩
    split_ifs at h
    cases h
    rw [clock?_unmarked_utcChars hcs, hp, Option.bind_some, ht]
    rfl
  · rw [hcs, clock?_marked hown hmark] at h
    rcases Option.bind_eq_some_iff.mp h with ⟨_t, _ht, h⟩
    rcases Option.map_eq_some_iff.mp h with ⟨_o, _ho, h⟩
    cases h

/-- What is read with universal time behind the text is in universal time, and without it the same
time is read as naive or something is left over; or the text states its offset itself. -/
theorem clock?_of_utcChars {cs : List Char} {ck : ClockTime}
    (h : clock? (cs ++ utcChars) = some ck) :
    (ck.offset = some Offset.utc ∧ (clock? cs = some ⟨ck.time, none⟩ ∨ clock? cs = none)) ∨
      (clock? cs = some ck ∧ ck.offset ≠ none) := by
  -- without a mark the tail is the offset; with one it is behind an offset that is there already
  rcases unmarked_or_marked cs with hcs | ⟨own, mark, rest, hcs, hown, hmark⟩
  · rw [clock?_unmarked_utcChars hcs] at h
    rcases Option.map_eq_some_iff.mp h with ⟨time, htime, hck⟩
    rcases Option.bind_eq_some_iff.mp htime with ⟨p, hp, htime⟩
    rw [clock?_unmarked hcs, hp, Option.bind_some, htime, Option.bind_some, ← hck]
    cases p.leftover with
    | true =>
        exact Or.inl ⟨rfl, Or.inr rfl⟩
    | false =>
        exact Or.inl ⟨rfl, Or.inl rfl⟩
  · rw [hcs, List.append_assoc, List.cons_append] at h
    rw [hcs]
    exact Or.inr (clock?_of_marked_utcChars hown hmark h)

/-!
## Bytes
-/

@[simp] theorem octets_cons (c : Char) (cs : List Char) :
    octets (c :: cs) = List.replicate c.utf8Size c ++ octets cs :=
  rfl

@[simp] theorem octets_append (cs ds : List Char) : octets (cs ++ ds) = octets cs ++ octets ds :=
  List.flatMap_append

@[simp] theorem octets_utcChars (cs : List Char) :
    octets (cs ++ utcChars) = octets cs ++ utcChars := by
  have hplain : forall c, c ∈ utcChars -> IsPlain c := by simp [utcChars, IsPlain]
  rw [octets_append, octets_of_plain hplain]

theorem octets_plain_append {day : List Char} (hday : forall c, c ∈ day -> IsPlain c)
    (tail : List Char) : octets (day ++ tail) = day ++ octets tail := by
  rw [octets_append, octets_of_plain hday]

theorem length_le_octets (cs : List Char) : cs.length <= (octets cs).length := by
  induction cs with
  | nil =>
      exact Nat.le_refl 0
  | cons c rest ih =>
      have hpos := c.utf8Size_pos
      rw [octets_cons, List.length_append, List.length_replicate, List.length_cons]
      omega

theorem exists_singleton_of_octets {cs : List Char} (h : (octets cs).length = 1) :
    exists c, cs = [c] := by
  have hle := length_le_octets cs
  refine List.length_eq_one_iff.mp (Nat.le_antisymm (by omega) (List.length_pos_iff.mpr ?_))
  intro hnil
  rw [hnil] at h
  cases h

theorem exists_tail_of_octets {day rest text : List Char} (hday : forall c, c ∈ day -> IsPlain c)
    (h : octets text = day ++ rest) : exists tail, text = day ++ tail ∧ octets tail = rest := by
  induction day generalizing text with
  | nil =>
      exact ⟨text, rfl, h⟩
  | cons c others ih =>
      rcases List.forall_mem_cons.mp hday with ⟨hc, hothers⟩
      cases text with
      | nil =>
          cases h
      | cons d cs =>
          rcases Nat.exists_eq_add_of_lt d.utf8Size_pos with ⟨more, hsize⟩
          rw [Nat.zero_add] at hsize
          rw [octets_cons, hsize, List.replicate_succ, List.cons_append, List.cons_append] at h
          injection h with hd h
          -- A plain character has one byte, so the text goes on behind it.
          rw [hd, hc.utf8Size_eq] at hsize
          have hmore : more = 0 := by omega
          rw [hmore, List.replicate_zero, List.nil_append] at h
          rcases ih hothers h with ⟨tail, hcs, htail⟩
          exact ⟨tail, by rw [hd, hcs, List.cons_append], htail⟩

/-!
## Moments
-/

def behindDay? : List Char -> Option ClockTime
  | [] => some ⟨TimeOfDay.midnight, none⟩
  | _ :: time => clock? (octets time)

/-- A text that begins with a day: the day has one of the forms, and the length that is told is
its length. -/
structure BeginsWithDay (day tail : List Char) : Prop where
  form : DayText day.length day
  told : dayLength? (octets (day ++ tail)).length (octets (day ++ tail)) = some day.length

theorem moment?_eq {day tail : List Char} (h : BeginsWithDay day tail) :
    moment? (day ++ tail) = (day? day.length day).bind fun date =>
      (behindDay? tail).map fun ck => ⟨date, ck.time, ck.offset⟩ := by
  have hseven := h.form.seven_le
  have htold := h.told
  have hbytes := octets_plain_append h.form.isPlain tail
  rw [hbytes] at htold
  have hlength : (day ++ octets tail).length = day.length + (octets tail).length :=
    List.length_append
  have hlong : ¬ (day ++ octets tail).length < 7 := by omega
  simp only [moment?, hbytes, if_neg hlong, htold, Option.bind_eq_bind, Option.bind_some,
    h.form.day?_append, List.drop_left]
  refine congrArg _ (funext fun date => ?_)
  cases tail with
  | nil =>
      rw [if_neg (by rw [hlength]; exact Nat.lt_irrefl _)]
      rfl
  | cons c time =>
      have hpos := c.utf8Size_pos
      have hfront : front (octets (c :: time)) = c := by
        rw [octets_cons, ← Nat.succ_pred_eq_of_pos hpos, List.replicate_succ]
        rfl
      have hbehind : (octets (c :: time)).drop c.utf8Size = octets time := by
        rw [octets_cons, List.drop_left' List.length_replicate]
      have hmore : day.length < (day ++ octets (c :: time)).length := by
        rw [hlength, octets_cons, List.length_append, List.length_replicate]
        omega
      rw [if_pos hmore, hfront, hbehind, behindDay?]
      cases clock? (octets time) <;> rfl

theorem moment?_eq_some {day tail : List Char} (h : BeginsWithDay day tail) {t : DateTime} :
    moment? (day ++ tail) = some t <->
      day? day.length day = some t.date ∧ behindDay? tail = some ⟨t.time, t.offset⟩ := by
  rw [moment?_eq h]
  constructor
  · intro ht
    rcases Option.bind_eq_some_iff.mp ht with ⟨date, hdate, ht⟩
    rcases Option.map_eq_some_iff.mp ht with ⟨ck, hck, ht⟩
    rw [← ht]
    exact ⟨hdate, hck⟩
  · intro ht
    rw [ht.left, ht.right]
    rfl

theorem exists_beginsWithDay {text u : List Char} (hu : u = [] ∨ u = utcChars) {t : DateTime}
    (h : moment? (text ++ u) = some t) :
    exists day tail, text = day ++ tail ∧ BeginsWithDay day (tail ++ u) := by
  have hplain : octets (text ++ u) = octets text ++ u := by
    rcases hu with hu | hu
    · rw [hu, List.append_nil, List.append_nil]
    · rw [hu, octets_utcChars]
  have hfront : isDigit (front u) = false ∧ front u ≠ '-' ∧ front u ≠ 'W' := by
    rcases hu with hu | hu <;> rw [hu] <;> decide
  rw [moment?] at h
  simp only [Option.ite_none_left_eq_some] at h
  rcases Option.bind_eq_some_iff.mp h.right with ⟨length, htold, h⟩
  rcases Option.bind_eq_some_iff.mp h with ⟨date, hdate, _h⟩
  rw [hplain] at hdate
  rcases exists_dayText_before hfront.left hfront.right.left hfront.right.right hdate with
    ⟨day, rest, hoctets, hday, _hread⟩
  rcases exists_tail_of_octets hday.isPlain hoctets with ⟨tail, htext, htail⟩
  have hbytes : octets (text ++ u) = day ++ (rest ++ u) := by
    rw [hplain, hoctets, List.append_assoc]
  rw [hbytes] at htold
  have hlength : day.length = length := hday.length_eq List.length_append htold
  refine ⟨day, tail, htext, ?_, ?_⟩
  · rw [hlength]
    exact hday
  · rw [hlength, ← List.append_assoc, ← htext, hbytes]
    exact htold

/-- A day at the front stays one where universal time is written behind the text, unless nothing
but a dash is behind it. -/
theorem beginsWithDay_utcChars {day tail : List Char} (hday : DayText day.length day)
    (htail : octets tail ≠ ['-']) :
    BeginsWithDay day (tail ++ utcChars) <-> BeginsWithDay day tail := by
  have htold := hday.dayLength?_utcChars rfl htail
  have hwithout := octets_plain_append hday.isPlain tail
  have hwith : octets (day ++ (tail ++ utcChars)) = day ++ (octets tail ++ utcChars) := by
    rw [octets_plain_append hday.isPlain, octets_utcChars]
  have hlength : (octets (day ++ (tail ++ utcChars))).length =
      day.length + (octets tail).length + 6 := by
    rw [hwith, ← List.append_assoc, List.length_append, List.length_append]
    rfl
  have hsame : dayLength? (octets (day ++ (tail ++ utcChars))).length
      (octets (day ++ (tail ++ utcChars))) =
        dayLength? (octets (day ++ tail)).length (octets (day ++ tail)) := by
    rw [hlength, hwith, htold, hwithout, List.length_append]
  exact ⟨fun h => ⟨hday, hsame.symm.trans h.told⟩, fun h => ⟨hday, hsame.trans h.told⟩⟩

theorem behindDay?_of_dash {tail : List Char} (h : octets tail = ['-']) :
    behindDay? tail = none ∧ behindDay? (tail ++ utcChars) = none := by
  rcases exists_singleton_of_octets (by rw [h]; rfl) with ⟨c, htail⟩
  have hbytes : octets utcChars = utcChars := octets_utcChars []
  have hclock : clock? utcChars = none := by decide
  rw [htail]
  refine ⟨rfl, ?_⟩
  rw [List.singleton_append, behindDay?, hbytes, hclock]

/-- More text than the day is in front, for a time behind it. -/
def HasTime (text : List Char) : Prop :=
  exists length, dayLength? (octets text).length (octets text) = some length ∧
    length < (octets text).length

theorem hasTime_iff {day tail : List Char} (h : BeginsWithDay day tail) :
    HasTime (day ++ tail) <-> tail ≠ [] := by
  have hbytes := octets_plain_append h.form.isPlain tail
  have hle := length_le_octets tail
  constructor
  · intro htime htail
    rcases htime with ⟨length, htold, hlength⟩
    have hsame : day.length = length := Option.some.inj (h.told.symm.trans htold)
    rw [htail, List.append_nil, octets_of_plain h.form.isPlain] at hlength
    omega
  · intro htail
    have hpos := List.length_pos_iff.mpr htail
    refine ⟨day.length, h.told, ?_⟩
    rw [hbytes, List.length_append]
    omega

theorem two_le_of_clock? {cs : List Char} {ck : ClockTime} (h : clock? cs = some ck) :
    2 <= cs.length := by
  rcases Option.bind_eq_some_iff.mp h with ⟨p, hp, _h⟩
  rw [parts?, fields?_succ] at hp
  rcases Option.bind_eq_some_iff.mp hp with ⟨read, hread, _hp⟩
  have hlength := length_of_digits? hread
  omega

theorem HasTime.exists_day {text : List Char} (h : HasTime text) {t : DateTime}
    (ht : moment? text = some t) :
    exists day c time, text = day ++ c :: time ∧ BeginsWithDay day (c :: time) ∧
      day? day.length day = some t.date ∧ clock? (octets time) = some ⟨t.time, t.offset⟩ := by
  rw [← List.append_nil text] at ht
  rcases exists_beginsWithDay (Or.inl rfl) ht with ⟨day, tail, htext, hday⟩
  rw [List.append_nil] at ht hday
  rw [htext] at h ht
  rcases (moment?_eq_some hday).mp ht with ⟨hdate, hclock⟩
  cases tail with
  | nil =>
      exact absurd rfl ((hasTime_iff hday).mp h)
  | cons c time =>
      exact ⟨day, c, time, htext, hday, hdate, hclock⟩

theorem moment?_naive_utcChars {text : List Char} (htime : HasTime text) {t : DateTime}
    (h : moment? text = some t) (hnaive : t.offset = none) :
    moment? (text ++ utcChars) = some { t with offset := some Offset.utc } := by
  rcases htime.exists_day h with ⟨day, c, time, htext, hday, hdate, hclock⟩
  rw [hnaive] at hclock
  have hdash : octets (c :: time) ≠ ['-'] := by
    intro hdash
    have hnone := (behindDay?_of_dash hdash).left
    rw [behindDay?, hclock] at hnone
    cases hnone
  have hbehind : behindDay? (c :: time ++ utcChars) = some ⟨t.time, some Offset.utc⟩ := by
    rw [List.cons_append, behindDay?, octets_utcChars]
    exact clock?_naive_utcChars hclock
  rw [htext, List.append_assoc]
  exact (moment?_eq_some ((beginsWithDay_utcChars hday.form hdash).mpr hday)).mpr ⟨hdate, hbehind⟩

theorem HasTime.ten_le {text : List Char} (h : HasTime text) {t : DateTime}
    (ht : moment? text = some t) : 10 <= (octets text).length := by
  rcases h.exists_day ht with ⟨day, c, time, htext, hday, _hdate, hclock⟩
  have hseven := hday.form.seven_le
  have hpos := c.utf8Size_pos
  have htwo := two_le_of_clock? hclock
  rw [htext, octets_append, octets_of_plain hday.form.isPlain, octets_cons]
  simp only [List.length_append, List.length_replicate]
  omega

theorem HasTime.isDigit_front {text : List Char} (h : HasTime text) {t : DateTime}
    (ht : moment? text = some t) : isDigit (front text) = true := by
  rcases h.exists_day ht with ⟨day, c, time, htext, hday, _hdate, _hclock⟩
  have hfilled : day ≠ [] := List.ne_nil_of_length_pos (by have := hday.form.seven_le; omega)
  rw [htext, front_append_of_ne_nil hfilled]
  exact hday.form.isDigit_front

end IsoReading

/-!
## What is read of a final `Z`
-/

namespace Value

open IsoReading
open Text (isDigit)

/-- What a text with a final `Z` can be read as, by what the text in front of it is read as. -/
inductive ReadOfZ (text : List Char) : Value -> Prop
  /-- A naive moment with a time is read in universal time. -/
  | moment {t : DateTime} : moment? text = some t -> t.offset = none -> HasTime text ->
      ReadOfZ text (.dateTime { t with offset := some Offset.utc })
  /-- A day alone is read as its midnight, and this stays naive. -/
  | midnight {day : Date} : moment? text = some ⟨day, TimeOfDay.midnight, none⟩ ->
      ¬ HasTime text -> ReadOfZ text (.dateTime ⟨day, TimeOfDay.midnight, none⟩)
  /-- With one character between, eight characters of a day are read as this day. -/
  | day {eight : List Char} {c : Char} {day : Date} : text = eight ++ [c] -> eight.length = 8 ->
      date? eight = some day -> ReadOfZ text (.date day)
  /-- What is no moment before is a moment in universal time. -/
  | completed {t : DateTime} : moment? text = none -> t.offset = some Offset.utc ->
      ReadOfZ text (.dateTime t)
  /-- A moment that states an offset itself is read as it stands. -/
  | stated {t : DateTime} : moment? text = some t -> t.offset ≠ none ->
      ReadOfZ text (.dateTime t)

theorem readOfZ_of_moment? {text : List Char} {t : DateTime}
    (h : moment? (text ++ utcChars) = some t) : ReadOfZ text (.dateTime t) := by
  rcases exists_beginsWithDay (Or.inr rfl) h with ⟨day, tail, htext, hwith⟩
  rw [htext, List.append_assoc] at h
  rcases (moment?_eq_some hwith).mp h with ⟨hdate, hbehind⟩
  have hdash : octets tail ≠ ['-'] := by
    intro hdash
    rw [(behindDay?_of_dash hdash).right] at hbehind
    cases hbehind
  have hday := (beginsWithDay_utcChars hwith.form hdash).mp hwith
  rcases t with ⟨date, time, offset⟩
  rw [htext]
  cases tail with
  | nil =>
      have hmidnight : behindDay? utcChars = some ⟨TimeOfDay.midnight, none⟩ := by decide
      rw [List.nil_append, hmidnight] at hbehind
      cases hbehind
      exact .midnight ((moment?_eq_some hday).mpr ⟨hdate, rfl⟩) (mt (hasTime_iff hday).mp (by simp))
  | cons c rest =>
      rw [List.cons_append, behindDay?, octets_utcChars] at hbehind
      rcases clock?_of_utcChars hbehind with ⟨hutc, hnaive | hnone⟩ | ⟨hstated, hoffset⟩
      · cases hutc
        have ht : moment? (day ++ c :: rest) = some ⟨date, time, none⟩ :=
          (moment?_eq_some hday).mpr ⟨hdate, hnaive⟩
        exact .moment ht rfl ((hasTime_iff hday).mpr (by simp))
      · refine .completed ?_ hutc
        rw [moment?_eq hday, hdate, behindDay?, hnone]
        rfl
      · exact .stated ((moment?_eq_some hday).mpr ⟨hdate, hstated⟩) hoffset

theorem readOfZ_of_date? {text : List Char} {z : Char} (hz : z = 'Z' ∨ z = 'z') {d : Date}
    (h : date? (text ++ [z]) = some d) : ReadOfZ text (.date d) := by
  have hend : octets [z] = [z] ∧ isDigit (front [z]) = false ∧ front [z] ≠ '-' ∧
      front [z] ≠ 'W' := by
    rcases hz with hz | hz <;> rw [hz] <;> decide
  simp only [date?, octets_append, hend.left, Option.ite_none_right_eq_some] at h
  rcases exists_dayText_before hend.right.left hend.right.right.left hend.right.right.right h.right
    with ⟨eight, rest, hoctets, hday, hread⟩
  have hseven := hday.seven_le
  have hlength : (octets text ++ [z]).length = eight.length + rest.length + 1 := by
    rw [hoctets, List.length_append, List.length_append]
    rfl
  rw [hlength] at h hday hread
  -- Of eight bytes the last is the letter, and the other seven are no day for eight.
  have hten : eight.length + rest.length + 1 = 10 := by
    rcases h.left with hshort | height | hten
    · omega
    · rw [height] at hday
      have := hday.eight_le
      omega
    · exact hten
  rw [hten] at hday hread
  rcases hday.date?_eq (by omega) with ⟨height, hdate⟩
  rcases exists_tail_of_octets hday.isPlain hoctets with ⟨tail, htext, htail⟩
  rcases exists_singleton_of_octets (by rw [htail]; omega) with ⟨c, hc⟩
  rw [hc] at htext
  exact .day htext height (hdate.trans hread)

theorem spellUtc_final {text : List Char} {z : Char} (hz : z = 'Z' ∨ z = 'z') :
    spellUtc (text ++ [z]) = text ++ utcChars := by
  rcases hz with hz | hz <;>
    simp only [hz, spellUtc, List.reverse_append, List.reverse_singleton, List.singleton_append,
      List.reverse_reverse, utcChars]

theorem trimBlanks_final {text : List Char} {z : Char} (hz : z = 'Z' ∨ z = 'z')
    (hfront : isDigit (front text) = true) : Text.trimBlanks (text ++ [z]) = text ++ [z] := by
  have hlast : Text.isBlank z = false := by
    rcases hz with hz | hz <;> rw [hz] <;> decide
  cases text with
  | nil =>
      cases hfront
  | cons c rest =>
      have hfirst : Text.isBlank c = false := (Text.isPlain_of_isDigit hfront).not_isBlank
      have hstart : (c :: rest ++ [z]).dropWhile Text.isBlank = c :: rest ++ [z] := by
        rw [List.cons_append, List.dropWhile_cons, hfirst]
        rfl
      rw [Text.trimBlanks, hstart, Text.dropTrailing, List.reverse_append, List.reverse_singleton,
        List.singleton_append, List.dropWhile_cons, hlast, if_neg Bool.false_ne_true,
        List.reverse_cons, List.reverse_reverse]

/-!
## Where it is universal time
-/

section Final

variable {s : String} {text : List Char} {z : Char}

theorem readOfZ_of_toDate? (hs : s.toList = text ++ [z]) (hz : z = 'Z' ∨ z = 'z') {v : Value}
    (h : toDate? (.text s) = some v) : ReadOfZ text v := by
  rw [toDate?, hs] at h
  simp only [ofDateChars?, Option.ite_none_left_eq_some] at h
  cases hdate : date? (text ++ [z]) with
  | some d =>
      rw [hdate] at h
      injection h.right with h
      rw [← h]
      exact readOfZ_of_date? hz hdate
  | none =>
      rw [hdate, spellUtc_final hz] at h
      rcases Option.map_eq_some_iff.mp h.right with ⟨t, ht, hv⟩
      rw [← hv]
      exact readOfZ_of_moment? ht

theorem toDate?_eq_moment (hs : s.toList = text ++ [z]) (hz : z = 'Z' ∨ z = 'z')
    (hfront : isDigit (front text) = true) (hdate : date? (text ++ [z]) = none) :
    toDate? (.text s) = (moment? (text ++ utcChars)).map dateTime := by
  have hfilled : (text ++ [z]).isEmpty = false := by
    rw [List.isEmpty_eq_false_iff]
    simp
  rw [toDate?, hs, ofDateChars?, trimBlanks_final hz hfront, hfilled, bne_self_eq_false, hdate,
    spellUtc_final hz]
  rfl

theorem toDate?_naive_z (hs : s.toList = text ++ [z]) (hz : z = 'Z' ∨ z = 'z')
    (htime : HasTime text) {t : DateTime} (ht : moment? text = some t) (hnaive : t.offset = none) :
    toDate? (.text s) = some (.dateTime { t with offset := some Offset.utc }) := by
  have hten := htime.ten_le ht
  have hlong : (octets text).length < (octets (text ++ [z])).length := by
    rw [octets_append, List.length_append]
    exact Nat.lt_add_of_pos_right (length_le_octets [z])
  have hdate : date? (text ++ [z]) = none := if_neg (by omega)
  rw [toDate?_eq_moment hs hz (htime.isDigit_front ht) hdate,
    moment?_naive_utcChars htime ht hnaive]
  rfl

theorem ReadOfZ.hasTime_of_utc {t u : DateTime} (h : ReadOfZ text (.dateTime u))
    (hu : u.offset ≠ none) (ht : moment? text = some t) (hnaive : t.offset = none) :
    HasTime text := by
  cases h with
  | moment _hmoment _hnaive htime =>
      exact htime
  | midnight =>
      exact absurd rfl hu
  | completed hnone =>
      rw [hnone] at ht
      cases ht
  | stated hstated hoffset =>
      rw [ht] at hstated
      cases hstated
      exact absurd hnaive hoffset

/-- A final `Z` of either case is universal time exactly where the text in front of it is read as
a naive moment and has a time: such a text is always accepted, and read as this moment in universal
time.  Whatever else is accepted with a final `Z` is a midnight that stays naive, a day, or a
moment that the text in front of it does not denote as naive. -/
theorem toDate?_final_z (hs : s.toList = text ++ [z]) (hz : z = 'Z' ∨ z = 'z') :
    (forall t, moment? text = some t -> t.offset = none -> HasTime text ->
      toDate? (.text s) = some (.dateTime { t with offset := some Offset.utc })) ∧
    (forall v, toDate? (.text s) = some v ->
      ReadOfZ text v ∧
      ((exists t, moment? text = some t ∧ t.offset = none ∧
          v = .dateTime { t with offset := some Offset.utc }) <->
        HasTime text ∧ exists t, moment? text = some t ∧ t.offset = none)) := by
  refine ⟨fun t ht hnaive htime => toDate?_naive_z hs hz htime ht hnaive, fun v hv =>
    ⟨readOfZ_of_toDate? hs hz hv, fun h => ?_, fun h => ?_⟩⟩
  · rcases h with ⟨t, ht, hnaive, hvalue⟩
    refine ⟨?_, t, ht, hnaive⟩
    have hread := readOfZ_of_toDate? hs hz hv
    rw [hvalue] at hread
    exact hread.hasTime_of_utc nofun ht hnaive
  · rcases h with ⟨htime, t, ht, hnaive⟩
    have hread := toDate?_naive_z hs hz htime ht hnaive
    exact ⟨t, ht, hnaive, Option.some.inj (hv.symm.trans hread)⟩

end Final

theorem halfPastTwelve_z :
    moment? "2024-01-01T12:30".toList = some ⟨⟨2024, 1, 1⟩, ⟨12, 30, 0, 0⟩, none⟩ ∧
    HasTime "2024-01-01T12:30".toList ∧
    toDate? (.text "2024-01-01T12:30Z") =
      some (.dateTime ⟨⟨2024, 1, 1⟩, ⟨12, 30, 0, 0⟩, some Offset.utc⟩) := by
  have hmoment : moment? "2024-01-01T12:30".toList =
      some ⟨⟨2024, 1, 1⟩, ⟨12, 30, 0, 0⟩, none⟩ := by
    decide +kernel
  have htime : HasTime "2024-01-01T12:30".toList := ⟨10, by decide, by decide⟩
  have hz : "2024-01-01T12:30Z".toList = "2024-01-01T12:30".toList ++ ['Z'] := by decide
  rcases toDate?_final_z hz (Or.inl rfl) with ⟨hnaive, _haccepted⟩
  exact ⟨hmoment, htime, hnaive _ hmoment rfl htime⟩

/-- A day with a final `Z` is accepted, but not in universal time. -/
theorem newYear_z_naive :
    toDate? (.text "2024-01-01Z") =
      some (.dateTime ⟨⟨2024, 1, 1⟩, TimeOfDay.midnight, none⟩) ∧
    moment? "2024-01-01".toList = some ⟨⟨2024, 1, 1⟩, TimeOfDay.midnight, none⟩ ∧
    toDate? (.text "2024-01-01Z") ≠
      some (.dateTime ⟨⟨2024, 1, 1⟩, TimeOfDay.midnight, some Offset.utc⟩) := by
  have hz : "2024-01-01Z".toList = "2024-01-01".toList ++ ['Z'] := by decide
  have hdate : date? ("2024-01-01".toList ++ ['Z']) = none := by decide
  have hmoment : moment? ("2024-01-01".toList ++ utcChars) =
      some ⟨⟨2024, 1, 1⟩, TimeOfDay.midnight, none⟩ := by
    decide +kernel
  have hread : toDate? (.text "2024-01-01Z") =
      some (.dateTime ⟨⟨2024, 1, 1⟩, TimeOfDay.midnight, none⟩) := by
    rw [toDate?_eq_moment hz (Or.inl rfl) (by decide) hdate, hmoment]
    rfl
  refine ⟨hread, by decide +kernel, ?_⟩
  rw [hread]
  simp

end Value
end ContentSchema
