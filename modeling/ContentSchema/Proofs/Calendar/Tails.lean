import ContentSchema.Proofs.Calendar.RoundTrip

/-!
# What stands behind a text that is read

Reading goes from the front, and a character that belongs to no field ends it.  The fields of a
time are read in the same way whatever tail such a character begins, up to the note that something
was left over.  An offset is read to the end of the text: with universal time behind it, it is
read in the same way where it is read at all.
-/

namespace ContentSchema
namespace IsoReading

open Text (isDigit digitValue?)

/-!
## Tails
-/

/-- The text begins with no character that could belong to a field before it. -/
structure Stops (tail : List Char) : Prop where
  digit : isDigit (front tail) = false
  colon : front tail ≠ ':'
  point : front tail ≠ '.'
  comma : front tail ≠ ','

theorem stops_nil : Stops [] where
  digit := rfl
  colon := by decide
  point := by decide
  comma := by decide

theorem stops_of_startsOffset {c : Char} (hc : startsOffset c = true) (rest : List Char) :
    Stops (c :: rest) := by
  simp only [startsOffset, Bool.or_eq_true, decide_eq_true_eq] at hc
  rcases hc with (hc | hc) | hc <;> rw [hc] <;>
    exact ⟨rfl, by simp [front], by simp [front], by simp [front]⟩

theorem front_append_of_ne_nil {cs : List Char} (hcs : cs ≠ []) (tail : List Char) :
    front (cs ++ tail) = front cs := by
  cases cs with
  | nil =>
      exact absurd rfl hcs
  | cons c rest =>
      rfl

theorem front_append_eq_iff {cs tail : List Char} {c : Char} (hc : c ≠ '\x00')
    (htail : front tail ≠ c) : front (cs ++ tail) = c <-> front cs = c := by
  cases cs with
  | nil =>
      exact iff_of_false htail hc.symm
  | cons d rest =>
      exact Iff.rfl

theorem drop_one_append {cs : List Char} {c : Char} (hc : c ≠ '\x00') (hfront : front cs = c)
    (tail : List Char) : (cs ++ tail).drop 1 = cs.drop 1 ++ tail := by
  cases cs with
  | nil =>
      exact absurd hfront hc.symm
  | cons d rest =>
      rfl

/-!
## Digits
-/

theorem digitValue?_eq_none {c : Char} (hc : isDigit c = false) : digitValue? c = none := by
  simp only [isDigit, Bool.and_eq_false_iff, decide_eq_false_iff_not] at hc
  exact if_neg (fun h => hc.elim (fun hlow => hlow h.left) (fun hhigh => hhigh h.right))

theorem digitValue?_of_isDigit {c : Char} (hc : isDigit c = true) :
    digitValue? c = some (c.toNat - 48) := by
  simp only [isDigit, Bool.and_eq_true, decide_eq_true_eq] at hc
  exact if_pos hc

theorem digits?_append {tail : List Char} (htail : isDigit (front tail) = false)
    (count acc : Nat) (cs : List Char) :
    digits? count acc (cs ++ tail) =
      (digits? count acc cs).map (fun read => (read.1, read.2 ++ tail)) := by
  induction count generalizing acc cs with
  | zero =>
      rfl
  | succ count ih =>
      cases cs with
      | nil =>
          cases tail with
          | nil =>
              rfl
          | cons c rest =>
              have hnone : digitValue? c = none := digitValue?_eq_none htail
              simp only [List.nil_append, digits?, hnone, Option.map_none]
      | cons c rest =>
          rw [List.cons_append, digits?, digits?]
          cases digitValue? c with
          | none =>
              rfl
          | some d =>
              exact ih (10 * acc + d) rest

theorem digits_of_digits? {count acc : Nat} {cs : List Char} {read : Nat × List Char}
    (h : digits? count acc cs = some read) :
    exists ds, cs = ds ++ read.2 ∧ ds.length = count ∧ forall c, c ∈ ds -> isDigit c = true := by
  induction count generalizing acc cs with
  | zero =>
      cases h
      exact ⟨[], rfl, rfl, fun c hc => absurd hc List.not_mem_nil⟩
  | succ count ih =>
      cases cs with
      | nil =>
          cases h
      | cons c others =>
          rw [digits?] at h
          cases hc : isDigit c with
          | false =>
              rw [digitValue?_eq_none hc] at h
              cases h
          | true =>
              rw [digitValue?_of_isDigit hc] at h
              rcases ih h with ⟨ds, hothers, hlength, hdigits⟩
              exact ⟨c :: ds, by rw [hothers, List.cons_append],
                by rw [List.length_cons, hlength], List.forall_mem_cons.mpr ⟨hc, hdigits⟩⟩

theorem length_of_digits? {count acc : Nat} {cs : List Char} {read : Nat × List Char}
    (h : digits? count acc cs = some read) : cs.length = count + read.2.length := by
  rcases digits_of_digits? h with ⟨ds, hcs, hlength, _hdigits⟩
  rw [hcs, List.length_append, hlength]

theorem takeWhile_isDigit_append {tail : List Char} (htail : isDigit (front tail) = false)
    (cs : List Char) : (cs ++ tail).takeWhile isDigit = cs.takeWhile isDigit := by
  have hnone : tail.takeWhile isDigit = [] := by
    cases tail with
    | nil =>
        rfl
    | cons c rest =>
        refine List.takeWhile_cons_of_neg ?_
        rw [show isDigit c = false from htail]
        exact Bool.false_ne_true
  rw [List.takeWhile_append, hnone, List.append_nil]
  split
  · rename_i hall
    exact (List.IsPrefix.eq_of_length (List.takeWhile_prefix _) hall).symm
  · rfl

theorem dropWhile_isDigit_append {tail : List Char} (htail : isDigit (front tail) = false)
    (cs : List Char) : (cs ++ tail).dropWhile isDigit = cs.dropWhile isDigit ++ tail := by
  rw [List.dropWhile_append, dropWhile_isDigit htail]
  split
  · rename_i hempty
    rw [List.isEmpty_iff.mp hempty, List.nil_append]
  · rfl

/-!
## Fields of a time
-/

def Parts.settled (p : Parts) : Parts :=
  { p with leftover := false }

variable {u w : List Char}

theorem fraction?_tail (hu : Stops u) (hw : Stops w) (p : Parts) (remaining : Nat)
    (cs : List Char) :
    (fraction? p remaining (cs ++ u)).map Parts.settled =
      (fraction? p remaining (cs ++ w)).map Parts.settled := by
  simp only [fraction?, digits?_append hu.digit, digits?_append hw.digit]
  cases digits? (min remaining 6) 0 cs with
  | none =>
      rfl
  | some read =>
      rfl

def isSpaced (spaced : Bool) (field : Nat) (rest : List Char) : Bool :=
  if field = 0 then front rest = ':' else spaced

theorem fields?_succ (p : Parts) (spaced : Bool) (left field length : Nat) (cs : List Char) :
    fields? p spaced (left + 1) field length cs =
      (digits? 2 0 cs).bind fun read =>
        if length ≤ 3 then
          some { p.withField field read.1 with leftover := front read.2 ≠ '\x00' }
        else if isSpaced spaced field read.2 = true ∧ front read.2 = ':' then
          fields? (p.withField field read.1) (isSpaced spaced field read.2) left (field + 1)
            (length - 3) (read.2.drop 1)
        else if front read.2 = '.' ∨ front read.2 = ',' then
          fraction? (p.withField field read.1) (length - 3) (read.2.drop 1)
        else if isSpaced spaced field read.2 then none
        else
          fields? (p.withField field read.1) (isSpaced spaced field read.2) left (field + 1)
            (length - 2) read.2 := by
  rw [fields?]
  cases digits? 2 0 cs with
  | none =>
      rfl
  | some read =>
      by_cases hfield : field = 0 <;>
        simp only [isSpaced, hfield, Option.bind_eq_bind, Option.bind_some, Bool.and_eq_true,
          decide_eq_true_eq, if_true, if_false, Bool.decide_eq_true, Option.pure_def]

theorem isSpaced_append {tail : List Char} (htail : Stops tail) (spaced : Bool) (field : Nat)
    (rest : List Char) : isSpaced spaced field (rest ++ tail) = isSpaced spaced field rest := by
  simp only [isSpaced, front_append_eq_iff (by decide : ':' ≠ '\x00') htail.colon]

theorem fields?_succ_append {tail : List Char} (htail : Stops tail) (p : Parts) (spaced : Bool)
    (left field length : Nat) (cs : List Char) :
    fields? p spaced (left + 1) field length (cs ++ tail) =
      (digits? 2 0 cs).bind fun read =>
        if length ≤ 3 then
          some { p.withField field read.1 with leftover := front (read.2 ++ tail) ≠ '\x00' }
        else if isSpaced spaced field read.2 = true ∧ front read.2 = ':' then
          fields? (p.withField field read.1) (isSpaced spaced field read.2) left (field + 1)
            (length - 3) (read.2.drop 1 ++ tail)
        else if front read.2 = '.' ∨ front read.2 = ',' then
          fraction? (p.withField field read.1) (length - 3) (read.2.drop 1 ++ tail)
        else if isSpaced spaced field read.2 then none
        else
          fields? (p.withField field read.1) (isSpaced spaced field read.2) left (field + 1)
            (length - 2) (read.2 ++ tail) := by
  simp only [fields?_succ, digits?_append htail.digit, Option.bind_map, Function.comp_def,
    isSpaced_append htail, front_append_eq_iff (by decide : ':' ≠ '\x00') htail.colon,
    front_append_eq_iff (by decide : '.' ≠ '\x00') htail.point,
    front_append_eq_iff (by decide : ',' ≠ '\x00') htail.comma]
  congr 1
  funext read
  have hdrop : front read.2 = ':' ∨ front read.2 = '.' ∨ front read.2 = ',' ->
      (read.2 ++ tail).drop 1 = read.2.drop 1 ++ tail := by
    intro h
    rcases h with h | h | h
    · exact drop_one_append (by decide) h tail
    · exact drop_one_append (by decide) h tail
    · exact drop_one_append (by decide) h tail
  split
  · rfl
  · split
    · rename_i hcolon
      rw [hdrop (Or.inl hcolon.right)]
    · split
      · rename_i hpoint
        rw [hdrop (Or.inr hpoint)]
      · rfl

theorem fields?_tail (hu : Stops u) (hw : Stops w) (p : Parts) (spaced : Bool)
    (left field length : Nat) (cs : List Char) :
    (fields? p spaced left field length (cs ++ u)).map Parts.settled =
      (fields? p spaced left field length (cs ++ w)).map Parts.settled := by
  induction left generalizing p spaced field length cs with
  | zero =>
      exact fraction?_tail hu hw p length cs
  | succ left ih =>
      rw [fields?_succ_append hu, fields?_succ_append hw]
      cases digits? 2 0 cs with
      | none =>
          rfl
      | some read =>
          simp only [Option.bind_some]
          split_ifs
          · rfl
          · exact ih _ _ _ _ _
          · exact fraction?_tail hu hw _ _ _
          · rfl
          · exact ih _ _ _ _ _

/-!
## An offset with universal time behind it
-/

def utcChars : List Char :=
  ['+', '0', '0', ':', '0', '0']

theorem stops_utcChars : Stops utcChars :=
  stops_of_startsOffset rfl _

theorem fraction?_of_utcChars {p q : Parts} {cs : List Char}
    (h : fraction? p (cs.length + 6) (cs ++ utcChars) = some q) (hq : q.leftover = false) :
    6 < cs.length ∧ fraction? p cs.length cs = some q := by
  have hwidth : min (cs.length + 6) 6 = 6 := by omega
  simp only [fraction?, hwidth, digits?_append stops_utcChars.digit, Option.bind_eq_bind] at h
  cases hread : digits? 6 0 cs with
  | none =>
      rw [hread] at h
      cases h
  | some read =>
      have hlength := length_of_digits? hread
      simp only [hread, Option.map_some, Option.bind_some, Option.pure_def, Option.some.injEq,
        dropWhile_isDigit_append stops_utcChars.digit] at h
      have hnull : front (read.2.dropWhile isDigit ++ utcChars) = '\x00' := by
        rw [← h] at hq
        simpa using hq
      have hbehind : read.2.dropWhile isDigit ≠ [] := by
        intro hnil
        rw [hnil] at hnull
        exact absurd hnull (by decide)
      have hsome : 0 < read.2.length := by
        refine List.length_pos_iff.mpr (fun hnil => hbehind ?_)
        rw [hnil]
        rfl
      refine ⟨by omega, ?_⟩
      rw [front_append_of_ne_nil hbehind] at h
      have hmin : min cs.length 6 = 6 := by omega
      simp only [fraction?, hmin, hread, Option.bind_eq_bind, Option.bind_some, Option.pure_def, h]

/-- The fields of an offset are read up to a null character, where there is a tail that they
cannot be read with. -/
theorem fields?_of_utcChars {p q : Parts} {spaced : Bool} {left field : Nat} {cs : List Char}
    (h : fields? p spaced left field (cs.length + 6) (cs ++ utcChars) = some q)
    (hq : q.leftover = false) :
    6 < cs.length ∧ fields? p spaced left field cs.length cs = some q := by
  induction left generalizing p spaced field cs with
  | zero =>
      exact fraction?_of_utcChars h hq
  | succ left ih =>
      have hlong : ¬ cs.length + 6 ≤ 3 := by omega
      rw [fields?_succ_append stops_utcChars] at h
      rw [fields?_succ]
      cases hread : digits? 2 0 cs with
      | none =>
          rw [hread] at h
          cases h
      | some read =>
          have hlength := length_of_digits? hread
          have hdropped : read.2 ≠ [] -> (read.2.drop 1).length + 3 = cs.length := by
            intro hfilled
            have hpos := List.length_pos_iff.mpr hfilled
            rw [List.length_drop]
            omega
          simp only [hread, Option.bind_some, if_neg hlong] at h ⊢
          -- reading goes on behind a colon, a point or a digit
          split_ifs at h with hcolon hpoint hspaced
          · have hdropped := hdropped (fun hnil => by
              rw [hnil] at hcolon
              exact absurd hcolon.right (by decide))
            rw [show cs.length + 6 - 3 = (read.2.drop 1).length + 6 by omega] at h
            rcases ih h with ⟨hlonger, hfields⟩
            rw [if_neg (by omega), if_pos hcolon,
              show cs.length - 3 = (read.2.drop 1).length by omega]
            exact ⟨by omega, hfields⟩
          · have hdropped := hdropped (fun hnil => by
              rw [hnil] at hpoint
              exact absurd hpoint (by decide))
            rw [show cs.length + 6 - 3 = (read.2.drop 1).length + 6 by omega] at h
            rcases fraction?_of_utcChars h hq with ⟨hlonger, hfraction⟩
            rw [if_neg (by omega), if_neg hcolon, if_pos hpoint,
              show cs.length - 3 = (read.2.drop 1).length by omega]
            exact ⟨by omega, hfraction⟩
          · rw [show cs.length + 6 - 2 = read.2.length + 6 by omega] at h
            rcases ih h with ⟨hlonger, hfields⟩
            rw [if_neg (by omega), if_neg hcolon, if_neg hpoint, if_neg hspaced,
              show cs.length - 2 = read.2.length by omega]
            exact ⟨by omega, hfields⟩

end IsoReading
end ContentSchema
