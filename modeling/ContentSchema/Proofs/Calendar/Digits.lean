import ContentSchema.Calendar.IsoText
import ContentSchema.Value.DateText
import Mathlib.Tactic.IntervalCases
import Mathlib.Tactic.Ring

/-!
# Digits and plain texts

A number that is written with a fixed count of digits is read back as itself, whatever stands
behind it.  The characters of written dates are plain: none is blank, none takes more than one
byte, and none is the letter that stands for universal time.  A plain text is therefore read
just as it stands.
-/

namespace ContentSchema
namespace Text

/-!
## Digits
-/

theorem digitValue?_digitChar {d : Nat} (hd : d < 10) : digitValue? (digitChar d) = some d := by
  interval_cases d <;> rfl

theorem isDigit_digitChar {d : Nat} (hd : d < 10) : isDigit (digitChar d) = true := by
  interval_cases d <;> rfl

@[simp] theorem length_fixedDigits (base width n : Nat) :
    (fixedDigits base width n).length = width := by
  induction width generalizing n with
  | zero =>
      rfl
  | succ width ih =>
      rw [fixedDigits, List.length_append, ih, List.length_singleton]

theorem isDigit_of_mem_fixedDigits {width n : Nat} {c : Char}
    (hc : c ∈ fixedDigits 10 width n) : isDigit c = true := by
  induction width generalizing n with
  | zero =>
      cases hc
  | succ width ih =>
      rcases List.mem_append.mp hc with hc | hc
      · exact ih hc
      · rw [List.mem_singleton.mp hc]
        exact isDigit_digitChar (Nat.mod_lt n (by decide))

theorem fixedDigits_eq_cons (width n : Nat) :
    exists c rest, fixedDigits 10 (width + 1) n = c :: rest ∧ isDigit c = true := by
  cases hdigits : fixedDigits 10 (width + 1) n with
  | nil =>
      have hlength := length_fixedDigits 10 (width + 1) n
      rw [hdigits] at hlength
      cases hlength
  | cons c rest =>
      have hc : c ∈ fixedDigits 10 (width + 1) n := by
        rw [hdigits]
        exact List.mem_cons_self
      exact ⟨c, rest, rfl, isDigit_of_mem_fixedDigits hc⟩

/-!
## Plain characters
-/

/-- The character is printed, takes one byte, and comes before the last letter. -/
def IsPlain (c : Char) : Prop :=
  33 <= c.toNat ∧ c.toNat < 90

instance (c : Char) : Decidable (IsPlain c) :=
  inferInstanceAs (Decidable (33 <= c.toNat ∧ c.toNat < 90))

theorem isPlain_of_isDigit {c : Char} (h : isDigit c = true) : IsPlain c := by
  simp only [isDigit, Bool.and_eq_true, decide_eq_true_eq] at h
  exact ⟨by omega, by omega⟩

theorem IsPlain.utf8Size_eq {c : Char} (h : IsPlain c) : c.utf8Size = 1 := by
  have hbelow : c.val.toNat < 90 := h.right
  have hseven : (127 : UInt32).toNat = 127 := rfl
  rw [Char.utf8Size_eq_one_iff, UInt32.le_iff_toNat_le]
  omega

theorem IsPlain.not_isBlank {c : Char} (h : IsPlain c) : isBlank c = false := by
  rcases h with ⟨hlow, hhigh⟩
  refine List.any_eq_false.mpr (fun r hr => ?_)
  rw [Bool.and_eq_true, decide_eq_true_eq, decide_eq_true_eq]
  -- Every range of blanks ends before the plain characters, or begins behind them.
  have hbeside : forall r, r ∈ blankRanges -> r.2 < 33 ∨ 90 <= r.1 := by
    decide
  have hbeside := hbeside r hr
  omega

theorem dropWhile_isBlank_of_plain {cs : List Char} (h : forall c, c ∈ cs -> IsPlain c) :
    cs.dropWhile isBlank = cs := by
  cases cs with
  | nil =>
      rfl
  | cons c rest =>
      rw [List.dropWhile_cons, (h c List.mem_cons_self).not_isBlank]
      rfl

theorem trimBlanks_of_plain {cs : List Char} (h : forall c, c ∈ cs -> IsPlain c) :
    trimBlanks cs = cs := by
  have hreverse : forall c, c ∈ cs.reverse -> IsPlain c :=
    fun c hc => h c (List.mem_reverse.mp hc)
  rw [trimBlanks, dropWhile_isBlank_of_plain h, dropTrailing,
    dropWhile_isBlank_of_plain hreverse, List.reverse_reverse]

end Text

theorem Value.spellUtc_of_plain {cs : List Char} (h : forall c, c ∈ cs -> Text.IsPlain c) :
    spellUtc cs = cs := by
  unfold spellUtc
  split
  · rename_i rest hreverse
    have hlast : 'Z' ∈ cs := List.mem_reverse.mp (by rw [hreverse]; exact List.mem_cons_self)
    exact absurd (h 'Z' hlast) (by decide)
  · rename_i rest hreverse
    have hlast : 'z' ∈ cs := List.mem_reverse.mp (by rw [hreverse]; exact List.mem_cons_self)
    exact absurd (h 'z' hlast) (by decide)
  · rfl

namespace IsoReading

open Text (fixedDigits isDigit IsPlain)

theorem octets_of_plain {cs : List Char} (h : forall c, c ∈ cs -> IsPlain c) :
    octets cs = cs := by
  induction cs with
  | nil =>
      rfl
  | cons c rest ih =>
      rcases List.forall_mem_cons.mp h with ⟨hc, hrest⟩
      rw [octets, List.flatMap_cons, hc.utf8Size_eq, List.replicate_one, List.singleton_append]
      exact congrArg (c :: ·) (ih hrest)

/-!
## Reading digits
-/

theorem digits?_add (first second acc : Nat) (cs : List Char) :
    digits? (first + second) acc cs =
      (digits? first acc cs).bind (fun read => digits? second read.1 read.2) := by
  induction first generalizing acc cs with
  | zero =>
      rw [Nat.zero_add]
      rfl
  | succ first ih =>
      rw [Nat.succ_add_eq_add_succ]
      cases cs with
      | nil =>
          rfl
      | cons c rest =>
          simp only [digits?]
          cases hd : Text.digitValue? c with
          | none =>
              rfl
          | some d =>
              exact ih (10 * acc + d) rest

theorem digits?_fixedDigits {width n : Nat} (hn : n < 10 ^ width) (acc : Nat)
    (rest : List Char) :
    digits? width acc (fixedDigits 10 width n ++ rest) = some (acc * 10 ^ width + n, rest) := by
  induction width generalizing n rest with
  | zero =>
      have hn : n = 0 := by simpa using hn
      rw [hn]
      simp [digits?, fixedDigits]
  | succ width ih =>
      have hfront : n / 10 < 10 ^ width := by
        rw [Nat.div_lt_iff_lt_mul (by decide), ← Nat.pow_succ]
        exact hn
      have hlast : n % 10 < 10 := Nat.mod_lt n (by decide)
      rw [digits?_add, fixedDigits, List.append_assoc, ih hfront, Option.bind_some]
      simp only [List.singleton_append, digits?, Text.digitValue?_digitChar hlast]
      have hvalue : 10 * (acc * 10 ^ width + n / 10) + n % 10 = acc * 10 ^ (width + 1) + n := by
        rw [Nat.pow_succ]
        have := Nat.div_add_mod n 10
        ring_nf
        omega
      rw [hvalue]

end IsoReading
end ContentSchema
