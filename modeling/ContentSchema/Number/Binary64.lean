import ContentSchema.Number.Power

/-!
# Double-precision numbers

A binary floating-point number is a sign, a significand and a power of two, or an infinity,
or not a number.  Its meaning is an exact quantity, and all comparison goes through that
meaning: two numbers compare as the rationals that they stand for, and what is not a number
compares with nothing.  Each occurrence of not-a-number carries a label, so that a value can
be told to be the same occurrence.
-/

namespace ContentSchema

/-!
## Quantities
-/

inductive Quantity
  | rational (q : Rat)
  | infinite (negative : Bool)
  | undefined
deriving DecidableEq

namespace Quantity

def lt : Quantity → Quantity → Bool
  | rational a, rational b => a < b
  | rational _, infinite negative => !negative
  | infinite negative, rational _ => negative
  | infinite a, infinite b => a && !b
  | _, _ => false

def eq : Quantity → Quantity → Bool
  | rational a, rational b => a = b
  | infinite a, infinite b => a = b
  | _, _ => false

def le (a b : Quantity) : Bool :=
  a.lt b || a.eq b

end Quantity

/-!
## Numbers
-/

/-- A double-precision number: `significand * 2 ^ exponent` with a sign, or one of the special values. -/
inductive Binary64
  | finite (negative : Bool) (significand : Nat) (exponent : Int)
  | infinite (negative : Bool)
  | notANumber (label : Nat)
deriving DecidableEq

namespace Binary64

/-- The number as it occurs in a place of its own: not a number is told from its other
occurrences by a label. -/
def labelled (label : Nat) : Binary64 → Binary64
  | notANumber _ => notANumber label
  | x => x

def powerOfTwo (exponent : Int) : Rat :=
  if 0 ≤ exponent then ((twoTo exponent.toNat : Nat) : Rat)
  else 1 / ((twoTo (-exponent).toNat : Nat) : Rat)

def quantity : Binary64 → Quantity
  | finite negative significand exponent =>
      let size := (significand : Rat) * powerOfTwo exponent
      .rational (if negative then -size else size)
  | infinite negative => .infinite negative
  | notANumber _ => .undefined

def isWhole (x : Binary64) : Bool :=
  match x.quantity with
  | .rational q => q.den = 1
  | _ => false

def truncate (x : Binary64) : Int :=
  match x.quantity with
  | .rational q => q.num.tdiv q.den
  | _ => 0

/-!
## Rounding

A positive fraction is rounded to the nearest number with a significand of at most
fifty-three bits and an exponent not below the least one; of two equally near, the one with
the even significand is taken.
-/

def leastExponent : Int := -1074

def precision : Nat := 53

def roundedQuotient (num den : Nat) : Nat :=
  let q := num / den
  let twice := 2 * (num % den)
  if twice < den then q
  else if den < twice then q + 1
  else if q % 2 = 0 then q else q + 1

def ofFraction (negative : Bool) (num den : Nat) : Binary64 :=
  if num = 0 then finite negative 0 leastExponent
  else
    let estimate := (num.log2 : Int) - (den.log2 : Int) - (precision : Int)
    let scaled (e : Int) : Nat :=
      if 0 ≤ e then roundedQuotient num (den * twoTo e.toNat)
      else roundedQuotient (num * twoTo (-e).toNat) den
    let floorAt (e : Int) : Nat :=
      if 0 ≤ e then num / (den * twoTo e.toNat) else num * twoTo (-e).toNat / den
    let exact := if twoTo precision ≤ floorAt estimate then estimate + 1 else estimate
    let exponent := max exact leastExponent
    let significand := scaled exponent
    let carried := if significand = twoTo precision then (twoTo (precision - 1), exponent + 1)
      else (significand, exponent)
    if 971 < carried.2 then infinite negative
    else finite negative carried.1 carried.2

def ofDecimal (negative : Bool) (digits : Nat) (power : Int) : Binary64 :=
  if digits = 0 then finite negative 0 leastExponent
  else
    let size := (digits.log2 : Int) * 30103 / 100000 + power
    if 400 < size then infinite negative
    else if size < -400 then finite negative 0 leastExponent
    else if 0 ≤ power then ofFraction negative (digits * tenTo power.toNat) 1
    else ofFraction negative digits (tenTo (-power).toNat)

def ofInt (n : Int) : Binary64 :=
  ofFraction (n < 0) n.natAbs 1

/-!
## Arithmetic

Sums and products are exact quantities rounded once.
-/

def isNegative : Binary64 → Bool
  | finite negative _ _ => negative
  | infinite negative => negative
  | notANumber _ => false

def ofRational (zeroSign : Bool) (q : Rat) : Binary64 :=
  ofFraction (if q = 0 then zeroSign else q < 0) q.num.natAbs q.den

def add (a b : Binary64) : Binary64 :=
  match a.quantity, b.quantity with
  | .rational p, .rational q => ofRational (a.isNegative && b.isNegative) (p + q)
  | .infinite x, .infinite y => if x = y then infinite x else notANumber 0
  | .infinite x, .rational _ => infinite x
  | .rational _, .infinite y => infinite y
  | _, _ => notANumber 0

def mul (a b : Binary64) : Binary64 :=
  let sign := a.isNegative != b.isNegative
  match a.quantity, b.quantity with
  | .rational p, .rational q => ofRational sign (p * q)
  | .undefined, _ => notANumber 0
  | _, .undefined => notANumber 0
  | .infinite _, .rational q => if q = 0 then notANumber 0 else infinite sign
  | .rational p, .infinite _ => if p = 0 then notANumber 0 else infinite sign
  | .infinite _, .infinite _ => infinite sign

end Binary64
end ContentSchema
