import ContentSchema.Number.Binary64
import ContentSchema.Text.Numeral

/-!
# Shortest decimal text

A double-precision number is written with the fewest decimal digits that read back as the
same number; of several texts of that length the nearest to the number is taken, and of two
equally near the one with the even last digit.  The text is positional while the decimal
point stands near the digits and otherwise has an exponent.
-/

namespace ContentSchema
namespace Binary64

/-!
## Digits
-/

structure Fraction where
  num : Nat
  den : Nat

namespace Fraction

def le (a b : Fraction) : Bool :=
  a.num * b.den ≤ b.num * a.den

def lt (a b : Fraction) : Bool :=
  a.num * b.den < b.num * a.den

def ofBinary (n : Nat) (e : Int) : Fraction :=
  if 0 ≤ e then ⟨n * twoTo e.toNat, 1⟩ else ⟨n, twoTo (-e).toNat⟩

def ofDecimal (n : Nat) (e : Int) : Fraction :=
  if 0 ≤ e then ⟨n * tenTo e.toNat, 1⟩ else ⟨n, tenTo (-e).toNat⟩

def floorAt (a : Fraction) (e : Int) : Nat :=
  if 0 ≤ e then a.num / (a.den * tenTo e.toNat) else a.num * tenTo (-e).toNat / a.den

end Fraction

/-- The numbers that round to `significand * 2 ^ exponent`: an interval with its ends, which
belong to it when the significand is even. -/
structure RoundingInterval where
  low : Fraction
  high : Fraction
  closed : Bool

def roundingInterval (significand : Nat) (exponent : Int) : RoundingInterval :=
  let low :=
    if significand = twoTo (precision - 1) ∧ leastExponent < exponent then
      Fraction.ofBinary (4 * significand - 1) (exponent - 2)
    else Fraction.ofBinary (2 * significand - 1) (exponent - 1)
  ⟨low, Fraction.ofBinary (2 * significand + 1) (exponent - 1), significand % 2 = 0⟩

def RoundingInterval.holds (i : RoundingInterval) (x : Fraction) : Bool :=
  if i.closed then i.low.le x && x.le i.high else i.low.lt x && x.lt i.high

/-- Whether `a` is no farther from `x` than `b`, with `a ≤ x ≤ b`, and even on a tie. -/
def lowerIsNearer (x : Fraction) (digits : Nat) (e : Int) : Bool :=
  let twice : Fraction := ⟨2 * x.num, x.den⟩
  let middle := Fraction.ofDecimal (2 * digits + 1) e
  twice.lt middle || (twice.le middle && digits % 2 = 0)

/-- The decimal exponent of a positive fraction: `10 ^ e ≤ x < 10 ^ (e + 1)`. -/
def decimalExponent (x : Fraction) : Int :=
  let estimate := ((x.num.log2 : Int) - (x.den.log2 : Int)) * 30103 / 100000
  let down := if x.lt (Fraction.ofDecimal 1 estimate) then estimate - 1 else estimate
  if (Fraction.ofDecimal 1 (down + 1)).le x then down + 1 else down

def gridPoint? (x : Fraction) (i : RoundingInterval) (e : Int) : Option Nat :=
  let below := x.floorAt e
  let lowHit := i.holds (Fraction.ofDecimal below e)
  let highHit := i.holds (Fraction.ofDecimal (below + 1) e)
  if lowHit && highHit then
    some (if lowerIsNearer x below e then below else below + 1)
  else if lowHit then some below
  else if highHit then some (below + 1)
  else none

/-- The digits of the shortest decimal in the interval, with the exponent of the last digit:
grids of one digit, two digits and so on are tried in turn. -/
def shortestOn (x : Fraction) (i : RoundingInterval) (top : Int) : Nat → Nat → Nat × Int
  | 0, tried => (x.floorAt (top - tried), top - tried)
  | more + 1, tried =>
      match gridPoint? x i (top - tried) with
      | some digits => (digits, top - tried)
      | none => shortestOn x i top more (tried + 1)

def shortestDecimal (significand : Nat) (exponent : Int) : Nat × Int :=
  let x := Fraction.ofBinary significand exponent
  shortestOn x (roundingInterval significand exponent) (decimalExponent x) 17 0

/-!
## Text
-/

def dropZeros (digits : List Char) (e : Int) : List Char × Int :=
  let kept := (digits.reverse.dropWhile (· = '0')).reverse
  (kept, e + (digits.length - kept.length : Nat))

def exponentText (e : Int) : List Char :=
  let size := (toString e.natAbs).toList
  'e' :: (if e < 0 then '-' else '+') :: (if size.length < 2 then '0' :: size else size)

/-- Digits with a point after `point` of them.  The text is positional from `0.0001` up to
sixteen digits before the point. -/
def placePoint (digits : List Char) (point : Int) : List Char :=
  if point ≤ -4 ∨ 16 < point then
    match digits with
    | [] => []
    | [d] => d :: exponentText (point - 1)
    | d :: rest => d :: '.' :: rest ++ exponentText (point - 1)
  else if point ≤ 0 then
    '0' :: '.' :: List.replicate (-point).toNat '0' ++ digits
  else if digits.length ≤ point.toNat then
    digits ++ List.replicate (point.toNat - digits.length) '0' ++ ['.', '0']
  else
    digits.take point.toNat ++ '.' :: digits.drop point.toNat

def text : Binary64 → String
  | notANumber _ => "nan"
  | infinite negative => if negative then "-inf" else "inf"
  | finite negative significand exponent =>
      let sign := if negative then ['-'] else []
      if significand = 0 then String.ofList (sign ++ ['0', '.', '0'])
      else
        let (number, e) := shortestDecimal significand exponent
        let (digits, e) := dropZeros (toString number).toList e
        String.ofList (sign ++ placePoint digits (e + digits.length))

/-!
## Reading
-/

def read? (text : String) : Option Binary64 :=
  let cs := text.toList
  let (negative, cs) : Bool × List Char :=
    match cs with
    | '-' :: rest => (true, rest)
    | '+' :: rest => (false, rest)
    | _ => (false, cs)
  let (whole, rest) := cs.span Text.isDigit
  let (fraction, rest) : List Char × List Char :=
    match rest with
    | '.' :: rest => rest.span Text.isDigit
    | _ => ([], rest)
  if whole.isEmpty && fraction.isEmpty then none
  else
    let digits := Text.numberOf 10 (whole ++ fraction)
    let shift : Int := -(fraction.length : Int)
    let readExponent (sign : Int) (cs : List Char) : Option Binary64 :=
      if cs.isEmpty || !cs.all Text.isDigit then none
      else some (ofDecimal negative digits (shift + sign * Text.numberOf 10 cs))
    match rest with
    | [] => some (ofDecimal negative digits shift)
    | 'e' :: '-' :: rest => readExponent (-1) rest
    | 'e' :: '+' :: rest => readExponent 1 rest
    | 'e' :: rest => readExponent 1 rest
    | 'E' :: '-' :: rest => readExponent (-1) rest
    | 'E' :: '+' :: rest => readExponent 1 rest
    | 'E' :: rest => readExponent 1 rest
    | _ => none

end Binary64
end ContentSchema
