import ContentSchema.Number.Decimal
import ContentSchema.Text.Base64
import ContentSchema.Text.Blank
import ContentSchema.Text.LetterCase
import ContentSchema.Text.Word
import ContentSchema.Yaml.Tag

/-!
# Values of scalars

What a scalar means by its tag.  A tag that is written down can stand on any text, so the
readings below accept more than the forms of plain scalars do, and stop with a fault on a
text that they cannot read.

Not a number gets the place of its scalar in the text as a label, so that two scalars of one
text are not the same one.  Values that were read from different texts are never compared.
-/

namespace ContentSchema
namespace Yaml
namespace ScalarValue

def stop {α : Type} (fault : Fault) : Outcome α :=
  .error (.stopped fault)

def orStop {α : Type} (fault : Fault) : Option α → Outcome α
  | some a => .ok a
  | none => stop fault

/-!
## Truth values
-/

def bool (contents : String) : Outcome Value :=
  let word := String.ofList (contents.toList.map Text.lowerCase)
  if ["yes", "true", "on"].contains word then .ok (.bool true)
  else if ["no", "false", "off"].contains word then .ok (.bool false)
  else stop .missingKey

/-!
## Whole numbers
-/

def asciiDigit (c : Char) : Char :=
  match Text.decimalDigitValue? c with
  | some n => Text.digitChar n
  | none => c

def takeSign (cs : List Char) : Bool × List Char :=
  match cs with
  | '-' :: rest => (true, rest)
  | '+' :: rest => (false, rest)
  | _ => (false, cs)

def baseLetter? (base : Nat) : Option Char :=
  match base with
  | 2 => some 'b'
  | 8 => some 'o'
  | 16 => some 'x'
  | _ => none

def withoutBase (base : Nat) (cs : List Char) : List Char :=
  match cs with
  | '0' :: letter :: rest =>
      if some (Text.lowerCase letter) = baseLetter? base then rest else cs
  | _ => cs

def mostDigits : Nat := 4300

def numeral? (base : Nat) (cs : List Char) : Option Int :=
  let (negative, cs) := takeSign ((Text.trimBlanks cs).map asciiDigit)
  let digits := withoutBase base cs
  let isDigit (c : Char) : Bool := ((Text.hexValue? c).map (decide <| · < base)).getD false
  if digits.isEmpty || !digits.all isDigit || base = 10 && mostDigits < digits.length then none
  else
    let size : Int := Text.numberOf base digits
    some (if negative then -size else size)

def sexagesimal (digits : List Int) : Int :=
  digits.foldl (fun n digit => 60 * n + digit) 0

def size? (cs : List Char) : Option Int :=
  match cs with
  | ['0'] => some 0
  | '0' :: 'b' :: digits => numeral? 2 digits
  | '0' :: 'x' :: digits => numeral? 16 digits
  | '0' :: _ => numeral? 8 cs
  | _ =>
      if cs.contains ':' then ((cs.splitOn ':').mapM (numeral? 10)).map sexagesimal
      else numeral? 10 cs

def ungrouped (contents : String) : List Char :=
  contents.toList.filter (· ≠ '_')

def int (contents : String) : Outcome Value := do
  let (negative, cs) := takeSign (ungrouped contents)
  if cs.isEmpty then stop .badIndex
  else
    let size ← orStop .badValue (size? cs)
    return .int (if negative then -size else size)

/-!
## Floating-point numbers
-/

def turned (negative : Bool) (x : Binary64) : Binary64 :=
  match negative, x with
  | true, .finite sign significand exponent => .finite (!sign) significand exponent
  | true, .infinite sign => .infinite (!sign)
  | _, x => x

def decimal? (cs : List Char) : Option Binary64 :=
  let cs := (Text.trimBlanks cs).map asciiDigit
  let (negative, word) := takeSign cs
  if word = "inf".toList || word = "infinity".toList then some (.infinite negative)
  else if word = "nan".toList then some (.notANumber 0)
  else Binary64.read? (String.ofList cs)

/-- The sum of digits of base sixty, the last digit first; `weight` is what the next digit
counts. -/
def weightedSum (sum : Binary64) (weight : Nat) : List Binary64 → Outcome Binary64
  | [] => .ok sum
  | digit :: rest =>
      match Binary64.ofInt weight with
      | .infinite _ => stop .tooLarge
      | w => weightedSum (sum.add (digit.mul w)) (weight * 60) rest

def float (contents : String) : Outcome Binary64 := do
  let signed := (ungrouped contents).map Text.lowerCase
  let (negative, cs) := takeSign signed
  if signed.isEmpty then stop .badIndex
  else if cs = ".inf".toList then return .infinite negative
  else if cs = ".nan".toList then return .notANumber 0
  else if cs.contains ':' then
    let digits ← orStop .badValue ((cs.splitOn ':').mapM decimal?)
    let sum ← weightedSum (.finite false 0 Binary64.leastExponent) 1 digits.reverse
    return turned negative sum
  else
    let x ← orStop .badValue (decimal? cs)
    return turned negative x

/-!
## Bytes and timestamps
-/

def binary (contents : String) : Outcome Value :=
  let cs := contents.toList
  if cs.all (fun c => c.toNat < 128) then
    match Text.base64? cs with
    | some bytes => .ok (.bytes bytes)
    | none => reject
  else reject

def timestamp (contents : String) : Outcome Value := do
  let parts ← orStop .wrongType (Timestamp.read? contents)
  orStop .badValue parts.value?

end ScalarValue

def Tag.scalarValue (tag : Tag) (place : Nat) (contents : String) : Outcome Value :=
  match tag with
  | .null => .ok .null
  | .bool => ScalarValue.bool contents
  | .int => ScalarValue.int contents
  | .float => do return .float ((← ScalarValue.float contents).labelled place)
  | .timestamp => ScalarValue.timestamp contents
  | .binary => ScalarValue.binary contents
  | .text => .ok (.text contents)
  | _ => reject

end Yaml
end ContentSchema
