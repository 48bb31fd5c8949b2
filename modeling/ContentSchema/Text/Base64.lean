import ContentSchema.Text.Numeral

/-!
# Base 64

Bytes written with sixty-four characters of six bits each, four characters for three bytes.
Other characters are passed over, and padding ends the text where it completes a group.
-/

namespace ContentSchema
namespace Text

def sixBits? (c : Char) : Option Nat :=
  let n := c.toNat
  if 65 ≤ n ∧ n ≤ 90 then some (n - 65)
  else if 97 ≤ n ∧ n ≤ 122 then some (n - 71)
  else if 48 ≤ n ∧ n ≤ 57 then some (n + 4)
  else if c = '+' then some 62
  else if c = '/' then some 63
  else none

/-- The bytes of the rest of a text: `place` characters of a group are read, `left` are the
bits of them that no byte has yet, and `padding` signs of padding have followed them.  A
text must not stop inside a group. -/
def base64From (place left padding : Nat) : List Char → Option (List UInt8)
  | [] => if place = 0 then some [] else none
  | c :: rest =>
      if c = '=' then
        if place < 2 then base64From place left padding rest
        else if 4 ≤ place + padding + 1 then some []
        else base64From place left (padding + 1) rest
      else
        match sixBits? c with
        | none => base64From place left padding rest
        | some bits =>
            match place with
            | 0 => base64From 1 bits 0 rest
            | 1 =>
                (base64From 2 (bits % 16) 0 rest).map (UInt8.ofNat (left * 4 + bits / 16) :: ·)
            | 2 =>
                (base64From 3 (bits % 4) 0 rest).map (UInt8.ofNat (left * 16 + bits / 4) :: ·)
            | _ => (base64From 0 0 0 rest).map (UInt8.ofNat (left * 64 + bits) :: ·)

def base64? (cs : List Char) : Option (List UInt8) :=
  base64From 0 0 0 cs

end Text
end ContentSchema
