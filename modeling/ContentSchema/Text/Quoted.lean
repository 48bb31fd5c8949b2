import ContentSchema.Text.Numeral
import ContentSchema.Text.Printable

/-!
# Quoted literals

Texts and byte strings as literals in messages.  Single quotes enclose the literal unless it
contains a single quote and no double quote.  A backslash and the enclosing quote are
escaped, and so is every character without a visible form.
-/

namespace ContentSchema
namespace Text

def enclosingQuote (contents : List Char) : Char :=
  if contents.contains '\'' && !contents.contains '"' then '"' else '\''

def codeEscape (c : Char) : List Char :=
  if c.toNat < 0x100 then '\\' :: 'x' :: fixedDigits 16 2 c.toNat
  else if c.toNat < 0x10000 then '\\' :: 'u' :: fixedDigits 16 4 c.toNat
  else '\\' :: 'U' :: fixedDigits 16 8 c.toNat

def quotedChar (quote c : Char) : List Char :=
  if c = quote ∨ c = '\\' then ['\\', c]
  else if c = '\n' then ['\\', 'n']
  else if c = '\r' then ['\\', 'r']
  else if c = '\t' then ['\\', 't']
  else if isPrintable c then [c]
  else codeEscape c

def quoted (text : String) : String :=
  let quote := enclosingQuote text.toList
  String.ofList (quote :: text.toList.flatMap (quotedChar quote) ++ [quote])

def quotedByte (quote : Char) (b : UInt8) : List Char :=
  let c := Char.ofNat b.toNat
  if 0x7F ≤ b.toNat then '\\' :: 'x' :: fixedDigits 16 2 b.toNat else quotedChar quote c

def quotedBytes (bytes : List UInt8) : String :=
  let quote := enclosingQuote (bytes.map (fun b => Char.ofNat b.toNat))
  String.ofList ('b' :: quote :: bytes.flatMap (quotedByte quote) ++ [quote])

end Text
end ContentSchema
