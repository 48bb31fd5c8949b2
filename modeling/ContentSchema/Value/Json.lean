import ContentSchema.Value.Display

/-!
# Values as JSON text

Values are written on one line or with one element a line.  Characters outside visible
ASCII are escaped by their UTF-16 code units.  What JSON has no form for, such as a date, is
written as the quoted plain form of the value; keys of mappings that are no texts are
written as texts.

Not every value can be written.  A key must be a scalar that JSON has a form for, and a value
that JSON has no form for can be written only where its plain form may stand in for it.
-/

namespace ContentSchema
namespace Json

open Text (fixedDigits)

/-!
## Texts
-/

def unitEscape (unit : Nat) : List Char :=
  '\\' :: 'u' :: fixedDigits 16 4 unit

def escapedChar (c : Char) : List Char :=
  if c = '"' ∨ c = '\\' then ['\\', c]
  else if c = '\n' then ['\\', 'n']
  else if c = '\r' then ['\\', 'r']
  else if c = '\t' then ['\\', 't']
  else if c.toNat = 8 then ['\\', 'b']
  else if c.toNat = 12 then ['\\', 'f']
  else if 0x20 ≤ c.toNat ∧ c.toNat < 0x7F then [c]
  else if c.toNat < 0x10000 then unitEscape c.toNat
  else
    let n := c.toNat - 0x10000
    unitEscape (0xD800 + n / 0x400) ++ unitEscape (0xDC00 + n % 0x400)

def quoted (text : String) : String :=
  String.ofList ('"' :: text.toList.flatMap escapedChar ++ ['"'])

/-!
## Numbers and keys
-/

def floatText : Binary64 → String
  | .notANumber _ => "NaN"
  | .infinite negative => if negative then "-Infinity" else "Infinity"
  | x => x.text

def keyText : Value → String
  | .null => "null"
  | .bool b => if b then "true" else "false"
  | .float x => floatText x
  | key => key.plain

/-!
## Layout
-/

inductive Layout
  | oneLine
  | lines (indent : Nat)
deriving DecidableEq

def lineBreak (indent depth : Nat) : String :=
  String.ofList ('\n' :: List.replicate (indent * depth) ' ')

def enclosed (layout : Layout) (depth : Nat) (opening closing : String) (elements : List String) :
    String :=
  if elements.isEmpty then opening ++ closing
  else
    match layout with
    | .oneLine => opening ++ ", ".intercalate elements ++ closing
    | .lines indent =>
        let inner := lineBreak indent (depth + 1)
        opening ++ inner ++ ("," ++ inner).intercalate elements ++ lineBreak indent depth ++ closing

mutual

def text (layout : Layout) (depth : Nat) : Value → String
  | .null => "null"
  | .bool b => if b then "true" else "false"
  | .int n => toString n
  | .float x => floatText x
  | .text s => quoted s
  | .list items => enclosed layout depth "[" "]" (texts layout (depth + 1) items)
  | .tuple items => enclosed layout depth "[" "]" (texts layout (depth + 1) items)
  | .mapping entries =>
      enclosed layout depth "\x7b" "\x7d" (entryTexts layout (depth + 1) entries)
  | v => quoted v.plain

def texts (layout : Layout) (depth : Nat) : List Value → List String
  | [] => []
  | v :: rest => text layout depth v :: texts layout depth rest

def entryTexts (layout : Layout) (depth : Nat) : List (Value × Value) → List String
  | [] => []
  | (key, v) :: rest =>
      (quoted (keyText key) ++ ": " ++ text layout depth v) :: entryTexts layout depth rest

end

/-!
## What can be written
-/

def isKey : Value → Bool
  | .null => true
  | .bool _ => true
  | .int _ => true
  | .float _ => true
  | .text _ => true
  | _ => false

mutual

/-- Whether a value can be written; `standIn` says whether plain forms may stand in. -/
def accepts (standIn : Bool) : Value → Bool
  | .list items => acceptsAll standIn items
  | .tuple items => acceptsAll standIn items
  | .mapping entries => acceptsEntries standIn entries
  | v => standIn || isKey v

def acceptsAll (standIn : Bool) : List Value → Bool
  | [] => true
  | v :: rest => accepts standIn v && acceptsAll standIn rest

def acceptsEntries (standIn : Bool) : List (Value × Value) → Bool
  | [] => true
  | (key, v) :: rest => isKey key && accepts standIn v && acceptsEntries standIn rest

end

end Json

namespace Value

def json (v : Value) : String :=
  Json.text .oneLine 0 v

def jsonLines (v : Value) : String :=
  Json.text (.lines 2) 0 v

/-- Whether a value can be written with plain forms standing in. -/
def isWritable (v : Value) : Bool :=
  Json.accepts true v

def isJson (v : Value) : Bool :=
  Json.accepts false v

end Value
end ContentSchema
