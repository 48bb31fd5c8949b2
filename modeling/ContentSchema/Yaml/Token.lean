import ContentSchema.Yaml.Cursor

/-!
# Tokens

The tokens of a YAML text.  Indentation shows as tokens that open and close block
collections.  A tag is either complete or a handle with a suffix.
-/

namespace ContentSchema
namespace Yaml

inductive TagText
  | complete (tag : String)
  | short (handle suffix : String)
deriving DecidableEq

inductive Directive
  | version (major : Nat)
  | tagHandle (handle replacement : String)
  | other
deriving DecidableEq

inductive Token
  | directive (d : Directive)
  | documentStart
  | documentEnd
  | blockSequenceStart
  | blockMappingStart
  | blockEnd
  | flowSequenceStart
  | flowSequenceEnd
  | flowMappingStart
  | flowMappingEnd
  | flowEntry
  | blockEntry
  | key
  | value
  | alias (name : String)
  | anchor (name : String)
  | tag (t : TagText)
  | scalar (contents : String) (isPlain : Bool)
  | streamEnd
deriving DecidableEq

/-!
## Names and tags
-/

namespace Cursor

def takeName (c : Cursor) : Outcome (String × Cursor) :=
  let (name, c) := c.takeWhile isNameChar
  if name.isEmpty then reject else .ok (String.ofList name, c)

def takeAnchor (c : Cursor) : Outcome (String × Cursor) := do
  let (name, c) ← c.next.takeName
  match c.peek with
  | none => return (name, c)
  | some x =>
      if endsSpaced (some x) || "?:,]\x7d%@\x60".toList.contains x then return (name, c) else reject

def isTagChar (x : Char) : Bool :=
  isNameChar x || ";/?:@&=+$,.!~*'()[]%".toList.contains x

def takeEscapedBytes : Nat → Cursor → Outcome (List UInt8 × Cursor)
  | 0, c => .ok ([], c)
  | fuel + 1, c =>
      match c.rest with
      | '%' :: a :: b :: _ =>
          match Text.hexValue? a, Text.hexValue? b with
          | some x, some y => do
              let (bytes, c) ← takeEscapedBytes fuel (c.advance 3)
              return (UInt8.ofNat (16 * x + y) :: bytes, c)
          | _, _ => reject
      | '%' :: _ => reject
      | _ => .ok ([], c)

def takeTagChars : Nat → Cursor → Outcome (List Char × Cursor)
  | 0, c => .ok ([], c)
  | fuel + 1, c =>
      match c.peek with
      | some '%' => do
          let (bytes, c) ← takeEscapedBytes c.rest.length c
          match String.fromUTF8? ⟨bytes.toArray⟩ with
          | some s => do
              let (later, c) ← takeTagChars fuel c
              return (s.toList ++ later, c)
          | none => reject
      | some x =>
          if isTagChar x then do
            let (later, c) ← takeTagChars fuel c.next
            return (x :: later, c)
          else .ok ([], c)
      | none => .ok ([], c)

def takeTagText (c : Cursor) : Outcome (String × Cursor) := do
  let (chars, c) ← takeTagChars c.rest.length c
  if chars.isEmpty then reject else return (String.ofList chars, c)

/-- A handle: an exclamation mark, alone before a blank or with a name and a second one. -/
def takeHandle (c : Cursor) : Outcome (String × Cursor) :=
  if !c.sees '!' then reject
  else
    let c' := c.next
    if c'.sees ' ' then .ok ("!", c')
    else
      let (name, c'') := c'.takeWhile isNameChar
      if c''.sees '!' then .ok (String.ofList ('!' :: name ++ ['!']), c''.next) else reject

def hasSecondMark (c : Cursor) : Bool :=
  ((c.rest.drop 1).takeWhile (fun x => !endsWord (some x))).contains '!'

def takeTag (c : Cursor) : Outcome (TagText × Cursor) := do
  let (tag, c) ←
    match c.peekAt 1 with
    | some '<' => do
        let (text, c) ← (c.advance 2).takeTagText
        if c.sees '>' then pure (TagText.complete text, c.next) else reject
    | x =>
        if endsSpaced x then pure (TagText.complete "!", c.next)
        else do
          let (handle, c) ← if c.hasSecondMark then c.takeHandle else pure ("!", c.next)
          let (suffix, c) ← c.takeTagText
          pure (TagText.short handle suffix, c)
  if endsWord c.peek then return (tag, c) else reject

/-!
## Directives
-/

def takeNumber (c : Cursor) : Outcome (Nat × Cursor) :=
  let (digits, c) := c.takeWhile Text.isDigit
  if digits.isEmpty then reject else .ok (Text.numberOf 10 digits, c)

def takeDirectiveBody (name : String) (c : Cursor) : Outcome (Directive × Cursor) :=
  match name with
  | "YAML" => do
      let (major, c) ← c.skipBlanks.takeNumber
      if !c.sees '.' then reject
      else
        let (_, c) ← c.next.takeNumber
        if endsWord c.peek then return (.version major, c) else reject
  | "TAG" => do
      let (handle, c) ← c.skipBlanks.takeHandle
      if !c.sees ' ' then reject
      else
        let (replacement, c) ← c.skipBlanks.takeTagText
        if endsWord c.peek then return (.tagHandle handle replacement, c) else reject
  | _ => .ok (.other, c.skipWhile (fun x => !isBreak x))

def takeDirective (c : Cursor) : Outcome (Directive × Cursor) := do
  let (name, c) ← c.next.takeName
  if !endsWord c.peek then reject
  else
    let (d, c) ← takeDirectiveBody name c
    return (d, ← c.finishLine)

end Cursor
end Yaml
end ContentSchema
