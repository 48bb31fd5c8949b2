import ContentSchema.Yaml.Scalar
import ContentSchema.Yaml.Token

/-!
# Streams of tokens

The tokens of a whole text.  Outside of flow collections a block collection opens where a
line is indented further than the one around it and closes where a line is indented less.  A
mapping key is recognised only by the colon behind it, so the stream remembers what might be
a key, and puts the mark of the key in front of it when the colon comes: on the same line and
at most 1024 characters on.
-/

namespace ContentSchema
namespace Yaml

/-!
## The stream under construction
-/

/-- Something that is a mapping key when a colon follows: the number of its first token, and
the place where it starts.  At the indentation of its block it must be a key. -/
structure KeyCandidate where
  number : Nat
  isRequired : Bool
  place : Cursor

/-- A stream of tokens that is being read: the place in the text, the tokens with the latest
first, the number of open flow collections, the columns of the open block collections with
the innermost first, whether a key may start here, and for each depth of flow collections
what may be a key. -/
structure TokenStream where
  cursor : Cursor
  latest : List Token
  flowDepth : Nat
  columns : List Nat
  allowsKey : Bool
  candidates : List (Nat × KeyCandidate)

namespace TokenStream

def start (text : List Char) : TokenStream :=
  ⟨Cursor.start text, [], 0, [], true, []⟩

def inFlow (s : TokenStream) : Bool :=
  s.flowDepth ≠ 0

def indent (s : TokenStream) : Int :=
  match s.columns with
  | [] => -1
  | column :: _ => column

def emit (s : TokenStream) (t : Token) : TokenStream :=
  { s with latest := t :: s.latest }

def emitTo (s : TokenStream) (t : Token) (c : Cursor) : TokenStream :=
  { s with latest := t :: s.latest, cursor := c }

def insertAt (s : TokenStream) (number : Nat) (tokens : List Token) : TokenStream :=
  let behind := s.latest.length - number
  { s with latest := s.latest.take behind ++ tokens.reverse ++ s.latest.drop behind }

/-!
## Indentation
-/

def closeBlocks (s : TokenStream) (column : Int) : TokenStream :=
  if s.inFlow then s
  else
    let closed := s.columns.takeWhile (fun (n : Nat) => column < n)
    { s with
      columns := s.columns.drop closed.length
      latest := List.replicate closed.length Token.blockEnd ++ s.latest }

def opensBlock (s : TokenStream) (column : Nat) : Bool :=
  s.indent < column

def openBlock (s : TokenStream) (t : Token) : TokenStream :=
  if s.opensBlock s.cursor.column then
    { s.emit t with columns := s.cursor.column :: s.columns }
  else s

/-!
## Candidates for keys
-/

def isStale (s : TokenStream) (k : KeyCandidate) : Bool :=
  k.place.line ≠ s.cursor.line || 1024 < s.cursor.index - k.place.index

def dropStale (s : TokenStream) : Outcome TokenStream :=
  if s.candidates.any (fun e => s.isStale e.2 && e.2.isRequired) then reject
  else .ok { s with candidates := s.candidates.filter (fun e => !s.isStale e.2) }

def dropCandidate (s : TokenStream) : Outcome TokenStream :=
  match Entries.get? s.candidates s.flowDepth with
  | some k =>
      if k.isRequired then reject
      else .ok { s with candidates := Entries.erase s.candidates s.flowDepth }
  | none => .ok s

def noteCandidate (s : TokenStream) : Outcome TokenStream :=
  if s.allowsKey then do
    let required := !s.inFlow && s.indent = s.cursor.column
    let s ← s.dropCandidate
    return { s with
      candidates := (s.flowDepth, ⟨s.latest.length, required, s.cursor⟩) :: s.candidates }
  else .ok s

/-!
## Between tokens
-/

def skipSpace : Nat → TokenStream → TokenStream
  | 0, s => s
  | fuel + 1, s =>
      let c := s.cursor.skipBlanks.skipComment
      match c.peek with
      | some x =>
          if isBreak x then
            skipSpace fuel { s with cursor := c.takeBreak.2, allowsKey := s.allowsKey || !s.inFlow }
          else { s with cursor := c }
      | none => { s with cursor := c }

def toNextToken (s : TokenStream) : TokenStream :=
  let c := if s.cursor.index = 0 && s.cursor.sees byteOrderMark then s.cursor.next else s.cursor
  skipSpace (c.rest.length + 1) { s with cursor := c }

/-!
## Tokens of one kind
-/

def takeStreamEnd (s : TokenStream) : Outcome TokenStream := do
  let s ← (s.closeBlocks (-1)).dropCandidate
  return { s.emit .streamEnd with allowsKey := false, candidates := [] }

def takeDirective (s : TokenStream) : Outcome TokenStream := do
  let s ← (s.closeBlocks (-1)).dropCandidate
  let (d, c) ← s.cursor.takeDirective
  return { s.emitTo (.directive d) c with allowsKey := false }

def takeSeparator (s : TokenStream) (t : Token) : Outcome TokenStream := do
  let s ← (s.closeBlocks (-1)).dropCandidate
  return { s.emitTo t (s.cursor.advance 3) with allowsKey := false }

def takeFlowStart (s : TokenStream) (t : Token) : Outcome TokenStream := do
  let s ← s.noteCandidate
  return { s.emitTo t s.cursor.next with flowDepth := s.flowDepth + 1, allowsKey := true }

def takeFlowEnd (s : TokenStream) (t : Token) : Outcome TokenStream := do
  let s ← s.dropCandidate
  return { s.emitTo t s.cursor.next with flowDepth := s.flowDepth - 1, allowsKey := false }

def takeFlowEntry (s : TokenStream) : Outcome TokenStream := do
  let s ← s.dropCandidate
  return { s.emitTo .flowEntry s.cursor.next with allowsKey := true }

def startBlock (s : TokenStream) (t : Token) : Outcome TokenStream :=
  if s.inFlow then .ok s
  else if s.allowsKey then .ok (s.openBlock t)
  else reject

def takeBlockEntry (s : TokenStream) : Outcome TokenStream := do
  let s ← (← s.startBlock .blockSequenceStart).dropCandidate
  return { s.emitTo .blockEntry s.cursor.next with allowsKey := true }

def takeKey (s : TokenStream) : Outcome TokenStream := do
  let s ← (← s.startBlock .blockMappingStart).dropCandidate
  return { s.emitTo .key s.cursor.next with allowsKey := !s.inFlow }

def confirmKey (s : TokenStream) (k : KeyCandidate) : TokenStream :=
  let s := { s with candidates := Entries.erase s.candidates s.flowDepth }
  if !s.inFlow && s.opensBlock k.place.column then
    { s.insertAt k.number [.blockMappingStart, .key] with
      columns := k.place.column :: s.columns }
  else s.insertAt k.number [.key]

def takeValue (s : TokenStream) : Outcome TokenStream :=
  match Entries.get? s.candidates s.flowDepth with
  | some k =>
      let s := s.confirmKey k
      .ok { s.emitTo .value s.cursor.next with allowsKey := false }
  | none => do
      let s ← (← s.startBlock .blockMappingStart).dropCandidate
      return { s.emitTo .value s.cursor.next with allowsKey := !s.inFlow }

def takeKeyStart (s : TokenStream) (read : Cursor → Outcome (Token × Cursor)) :
    Outcome TokenStream := do
  let s ← s.noteCandidate
  let (t, c) ← read s.cursor
  return { s.emitTo t c with allowsKey := false }

def takeBlockScalar (s : TokenStream) (folded : Bool) : Outcome TokenStream := do
  let s ← s.dropCandidate
  let (text, c) ← s.cursor.takeBlock folded s.indent
  return { s.emitTo (.scalar text false) c with allowsKey := true }

def takePlain (s : TokenStream) : Outcome TokenStream := do
  let s ← s.noteCandidate
  let plain := s.cursor.takePlain s.inFlow s.indent
  return { s.emitTo (.scalar (String.ofList plain.contents) true) plain.cursor with
    allowsKey := plain.passedBreak }

def startsPlain (s : TokenStream) (x : Char) : Bool :=
  !(endsSpaced (some x) || "-?:,[]\x7b\x7d#&*!|>'\"%@\x60".toList.contains x) ||
    (!endsSpaced (s.cursor.peekAt 1) && (x = '-' || (!s.inFlow && (x = '?' || x = ':'))))

/-- Whether a mark that only counts before a blank counts here; inside flow collections it
always does. -/
def marks (s : TokenStream) : Bool :=
  s.inFlow || endsSpaced (s.cursor.peekAt 1)

/-!
## The whole stream
-/

def takeTokenAt (s : TokenStream) (x : Char) : Outcome TokenStream :=
  let c := s.cursor
  if x = '%' && c.column = 0 then s.takeDirective
  else if c.column = 0 && c.seesSeparator '-' then s.takeSeparator .documentStart
  else if c.column = 0 && c.seesSeparator '.' then s.takeSeparator .documentEnd
  else if x = '[' then s.takeFlowStart .flowSequenceStart
  else if x = '\x7b' then s.takeFlowStart .flowMappingStart
  else if x = ']' then s.takeFlowEnd .flowSequenceEnd
  else if x = '\x7d' then s.takeFlowEnd .flowMappingEnd
  else if x = ',' then s.takeFlowEntry
  else if x = '-' && endsSpaced (c.peekAt 1) then s.takeBlockEntry
  else if x = '?' && s.marks then s.takeKey
  else if x = ':' && s.marks then s.takeValue
  else if x = '*' then
    s.takeKeyStart (fun c => do let (name, c) ← c.takeAnchor; return (.alias name, c))
  else if x = '&' then
    s.takeKeyStart (fun c => do let (name, c) ← c.takeAnchor; return (.anchor name, c))
  else if x = '!' then
    s.takeKeyStart (fun c => do let (tag, c) ← c.takeTag; return (.tag tag, c))
  else if x = '|' && !s.inFlow then s.takeBlockScalar false
  else if x = '>' && !s.inFlow then s.takeBlockScalar true
  else if x = '\'' || x = '"' then
    s.takeKeyStart (fun c => do let (text, c) ← c.takeQuoted x; return (.scalar text false, c))
  else if s.startsPlain x then s.takePlain
  else reject

def takeToken (s : TokenStream) : Outcome TokenStream := do
  let s ← s.dropStale
  let s ← s.toNextToken.dropStale
  let s := s.closeBlocks s.cursor.column
  match s.cursor.peek with
  | none => s.takeStreamEnd
  | some x => s.takeTokenAt x

/-- The tokens that are settled: those in front of the first that may still turn out to be a
key. -/
def settled (s : TokenStream) : List Token :=
  let waiting := (s.candidates.filter (fun e => !s.isStale e.2)).map (fun e => e.2.number)
  s.latest.reverse.take (waiting.foldl min s.latest.length)

def finish : Nat → TokenStream → List Token × Option Failure
  | 0, s => (s.settled, some .malformed)
  | fuel + 1, s =>
      match s.takeToken with
      | .error failure => (s.settled, some failure)
      | .ok next =>
          match next.latest with
          | .streamEnd :: _ => (next.latest.reverse, none)
          | _ => finish fuel next

def ofText (text : List Char) : List Token × Option Failure :=
  if text.all isAllowed then finish (text.length + 2) (start text) else ([], some .malformed)

end TokenStream
end Yaml
end ContentSchema
