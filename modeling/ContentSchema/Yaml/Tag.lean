import ContentSchema.Yaml.Timestamp

/-!
# Tags

The tag of a node says what kind of value it is.  A plain scalar without a tag gets the one
that its form calls for; whatever has no special form is a text.
-/

namespace ContentSchema
namespace Yaml

inductive Tag
  | null
  | bool
  | int
  | float
  | timestamp
  | binary
  | text
  | sequence
  | mapping
  | set
  | pairs
  | merge
  | default
  | unknown
deriving DecidableEq

namespace Tag

def standard : String := "tag:yaml.org,2002:"

def names : List (String × Tag) :=
  [("null", null), ("bool", bool), ("int", int), ("float", float), ("timestamp", timestamp),
    ("binary", binary), ("str", text), ("seq", sequence), ("map", mapping), ("set", set),
    ("omap", pairs), ("pairs", pairs), ("merge", merge), ("value", default)]

def ofName (name : String) : Tag :=
  ((names.find? (fun e => standard ++ e.1 == name)).map Prod.snd).getD unknown

/-!
## Forms of plain scalars
-/

def withoutSign (cs : List Char) : List Char :=
  match cs with
  | '+' :: rest => rest
  | '-' :: rest => rest
  | _ => cs

def isGrouped (p : Char → Bool) (c : Char) : Bool :=
  p c || c = '_'

def areGrouped (p : Char → Bool) (cs : List Char) : Bool :=
  !cs.isEmpty && cs.all (isGrouped p)

def isNumber (cs : List Char) : Bool :=
  match cs with
  | c :: rest => Text.isDigit c && rest.all (isGrouped Text.isDigit)
  | [] => false

def isLargeNumber (cs : List Char) : Bool :=
  isNumber cs && cs.head? ≠ some '0'

/-- A digit of base sixty: one or two decimal digits, less than sixty. -/
def isSixtieth (cs : List Char) : Bool :=
  !cs.isEmpty && cs.length ≤ 2 && cs.all Text.isDigit && Text.numberOf 10 cs < 60

def isSexagesimal (p : List Char → Bool) (cs : List Char) : Bool :=
  match cs.splitOn ':' with
  | first :: second :: rest => p first && (second :: rest).all isSixtieth
  | _ => false

def isWholeNumber (cs : List Char) : Bool :=
  match cs with
  | ['0'] => true
  | '0' :: 'b' :: digits => areGrouped (fun c => c = '0' || c = '1') digits
  | '0' :: 'x' :: digits => areGrouped Text.isHexDigit digits
  | '0' :: digits => areGrouped (fun c => Text.isDigit c && c < '8') digits
  | _ => isLargeNumber cs || isSexagesimal isLargeNumber cs

def isExponent (cs : List Char) : Bool :=
  match cs with
  | [] => true
  | e :: sign :: digits =>
      (e = 'e' || e = 'E') && (sign = '+' || sign = '-') && !digits.isEmpty && digits.all Text.isDigit
  | _ => false

def isFraction (cs : List Char) : Bool :=
  isExponent (cs.dropWhile (isGrouped Text.isDigit))

def isPointed (cs : List Char) : Bool :=
  let whole := cs.takeWhile (· ≠ '.')
  match cs.drop whole.length with
  | _ :: fraction =>
      isNumber whole && isFraction fraction ||
        isSexagesimal isNumber whole && fraction.all (isGrouped Text.isDigit)
  | [] => false

def isBarePointed (cs : List Char) : Bool :=
  match cs with
  | '.' :: c :: rest => Text.isDigit c && isFraction rest
  | _ => false

def isFloat (cs : List Char) : Bool :=
  let unsigned := withoutSign cs
  isPointed unsigned || isBarePointed cs ||
    [".inf", ".Inf", ".INF"].contains (String.ofList unsigned) ||
    [".nan", ".NaN", ".NAN"].contains (String.ofList cs)

def truthWords : List String :=
  ["yes", "Yes", "YES", "no", "No", "NO", "true", "True", "TRUE", "false", "False", "FALSE",
    "on", "On", "ON", "off", "Off", "OFF"]

def nullWords : List String := ["~", "null", "Null", "NULL"]

def ofForm (contents : String) : Tag :=
  let cs := Text.withoutFinalNewline contents.toList
  let word := String.ofList cs
  if contents.isEmpty || nullWords.contains word then null
  else if truthWords.contains word then bool
  else if isFloat cs then float
  else if isWholeNumber (withoutSign cs) then int
  else if word == "<<" then merge
  else if word == "=" then default
  else if ["!", "&", "*"].contains word then unknown
  else
    match Timestamp.read? contents with
    | some t => if t.isImplicit then timestamp else text
    | none => text

end Tag
end Yaml
end ContentSchema
