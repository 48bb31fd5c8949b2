import ContentSchema.Calendar.IsoText
import ContentSchema.Text.Quoted
import ContentSchema.Value.Basic

/-!
# Values in messages

A value has a literal form, which shows its type, and a plain form: a text as it is, a
calendar value in the standard way, and everything else by its literal form.
-/

namespace ContentSchema

def commaSeparated (texts : List String) : String :=
  ", ".intercalate texts

namespace Value

/-!
## Calendar values
-/

def timeArguments (t : TimeOfDay) : List String :=
  if t.microsecond ≠ 0 then
    [toString t.hour, toString t.minute, toString t.second, toString t.microsecond]
  else if t.second ≠ 0 then [toString t.hour, toString t.minute, toString t.second]
  else [toString t.hour, toString t.minute]

def spanLiteral (microseconds : Int) : String :=
  let days := Int.fdiv microseconds microsecondsPerDay
  let rest := Int.fmod microseconds microsecondsPerDay
  let seconds := Int.fdiv rest 1000000
  let micros := Int.fmod rest 1000000
  let named (name : String) (n : Int) : List String :=
    if n = 0 then [] else [name ++ "=" ++ toString n]
  let arguments := named "days" days ++ named "seconds" seconds ++ named "microseconds" micros
  "datetime.timedelta(" ++
    (if arguments.isEmpty then "0" else commaSeparated arguments) ++ ")"

def offsetArguments (offset : Option Offset) : List String :=
  match offset with
  | none => []
  | some o =>
      if o.microseconds = 0 then ["tzinfo=datetime.timezone.utc"]
      else ["tzinfo=datetime.timezone(" ++ spanLiteral o.microseconds ++ ")"]

def dateArguments (d : Date) : List String :=
  [toString d.year, toString d.month, toString d.day]

/-!
## Literals
-/

def selectorLiteral : Selector → String
  | .files pattern => "SourcePattern(pattern=" ++ Text.quoted pattern ++ ", include=None)"
  | .included name => "SourcePattern(pattern=None, include=" ++ Text.quoted name ++ ")"

def tupleLiteral : List String → String
  | [single] => "(" ++ single ++ ",)"
  | items => "(" ++ commaSeparated items ++ ")"

def braced (texts : List String) : String :=
  "\x7b" ++ commaSeparated texts ++ "\x7d"

mutual

def literal : Value → String
  | null => "None"
  | bool b => if b then "True" else "False"
  | int n => toString n
  | float x => x.text
  | text s => Text.quoted s
  | list items => "[" ++ commaSeparated (literals items) ++ "]"
  | tuple items => tupleLiteral (literals items)
  | mapping entries => braced (entryLiterals entries)
  | set items => if items.isEmpty then "set()" else braced (literals items)
  | frozenSet items =>
      if items.isEmpty then "frozenset()" else "frozenset(" ++ braced (literals items) ++ ")"
  | date d => "datetime.date(" ++ commaSeparated (dateArguments d) ++ ")"
  | dateTime t =>
      "datetime.datetime(" ++
        commaSeparated (dateArguments t.date ++ timeArguments t.time ++ offsetArguments t.offset) ++
        ")"
  | time t =>
      "datetime.time(" ++ commaSeparated (timeArguments t.time ++ offsetArguments t.offset) ++ ")"
  | bytes contents => Text.quotedBytes contents
  | selector s => selectorLiteral s
  | path location => "PosixPath(" ++ Text.quoted location ++ ")"

def literals : List Value → List String
  | [] => []
  | v :: rest => literal v :: literals rest

def entryLiterals : List (Value × Value) → List String
  | [] => []
  | (key, v) :: rest => (literal key ++ ": " ++ literal v) :: entryLiterals rest

end

def plain : Value → String
  | text s => s
  | date d => d.isoText
  | dateTime t => t.spacedText
  | time t => t.isoText
  | selector s => s.text
  | path location => location
  | v => v.literal

end Value
end ContentSchema
