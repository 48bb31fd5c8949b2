import ContentSchema.Calendar.IsoReading
import ContentSchema.Value.Basic

/-!
# Dates in content

A date in content is a calendar value already, or a text in the standard form.  A text
without a time is a day, one with a time is a moment, and a final `Z` means universal time.
Blanks around the text are not accepted.
-/

namespace ContentSchema
namespace Value

/-- A final `Z` of either case, spelled as a zero offset. -/
def spellUtc (cs : List Char) : List Char :=
  match cs.reverse with
  | 'Z' :: rest => rest.reverse ++ ['+', '0', '0', ':', '0', '0']
  | 'z' :: rest => rest.reverse ++ ['+', '0', '0', ':', '0', '0']
  | _ => cs

def ofDateChars? (cs : List Char) : Option Value :=
  if cs.isEmpty || cs != Text.trimBlanks cs then none
  else
    match IsoReading.date? cs with
    | some d => some (date d)
    | none => (IsoReading.moment? (spellUtc cs)).map dateTime

def toDate? : Value → Option Value
  | date d => some (date d)
  | dateTime t => some (dateTime t)
  | text s => ofDateChars? s.toList
  | _ => none

end Value
end ContentSchema
