import ContentSchema.Text.Blank
import ContentSchema.Text.Lines

/-!
# Mail addresses

A mail address is a name, an at sign and a domain without blanks and further at signs; the
domain has a point that is neither its first nor its last character.  One line feed at the
end is passed over.
-/

namespace ContentSchema
namespace Address

def isDomain (cs : List Char) : Bool :=
  (cs.dropLast.drop 1).contains '.'

def isEmail (text : String) : Bool :=
  let cs := Text.withoutFinalNewline text.toList
  let name := cs.takeWhile (· ≠ '@')
  let domain := (cs.drop name.length).drop 1
  !cs.any Text.isBlank && !name.isEmpty && !domain.contains '@' && isDomain domain

end Address
end ContentSchema
