import ContentSchema.Text.Ranges

/-!
# Blank characters

Whitespace of every script, and trimming it from the two ends of a text.  A text is blank
when trimming leaves nothing.
-/

namespace ContentSchema
namespace Text

/-!
## The class
-/

def blankRanges : CodeRanges :=
  [(0x09, 0x0D), (0x1C, 0x20), (0x85, 0x85), (0xA0, 0xA0), (0x1680, 0x1680),
    (0x2000, 0x200A), (0x2028, 0x2029), (0x202F, 0x202F), (0x205F, 0x205F), (0x3000, 0x3000)]

def isBlank (c : Char) : Bool :=
  inRanges blankRanges c

/-!
## Trimming
-/

def dropTrailing (p : Char → Bool) (cs : List Char) : List Char :=
  (cs.reverse.dropWhile p).reverse

def trimBlanks (cs : List Char) : List Char :=
  dropTrailing isBlank (cs.dropWhile isBlank)

def isBlankText (text : String) : Bool :=
  text.toList.all isBlank

end Text
end ContentSchema
