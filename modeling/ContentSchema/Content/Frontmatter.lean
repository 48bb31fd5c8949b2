import ContentSchema.Text.Blank
import ContentSchema.Text.Lines

/-!
# Frontmatter

A Markdown text may start with a block of data between two fences, lines of three dashes.
What follows the second fence is the body, without blank lines at its start; a text without
a complete block is all body.
-/

namespace ContentSchema
namespace Frontmatter

structure Sections where
  frontmatter : List Char
  body : List Char
deriving DecidableEq

/-- A line of three dashes, blanks around them aside. -/
def isFence (line : List Char) : Bool :=
  Text.trimBlanks line = ['-', '-', '-']

def withoutLeadingBlanks (lines : List (List Char)) : List (List Char) :=
  lines.dropWhile (fun line => line.all Text.isBlank)

def sectionsOf? (lines : List (List Char)) : Option Sections :=
  let inner := lines.takeWhile (fun line => !isFence line)
  match lines.drop inner.length with
  | _ :: outer => some ⟨Text.joinLines inner, Text.joinLines (withoutLeadingBlanks outer)⟩
  | [] => none

def split (content : List Char) : Sections :=
  let whole : Sections := ⟨[], content⟩
  match Text.splitLines content with
  | first :: rest => if isFence first then (sectionsOf? rest).getD whole else whole
  | [] => whole

end Frontmatter
end ContentSchema
