import ContentSchema.Schema.Builders

/-!
# Fragments

Sub-schemas that several collections of the site share: the heading of a section, a button,
an image, an author and a testimonial.  A fragment is an object schema that is embedded by
value, so a use that specialises it leaves the others alone.
-/

namespace ContentSchema
namespace Schema

/-!
## Declaring objects
-/

def orAbsent (s : Schema) : Schema :=
  s.withAttributes { s.attributes?.getD .fresh with isOptional := true }

def orElse (v : Value) (s : Schema) : Schema :=
  s.withAttributes { s.attributes?.getD .fresh with fallback := some v }

def withHint (name value : String) (s : Schema) : Schema :=
  s.withAttributes { s.attributes?.getD .fresh with
    metadata := [(.text "editor", .mapping [(.text name, .text value)])] }

def oneOf (texts : List String) : Schema :=
  enumeration .fresh (texts.map Value.text)

def record (fields : List (String × Schema)) : Schema :=
  object .fresh fields

def listOf (element : Schema) : Schema :=
  array .fresh (some element)

def filledString : Schema :=
  primitive .fresh .string [.nonEmpty]

/-!
## Site vocabulary
-/

namespace Fragment

def buttonColors : List String :=
  ["primary", "neutral", "success", "warning", "error", "info"]

def buttonSizes : List String := ["xs", "sm", "md", "lg", "xl"]

def buttonVariants : List String := ["solid", "outline", "subtle", "soft", "ghost", "link"]

def linkTargets : List String := ["_blank", "_self"]

/-!
## Fragments
-/

def baseFields : List (String × Schema) :=
  [("title", string), ("description", string)]

def base : Schema := record baseFields

def button : Schema :=
  record [
    ("label", string),
    ("icon", string.orAbsent),
    ("to", string.orAbsent),
    ("color", (oneOf buttonColors).orAbsent),
    ("size", (oneOf buttonSizes).orAbsent),
    ("variant", (oneOf buttonVariants).orAbsent),
    ("target", (oneOf linkTargets).orAbsent)]

def image : Schema :=
  record [("src", string.withHint "input" "media"), ("alt", string)]

def author : Schema :=
  record [
    ("name", string),
    ("description", string.orAbsent),
    ("username", string.orAbsent),
    ("twitter", string.orAbsent),
    ("to", string.orAbsent),
    ("avatar", image.orAbsent)]

def testimonial : Schema :=
  record [("quote", string), ("author", author)]

def all : List (String × Schema) :=
  [("base", base), ("button", button), ("image", image), ("author", author),
    ("testimonial", testimonial)]

end Fragment
end Schema
end ContentSchema
