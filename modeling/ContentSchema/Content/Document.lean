import ContentSchema.Collection.Descriptor
import ContentSchema.Content.Frontmatter
import ContentSchema.Content.Tree
import ContentSchema.Text.LetterCase
import ContentSchema.Yaml.Reader

/-!
# Content files

Reading one file into a raw record.  A YAML file is data as a whole; a Markdown file has data
in its frontmatter, and the record of a page takes in the body unless the data set one.
-/

namespace ContentSchema

structure RawDocument where
  location : Location
  data : List (Value × Value)
  body : Option String

namespace RawDocument

inductive Format
  | yaml
  | markdown
deriving DecidableEq

def Format.ofSuffix? (suffix : List Char) : Option Format :=
  let name := String.ofList (suffix.map Text.lowerCase)
  if [".yml", ".yaml"].contains name then some yaml
  else if [".md", ".markdown"].contains name then some markdown
  else none

def textOf (l : Location) (found : Option FileTree) : Answer (List Char) :=
  let unavailable (detail : String) : Answer (List Char) :=
    .error (.unreadable l.text (.unavailable detail))
  if l.text.toList.contains (Char.ofNat 0) then .error .badValue
  else
    match found with
    | none => unavailable "no such file"
    | some (.folder _) => unavailable "it is a folder"
    | some (.file contents) =>
        match String.fromUTF8? ⟨contents.toArray⟩ with
        | some text => .ok (Text.normalizeNewlines text.toList)
        | none => unavailable "the text is not encoded in UTF-8"

variable [YamlReader]

def entriesOf (l : Location) (text : List Char) : Answer (List (Value × Value)) :=
  match YamlReader.read text with
  | .ok .null => .ok []
  | .ok (.mapping entries) => .ok entries
  | .ok value => .error (.unreadable l.text (.notAMapping value.typeName))
  | .error .malformed => .error (.unreadable l.text .invalidYaml)
  | .error (.stopped fault) => .error fault

/-- The entries with a body, unless they have one or the body is empty. -/
def withBody (entries : List (Value × Value)) (body : List Char) : List (Value × Value) :=
  let key : Value := .text "body"
  if body.isEmpty || Entries.has entries key then entries
  else entries ++ [(key, .text (String.ofList body))]

/-- The raw record of a file.  What the record is for is asked only where it matters: for a
body. -/
def read (l : Location) (found : Option FileTree) (kind : Answer CollectionKind) :
    Answer RawDocument := do
  let text ← textOf l found
  match Format.ofSuffix? l.suffix with
  | some .yaml => return ⟨l, ← entriesOf l text, none⟩
  | some .markdown =>
      let sections := Frontmatter.split text
      let entries ←
        if sections.frontmatter.isEmpty then pure [] else entriesOf l sections.frontmatter
      let entries := if (← kind) = .page then withBody entries sections.body else entries
      return ⟨l, entries, some (String.ofList sections.body)⟩
  | none => .error (.unreadable l.text .unsupportedSuffix)

end RawDocument
end ContentSchema
