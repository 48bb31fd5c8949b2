import ContentSchema.Fault
import ContentSchema.Text.Blank

/-!
# Declared sources

The sources of a collection can be declared as a single source or as several.  A source is a
selector, a text that is a file pattern, or a mapping with exactly one of the keys `pattern`
and `include`.
-/

namespace ContentSchema
namespace Selector

def nameOf (v : Value) : Answer String :=
  match v with
  | .text s => if Text.isBlankText s then refuse (.blankSource v) else .ok s
  | _ => refuse (.blankSource v)

def ofParts (pattern collection : Value) : Answer Selector :=
  match pattern.isNull, collection.isNull with
  | false, true => do return .files (← nameOf pattern)
  | true, false => do return .included (← nameOf collection)
  | _, _ => refuse .ambiguousSource

def strayKeys (entries : List (Value × Value)) : List Value :=
  (Entries.keys entries).filter (fun key => !(key == .text "pattern" || key == .text "include"))

def ofValue (v : Value) : Answer Selector :=
  match v with
  | .selector s => .ok s
  | .text _ => ofParts v .null
  | .mapping entries =>
      let stray := strayKeys entries
      if stray.isEmpty then
        ofParts ((Value.field? entries "pattern").getD .null)
          ((Value.field? entries "include").getD .null)
      else do
        let keys ← stray.mapM (fun key => orFault .wrongType key.text?)
        refuse (.unknownSourceKeys (keys.mergeSort (fun a b => a ≤ b)))
  | _ => refuse (.notASource v)

def listOfValue (v : Value) : Answer (List Selector) := do
  let declared ←
    match v with
    | .text _ => pure [v]
    | .mapping _ => pure [v]
    | .selector _ => pure [v]
    | _ => orFault .wrongType v.elements?
  let selectors ← declared.mapM ofValue
  if selectors.isEmpty then refuse .noSources else return selectors

end Selector
end ContentSchema
