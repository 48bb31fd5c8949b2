import ContentSchema.Validation.FieldError

/-!
# Events

What the library tells a log while it works: collections that are registered, checked and
loaded, documents that cannot be read, and documents that are rejected with their field
errors.
-/

namespace ContentSchema

inductive Event
  | registered (name kind : String) (sources fields : List String)
  | frozen (collections : List String)
  | loading (collection contentDir : String)
  | checked (collection : String) (documents invalid errors : Nat)
  | unreadable (document reason : String)
  | rejected (document : String) (errors : List FieldError)

/-- The form in which a log takes an event: an operation, an information or a warning with
details, or the field errors of a document. -/
inductive LogEntry
  | operation (name : String) (details : Value)
  | info (message : String) (details : Value)
  | warning (message : String) (details : Value)
  | fieldErrors (document : String) (errors : List FieldError)

namespace Event

def details (entries : List (String × Value)) : Value :=
  .mapping (entries.map (fun e => (.text e.1, e.2)))

def textList (texts : List String) : Value :=
  .list (texts.map Value.text)

def entry : Event → LogEntry
  | registered name kind sources fields =>
      .operation "register_collection" (details [("name", .text name), ("kind", .text kind),
        ("sources", textList sources), ("fields", textList fields)])
  | frozen collections =>
      .info "Collection registry frozen" (details [("collections", textList collections)])
  | loading collection contentDir =>
      .operation "load_collection"
        (details [("collection", .text collection), ("content_dir", .path contentDir)])
  | checked collection documents invalid errors =>
      .operation "validate_collection" (details [("collection", .text collection),
        ("documents", .int documents), ("invalid", .int invalid), ("errors", .int errors)])
  | unreadable document reason =>
      .warning "Unreadable document"
        (details [("document", .text document), ("reason", .text reason)])
  | rejected document errors => .fieldErrors document errors

end Event
end ContentSchema
