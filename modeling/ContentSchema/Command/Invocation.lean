import ContentSchema.Command.Options

/-!
# Invocations

What the program is asked to do: list the collections, print the schema of one, or validate
the documents of some; with options for the content folder, the folder of the logs and the
amount of output.
-/

namespace ContentSchema
namespace Command

/-- A command with its arguments; without names all collections are validated. -/
inductive Request
  | collections
  | schema (name : String)
  | validate (names : List String)
deriving DecidableEq

structure Invocation where
  contentDir : String
  logDir : String
  isVerbose : Bool
  request : Request
deriving DecidableEq

namespace Invocation

def options : List OptionForm :=
  [⟨"content-dir", none, true⟩, ⟨"log-dir", none, true⟩, ⟨"verbose", some 'v', false⟩]

def validateOptions : List OptionForm :=
  [⟨"collection", some 'c', true⟩]

def contentVariable : String := "FOLIO_CONTENT_DIR"

def usualContentDir : String := "content"

def usualLogDir : String := "logs"

def finished (arguments : List String) (request : Request) : Except UsageError Request :=
  if arguments.isEmpty then .ok request else .error (.extraArguments arguments)

def requestOf (command : String) (arguments : List String) : Except UsageError Request := do
  match command with
  | "collections" =>
      let p ← parse [] false arguments.length arguments
      finished p.arguments .collections
  | "schema" =>
      let p ← parse [] false arguments.length arguments
      match p.arguments with
      | name :: rest => finished rest (.schema name)
      | [] => .error (.missingArgument "NAME")
  | "validate" =>
      let p ← parse validateOptions false arguments.length arguments
      finished p.arguments (.validate (p.all "collection"))
  | _ => .error (.noSuchCommand command)

/-- The invocation that arguments make; the content folder may be named by the environment,
where an empty name counts as none. -/
def read (arguments : List String) (setting? : Option String) : Except UsageError Invocation := do
  let p ← parse options true arguments.length arguments
  let named := setting?.filter (fun s => !s.isEmpty)
  match p.arguments with
  | command :: rest =>
      return {
        contentDir := (p.last? "content-dir").getD (named.getD usualContentDir)
        logDir := (p.last? "log-dir").getD usualLogDir
        isVerbose := p.has "verbose"
        request := ← requestOf command rest }
  | [] => .error .missingCommand

end Invocation
end Command
end ContentSchema
