import ContentSchema.Collection.Site
import ContentSchema.Command.Invocation
import ContentSchema.Command.ReportText
import ContentSchema.Content.Loader
import ContentSchema.Log.Writing
import ContentSchema.Schema.JsonSchema
import ContentSchema.Text.Numeral
import ContentSchema.Yaml.Document

/-!
# Running commands

What a command prints and records, as a list of outputs in order, and its exit status.  The
work is done on the collections of the site.
-/

namespace ContentSchema
namespace Command

inductive Output
  | record (r : LogRecord)
  | out (text : String)
  | err (text : String)
deriving DecidableEq

structure Session where
  outputs : List Output
  exit : Nat
deriving DecidableEq

def component : String := "cli"

def logger : Logger :=
  .component component

def release : String := "1.0.0"

namespace Session

def stdout (s : Session) : String :=
  String.join (s.outputs.map (fun o =>
    match o with
    | .out text => text
    | _ => ""))

def stderr (s : Session) : String :=
  String.join (s.outputs.map (fun o =>
    match o with
    | .err text => text
    | .record r => LogRecord.console component [r]
    | .out _ => ""))

def records (s : Session) : List LogRecord :=
  s.outputs.filterMap (fun o =>
    match o with
    | .record r => some r
    | _ => none)

end Session

/-!
## Outputs
-/

def eventOutputs (events : List Event) : List Output :=
  events.map (fun e => .record (.ofEvent e))

def failed (outputs : List Output) (fault : Fault) (operation : String)
    (further : Circumstances) (isVerbose : Bool) : Session :=
  let p := fault.problem
  let context := Logger.operationContext operation further
  let records := logger.commandRecords p context (.stopped p)
  let notice := logger.commandNotice p isVerbose (.stopped p)
  ⟨outputs ++ records.map Output.record ++ [.err (notice ++ "\n")], 1⟩

def refused (outputs : List Output) (message : String) : Session :=
  ⟨outputs ++ [.err ("Error: " ++ message ++ "\n")], 1⟩

def misused (e : UsageError) : Session :=
  ⟨[.err ("Error: " ++ e.message ++ "\n")], 2⟩

def ofCollection (name : Value) : Circumstances :=
  [(.text "collection", name)]

/-!
## Commands
-/

def collectionLine (c : Registered) : String :=
  Text.alignLeft 10 c.descriptor.name ++ " " ++ Text.alignLeft 5 c.descriptor.kind.name ++ " " ++
    Text.alignRight 3 (toString c.effective.fields.length) ++ " fields  " ++
    ", ".intercalate (c.descriptor.sources.map Selector.text) ++ "\n"

def runSchema (outputs : List Output) (r : Registry) (name : String) (isVerbose : Bool) :
    Answer Session := do
  match r.schemaFor name with
  | .ok schema =>
      let rendered ← schema.toJsonSchema true
      if rendered.isJson then return ⟨outputs ++ [.out (rendered.jsonLines ++ "\n")], 0⟩
      else .error .wrongType
  | .error fault => return failed outputs fault "schema" (ofCollection (.text name)) isVerbose

def invalidCount (reports : List (String × ValidationReport)) : Nat :=
  reports.foldl (fun n p => n + p.2.documentsWithErrors + p.2.unreadable.length) 0

def reportOutputs (reports : List (String × ValidationReport)) (isVerbose : Bool) : List Output :=
  reports.map (fun p => .out (ReportText.text p.1 p.2 isVerbose ++ "\n"))

variable [YamlReader]

def runValidate (outputs : List Output) (r : Registry) (folder : ContentFolder)
    (names : List String) (isVerbose : Bool) : Answer Session := do
  let isThere := (folder.place.map (fun p => p.tree.isFolder)).getD false
  if !isThere then
    return refused outputs ("Content directory not found: " ++ folder.location.text)
  else
    let work := (folder.loadEach r (if names.isEmpty then r.names else names)).writtenBy logger
    let outputs := outputs ++ [.out ("🔍 Validating content in " ++ folder.location.text ++ "\n\n")] ++
      eventOutputs work.events
    match work.outcome with
    | .ok loaded =>
        let reports := Entries.ofList loaded
        let outputs := outputs ++ reportOutputs reports isVerbose
        match invalidCount reports with
        | 0 => return ⟨outputs ++ [.out "\n✅ All documents valid\n"], 0⟩
        | n => return refused outputs ("Found " ++ toString n ++ " invalid document(s)")
    | .error fault =>
        match fault with
        | .unknownCollection name =>
            return failed outputs fault "validate" (ofCollection name) isVerbose
        | _ => .error fault

/-- Runs a request; `place` is what stands where the content folder is said to be. -/
def runRequest (i : Invocation) (place : Option Place) : Answer Session :=
  let folder : ContentFolder := ⟨Location.ofText i.contentDir, place⟩
  let work := Site.buildRegistry.writtenBy logger
  let outputs := eventOutputs work.events
  match work.outcome with
  | .error fault => .ok (failed outputs fault "build_registry" [] i.isVerbose)
  | .ok r =>
      match i.request with
      | .collections => .ok ⟨outputs ++ r.collections.map (fun c => .out (collectionLine c)), 0⟩
      | .schema name => runSchema outputs r name i.isVerbose
      | .validate names => runValidate outputs r folder names i.isVerbose

/-- Runs an invocation, unless a file stands where the content folder is said to be. -/
def run (i : Invocation) (place : Option Place) : Answer Session :=
  match place.map Place.tree with
  | some (.file _) => .ok (misused (.notAFolder i.contentDir))
  | _ => runRequest i place

/-- The status with which the program ends; a fault that no command handles ends it as well. -/
def exitStatus : Answer Session → Nat
  | .ok s => s.exit
  | .error _ => 1

end Command
end ContentSchema
