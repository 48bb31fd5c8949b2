import ContentSchema.Fault
import ContentSchema.Log.Event
import ContentSchema.Value.Json

/-!
# Log records

What is written to the logs of a component.  Its activity and its errors go to two channels:
everything of the first goes to the main log and what is a warning or worse to the console as
well, and the second has a log of its own.  Details are written as JSON on one line.
-/

namespace ContentSchema

/-!
## Records
-/

inductive LogLevel
  | debug
  | info
  | warning
  | error
deriving DecidableEq

namespace LogLevel

def name : LogLevel → String
  | debug => "DEBUG"
  | info => "INFO"
  | warning => "WARNING"
  | error => "ERROR"

def isAlarming : LogLevel → Bool
  | warning => true
  | error => true
  | _ => false

end LogLevel

inductive LogChannel
  | operations
  | errors
deriving DecidableEq

def LogChannel.name : LogChannel → String
  | operations => "operations"
  | errors => "errors"

structure LogRecord where
  channel : LogChannel
  level : LogLevel
  message : String
deriving DecidableEq

namespace LogRecord

def operation (name : String) (details : Value) : LogRecord :=
  let shown : Value := if details.truthy then details else .mapping []
  ⟨.operations, .info, "OPERATION - " ++ name ++ ": " ++ shown.json⟩

def note (level : LogLevel) (message : String) (details : Value) : LogRecord :=
  let shown := if details.truthy then ": " ++ details.json else ""
  ⟨.operations, level, level.name ++ " - " ++ message ++ shown⟩

def fieldErrors (document : String) (errors : List FieldError) : LogRecord :=
  let payload : Value := .list (errors.map FieldError.toValue)
  ⟨.operations, .warning, "INVALID - " ++ document ++ ": " ++ payload.json⟩

def ofEntry : LogEntry → LogRecord
  | .operation name details => operation name details
  | .info message details => note .info message details
  | .warning message details => note .warning message details
  | .fieldErrors document errors => fieldErrors document errors

def ofEvent (e : Event) : LogRecord :=
  ofEntry e.entry

end LogRecord

/-- Whether a record can be made of the entry: its details have to be written as JSON. -/
def LogEntry.isWritable : LogEntry → Bool
  | operation _ details => details.isWritable
  | info _ details => details.isWritable
  | warning _ details => details.isWritable
  | fieldErrors _ errors => errors.all (fun e => e.toValue.isWritable)

namespace LogRecord

/-!
## Lines
-/

def text (component : String) (r : LogRecord) : String :=
  "folio." ++ component ++ "." ++ r.channel.name ++ " - " ++ r.level.name ++ " - " ++ r.message

def isOnConsole (r : LogRecord) : Bool :=
  r.channel = .operations && r.level.isAlarming

def texts (component : String) (channel : LogChannel) (records : List LogRecord) : List String :=
  (records.filter (fun r => r.channel = channel)).map (text component)

def console (component : String) (records : List LogRecord) : String :=
  String.join ((records.filter isOnConsole).map (fun r => r.text component ++ "\n"))

end LogRecord
end ContentSchema
