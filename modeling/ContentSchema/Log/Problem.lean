import ContentSchema.Entries
import ContentSchema.Log.Record

/-!
# Problems

How a problem that ends a command is recorded in the log of errors and told to the user.  A
silent log records nothing and shows no trace.
-/

namespace ContentSchema

structure Problem where
  name : String
  message : String
deriving DecidableEq

def Fault.problem (f : Fault) : Problem :=
  ⟨f.name, f.message⟩

namespace Problem

def text (p : Problem) : String :=
  p.name ++ ": " ++ p.message

def notice (p : Problem) : String :=
  "❌ " ++ p.text

end Problem

inductive Trace
  | unknown
  | stopped (p : Problem)
deriving DecidableEq

def Trace.text : Trace → String
  | unknown => "NoneType: None\n"
  | stopped p => "Traceback (most recent call last):\n" ++ p.text ++ "\n"

abbrev Circumstances := List (Value × Value)

def circumstancesText (context : Circumstances) : String :=
  ", ".intercalate (context.map (fun e => e.1.plain ++ "=" ++ e.2.plain))

inductive Logger
  | silent
  | component (name : String)
deriving DecidableEq

namespace Logger

def keep (l : Logger) (records : List LogRecord) : List LogRecord :=
  match l with
  | silent => []
  | component _ => records

def problemRecords (p : Problem) (context : Circumstances) (trace : Trace) : List LogRecord :=
  let line (message : String) : LogRecord := ⟨.errors, .error, message⟩
  [line ("ERROR - " ++ p.text)] ++
    (if context.isEmpty then [] else [line ("Context: " ++ circumstancesText context)]) ++
    [line ("Traceback:\n" ++ trace.text)]

def usualContext : Circumstances :=
  [(.text "source", .text "cli")]

def commandRecords (l : Logger) (p : Problem) (context : Circumstances) (trace : Trace) :
    List LogRecord :=
  l.keep (problemRecords p (if context.isEmpty then usualContext else context) trace)

def commandNotice (l : Logger) (p : Problem) (showTrace : Bool) (trace : Trace) : String :=
  match l with
  | silent => p.notice
  | component _ => if showTrace then p.notice ++ "\n\n" ++ trace.text else p.notice

def operationContext (operation : String) (further : Circumstances) : Circumstances :=
  Entries.merge [(.text "operation", .text operation)] further

end Logger
end ContentSchema
