import ContentSchema.Command.Run
import Std.Time.Format

/-!
# The program

Reads the content folder, runs the command, and writes what comes out of it to the standard
streams and to the logs.
-/

namespace ContentSchema
namespace Command

/-- The file or folder at a location, with everything below it. -/
partial def readTree (location : String) : IO FileTree := do
  let place := (← IO.currentDir) / location
  if ← place.isDir then
    let entries ← (← place.readDir).toList.mapM (fun entry => do
      return (entry.fileName, ← readTree (location ++ "/" ++ entry.fileName)))
    return .folder entries
  else
    return .file (← IO.FS.readBinFile place).toList

def placeAt (location : String) : IO (Option Place) := do
  if ← ((← IO.currentDir) / location).pathExists then
    return some (.top (← readTree location))
  else
    return none

def writeRecords (logDir time : String) (records : List LogRecord) : IO Unit := do
  let folder := logDir ++ "/operations"
  IO.FS.createDirAll folder
  let append (name : String) (channel : LogChannel) : IO Unit := do
    let file ← IO.FS.Handle.mk (folder ++ "/" ++ name) .append
    for text in LogRecord.texts component channel records do
      file.putStrLn (time ++ " - " ++ text)
  append (component ++ ".log") .operations
  append "errors.log" .errors

def writeOutput (time : String) (o : Output) : IO Unit := do
  match o with
  | .out text => IO.print text
  | .err text => IO.eprint text
  | .record r => if r.isOnConsole then IO.eprintln (time ++ " - " ++ r.text component)

def writeSession (logDir : String) (s : Session) : IO Unit := do
  let now ← Std.Time.PlainDateTime.now
  writeRecords logDir (now.format "uuuu-MM-dd HH:mm:ss") s.records
  s.outputs.forM (writeOutput (now.format "HH:mm:ss"))

def finish (logDir : String) (answer : Answer Session) : IO UInt32 := do
  match answer with
  | .ok s => writeSession logDir s
  | .error fault => IO.eprint (Trace.stopped fault.problem).text
  return (exitStatus answer).toUInt32

def runProgram (arguments : List String) : IO UInt32 := do
  match Invocation.read arguments (← IO.getEnv Invocation.contentVariable) with
  | .error e => finish Invocation.usualLogDir (.ok (misused e))
  | .ok i => finish i.logDir (run i (← placeAt i.contentDir))

end Command
end ContentSchema

def main (arguments : List String) : IO UInt32 :=
  ContentSchema.Command.runProgram arguments
