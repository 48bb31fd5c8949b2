import ContentSchema.Validation.Report

/-!
# Report text

The lines that show a report on a terminal: first what could not be read, then each failed
document with its errors, on demand each document that passed, and at last the counts.
-/

namespace ContentSchema
namespace ReportText

def mark (success : Bool) : String :=
  if success then "✅" else "❌"

def unreadableLines (entry : String × String) : List String :=
  [mark false ++ " " ++ entry.1, "   " ++ entry.2]

def resultLines (verbose : Bool) (entry : DocumentResult) : List String :=
  if entry.result.ok then
    if verbose then [mark true ++ " " ++ entry.document] else []
  else
    (mark false ++ " " ++ entry.document) :: entry.result.errors.map (fun e => "   " ++ e.text)

def statusLine (name : String) (report : ValidationReport) : String :=
  mark report.isHealthy ++ " " ++ name ++ ": " ++ toString report.documentsChecked ++
    " document(s), " ++ toString report.documentsWithErrors ++ " invalid, " ++
    toString report.totalErrors ++ " error(s)" ++
    (if report.unreadable.isEmpty then ""
      else ", " ++ toString report.unreadable.length ++ " unreadable")

def lines (name : String) (report : ValidationReport) (verbose : Bool) : List String :=
  report.unreadable.flatMap unreadableLines ++
    report.results.flatMap (resultLines verbose) ++ [statusLine name report]

def text (name : String) (report : ValidationReport) (verbose : Bool) : String :=
  "\n".intercalate (lines name report verbose)

end ReportText
end ContentSchema
