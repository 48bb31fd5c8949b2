import ContentSchema.Log.Journal
import ContentSchema.Validation.Result

/-!
# Reports

The outcomes of a batch of documents in order, with running counts of documents, of
documents with errors and of errors, and the documents that could not be read with the
reason for each.
-/

namespace ContentSchema

structure DocumentResult where
  document : String
  result : ValidationResult

structure ValidationReport where
  documentsChecked : Nat
  documentsWithErrors : Nat
  totalErrors : Nat
  results : List DocumentResult
  unreadable : List (String × String)

namespace ValidationReport

def empty : ValidationReport :=
  ⟨0, 0, 0, [], []⟩

def add (r : ValidationReport) (document : String) (result : ValidationResult) :
    ValidationReport :=
  { r with
    documentsChecked := r.documentsChecked + 1
    documentsWithErrors := r.documentsWithErrors + (if result.ok then 0 else 1)
    totalErrors := r.totalErrors + result.errors.length
    results := r.results ++ [⟨document, result⟩] }

def addUnreadable (r : ValidationReport) (document reason : String) : ValidationReport :=
  { r with unreadable := r.unreadable ++ [(document, reason)] }

def merge (r other : ValidationReport) : ValidationReport :=
  let added := other.results.foldl (fun acc d => acc.add d.document d.result) r
  { added with unreadable := added.unreadable ++ other.unreadable }

def failed (r : ValidationReport) : List DocumentResult :=
  r.results.filter (fun d => !d.result.ok)

/-- The records of the documents that passed: of a name that comes twice the last record
stands at the first place. -/
def records (r : ValidationReport) : List (String × Value) :=
  Entries.ofList ((r.results.filter (fun d => d.result.ok)).map (fun d => (d.document, d.result.value)))

def hasErrors (r : ValidationReport) : Bool :=
  0 < r.documentsWithErrors || !r.unreadable.isEmpty

def isHealthy (r : ValidationReport) : Bool :=
  !r.hasErrors

end ValidationReport

def Schema.validateInto (s : Schema) (report : ValidationReport) :
    List (String × Value) → Journal ValidationReport
  | [] => pure report
  | (document, raw) :: rest => do
      let result ← Journal.ofAnswer (s.validate raw)
      if !result.ok then Journal.note (.rejected document result.errors)
      s.validateInto (report.add document result) rest

def Schema.validateBatch (s : Schema) (documents : List (String × Value)) :
    Journal ValidationReport :=
  s.validateInto .empty documents

end ContentSchema
