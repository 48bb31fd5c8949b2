import ContentSchema.Collection.Registry
import ContentSchema.Content.Document
import ContentSchema.Content.Glob

/-!
# Loading collections

Collecting the files of a collection below a content folder, reading them and validating
them.  A file that comes in through an included collection is validated as a document of the
collection that declares it.  A file that cannot be read is noted and does not stop the
others.
-/

namespace ContentSchema

structure ContentFolder where
  location : Location
  place : Option Place

namespace ContentFolder

structure Found where
  owner : String
  file : Glob.File

def addFiles (owner : String) (found : List Found) (files : List Glob.File) : List Found :=
  files.foldl (fun acc file =>
    if acc.any (fun f => f.file.steps = file.steps) then acc else acc ++ [⟨owner, file⟩]) found

def discoverOwned (folder : ContentFolder) (r : Registry) (name : String) :
    Answer (List Found) := do
  let patterns ← r.resolveSources name
  patterns.foldlM (fun found p => do
    return addFiles p.1 found (← Glob.files p.2 folder.place)) []

def locationOf (folder : ContentFolder) (f : Found) : Location :=
  folder.location.below f.file.steps

def documentOf (f : Found) : String :=
  (Location.mk "" f.file.steps).text

def discover (folder : ContentFolder) (r : Registry) (name : String) : Answer (List Location) := do
  return (← folder.discoverOwned r name).map folder.locationOf

/-!
## Reading
-/

variable [YamlReader]

/-- Documents that were read, by the collection that they belong to, and those that could not
be read with the reason. -/
structure Harvest where
  batches : List (String × List (String × Value))
  unreadable : List (String × String)

def Harvest.add (h : Harvest) (owner document : String) (raw : Value) : Harvest :=
  let batch := (Entries.get? h.batches owner).getD []
  { h with batches := Entries.put h.batches owner (batch ++ [(document, raw)]) }

def harvestFile (folder : ContentFolder) (r : Registry) (h : Harvest) (f : Found) :
    Journal Harvest := do
  let document := documentOf f
  let owner ← Journal.ofAnswer (r.resolve f.owner)
  match RawDocument.read (folder.locationOf f) (some (.file f.file.contents))
      (.ok owner.kind) with
  | .ok raw => return h.add f.owner document (.mapping raw.data)
  | .error fault =>
      match fault with
      | .unreadable _ _ =>
          Journal.note (.unreadable document fault.message)
          return { h with unreadable := h.unreadable ++ [(document, fault.message)] }
      | _ => Journal.ofAnswer (.error fault)

def harvest (folder : ContentFolder) (r : Registry) (h : Harvest) : List Found → Journal Harvest
  | [] => pure h
  | f :: rest => do
      let h ← folder.harvestFile r h f
      folder.harvest r h rest

/-!
## Validating
-/

def validateBatches (r : Registry) (report : ValidationReport) :
    List (String × List (String × Value)) → Journal ValidationReport
  | [] => pure report
  | (owner, documents) :: rest => do
      let batch ← r.validateBatch owner documents
      validateBatches r (report.merge batch) rest

def missingInclude (name : String) (patterns : List String) : FieldError :=
  ⟨"", .unresolvableInclude,
    "Included collection '" ++ name ++ "' matched no files (" ++ ", ".intercalate patterns ++ ")",
    none, .text name⟩

def reportIncludes (r : Registry) (report : ValidationReport) :
    List String → Journal ValidationReport
  | [] => pure report
  | name :: rest => do
      let patterns ← Journal.ofAnswer (r.expandSources name)
      let document := "include:" ++ name
      let errors := [missingInclude name patterns]
      Journal.note (.rejected document errors)
      reportIncludes r (report.add document ⟨.null, errors⟩) rest

/-- Validates all documents of a collection.  When a collection that includes others has no
documents at all, each include is an error. -/
def load (folder : ContentFolder) (r : Registry) (name : String) : Journal ValidationReport := do
  let collection ← Journal.ofAnswer (r.resolve name)
  Journal.note (.loading name folder.location.text)
  let found ← Journal.ofAnswer (folder.discoverOwned r name)
  let h ← folder.harvest r ⟨[], []⟩ found
  let report ← validateBatches r { ValidationReport.empty with unreadable := h.unreadable } h.batches
  if report.results.isEmpty && report.unreadable.isEmpty then
    reportIncludes r report collection.includes
  else return report

def loadEach (folder : ContentFolder) (r : Registry) :
    List String → Journal (List (String × ValidationReport))
  | [] => pure []
  | name :: rest => do
      let report ← folder.load r name
      return (name, report) :: (← folder.loadEach r rest)

def loadAll (folder : ContentFolder) (r : Registry) : Journal (List (String × ValidationReport)) :=
  folder.loadEach r r.names

end ContentFolder
end ContentSchema
