import ContentSchema.Proofs.Content.Discovery
import ContentSchema.Proofs.Journal

/-!
# Harvests

What is gathered from found files.  Reading a file yields its raw record, a reason why it cannot
be read, or a fault that stops everything.  Unless a fault stops it, a harvest has the records put
together by the owners of their files, and the reasons for all other files in order.
-/

namespace ContentSchema
namespace ContentFolder

/-!
## Reading one file
-/

/-- What a found file contributes: a raw record, or the reason why there is none. -/
inductive Reading
  | record (data : List (Value × Value))
  | unreadable (reason : String)

variable [YamlReader]

def reading (folder : ContentFolder) (r : Registry) (f : Found) : Answer Reading := do
  let owner ← r.resolve f.owner
  match RawDocument.read (folder.locationOf f) (some (.file f.file.contents)) (.ok owner.kind) with
  | .ok raw => return .record raw.data
  | .error (.unreadable path cause) =>
      return .unreadable (Fault.unreadable path cause).message
  | .error fault => .error fault

def readingOf (folder : ContentFolder) (r : Registry) (f : Found) : Reading :=
  match folder.reading r f with
  | .ok reading => reading
  | .error fault => .unreadable fault.message

theorem readingOf_eq {folder : ContentFolder} {r : Registry} {f : Found} {reading : Reading}
    (h : folder.reading r f = .ok reading) : reading = folder.readingOf r f := by
  rw [readingOf, h]

def Harvest.take (h : Harvest) (f : Found) : Reading -> Harvest
  | .record data => h.add f.owner (documentOf f) (.mapping data)
  | .unreadable reason => { h with unreadable := h.unreadable ++ [(documentOf f, reason)] }

@[simp] theorem harvestFile_outcome (folder : ContentFolder) (r : Registry) (h : Harvest)
    (f : Found) :
    (folder.harvestFile r h f).outcome = do return h.take f (← folder.reading r f) := by
  cases howner : r.resolve f.owner with
  | error fault =>
      simp [harvestFile, reading, howner]
  | ok owner =>
      cases hread : RawDocument.read (folder.locationOf f) (some (.file f.file.contents))
          (.ok owner.kind) with
      | ok raw =>
          simp [harvestFile, reading, howner, hread, Harvest.take]
      | error fault =>
          cases fault <;> simp [harvestFile, reading, howner, hread, Harvest.take]

theorem harvest_outcome (folder : ContentFolder) (r : Registry) (h : Harvest)
    (found : List Found) :
    (folder.harvest r h found).outcome =
      found.foldlM (fun h f => do return h.take f (← folder.reading r f)) h := by
  induction found generalizing h with
  | nil =>
      rfl
  | cons f rest ih =>
      simp [harvest, ih]

/-!
## All files
-/

def records (folder : ContentFolder) (r : Registry) (found : List Found) :
    List (Found × List (Value × Value)) :=
  found.filterMap (fun f =>
    match folder.readingOf r f with
    | .record data => some (f, data)
    | .unreadable _ => none)

def failures (folder : ContentFolder) (r : Registry) (found : List Found) :
    List (String × String) :=
  found.filterMap (fun f =>
    match folder.readingOf r f with
    | .record _ => none
    | .unreadable reason => some (documentOf f, reason))

def entryOf (e : Found × List (Value × Value)) : String × Value :=
  (documentOf e.1, .mapping e.2)

def batchesOf (records : List (Found × List (Value × Value))) :
    List (String × List (String × Value)) :=
  grouped (fun e => e.1.owner) entryOf records

theorem foldl_take (folder : ContentFolder) (r : Registry) (found : List Found) (h : Harvest) :
    found.foldl (fun h f => h.take f (folder.readingOf r f)) h =
      ⟨(folder.records r found).foldl (fun batches e =>
          Entries.put batches e.1.owner
            ((Entries.get? batches e.1.owner).getD [] ++ [entryOf e])) h.batches,
        h.unreadable ++ folder.failures r found⟩ := by
  induction found generalizing h with
  | nil =>
      rw [failures, List.filterMap_nil, List.append_nil]
      rfl
  | cons f rest ih =>
      rw [List.foldl_cons, ih, records, records, failures, failures, List.filterMap_cons,
        List.filterMap_cons]
      cases folder.readingOf r f with
      | record data =>
          rfl
      | unreadable reason =>
          simp only [Harvest.take, List.append_assoc, List.singleton_append]

/-- A harvest comes to an end when every file contributes something, and then it holds all that
they contribute. -/
theorem harvest_eq_ok {folder : ContentFolder} {r : Registry} {found : List Found}
    {h : Harvest} :
    (folder.harvest r ⟨[], []⟩ found).outcome = .ok h <->
      (forall f, f ∈ found -> folder.reading r f = .ok (folder.readingOf r f)) ∧
        h = ⟨batchesOf (folder.records r found), folder.failures r found⟩ := by
  rw [harvest_outcome, Answer.foldlM_eq_ok (fun f reading hf => readingOf_eq hf), foldl_take,
    batchesOf, ← foldl_eq_grouped]
  rfl

end ContentFolder
end ContentSchema
