import ContentSchema.Collection.Descriptor
import ContentSchema.Schema.Builders
import ContentSchema.Schema.Consistency
import ContentSchema.Validation.Report

/-!
# Registries

A registry holds collections in order of registration, each with the schema that its
documents are validated against.  A collection can be added while the registry is open, under
a new name, when the collections that it includes are there and its schema is consistent; a
registry that is frozen takes no more.  Pages may carry a few fields in addition to their
own.

The sources of a collection expand to file patterns by recursion on what it includes.
-/

namespace ContentSchema

/-!
## Page fields
-/

namespace Page

def fields : List (String × Schema) :=
  let optionalText : Schema := .primitive ⟨true, none, []⟩ .string []
  [("title", optionalText), ("description", optionalText), ("path", optionalText),
    ("body", optionalText), ("navigation", .primitive ⟨false, some (.bool true), []⟩ .boolean [])]

def root : ObjectSchema :=
  ⟨.fresh, fields⟩

end Page

def Descriptor.implicitFields (d : Descriptor) : List Schema.FieldEntry :=
  (Page.fields.filter (fun f => !d.root.fieldNames.contains f.1)).map
    (fun f => .pair (.text f.1) f.2)

/-- The schema that the documents of a collection are validated against: pages get the page
fields that they do not declare themselves. -/
def Descriptor.effective (d : Descriptor) : Answer ObjectSchema :=
  match d.kind with
  | .data => .ok d.root
  | .page => d.root.extend d.implicitFields

def Descriptor.event (d : Descriptor) : Event :=
  .registered d.name d.kind.name (d.sources.map Selector.text) d.root.fieldNames

/-!
## Registries
-/

/-- The descriptors and the effective schemas of collections, each under their names and in
order of registration. -/
structure Registry where
  descriptors : List (String × Descriptor)
  schemas : List (String × ObjectSchema)
  isFrozen : Bool

structure Registered where
  descriptor : Descriptor
  effective : ObjectSchema

namespace Registry

def empty : Registry :=
  ⟨[], [], false⟩

def names (r : Registry) : List String :=
  Entries.keys r.descriptors

def has (r : Registry) (name : String) : Bool :=
  Entries.has r.descriptors name

/-!
## Registration
-/

def inspect (r : Registry) (d : Descriptor) : Answer Unit :=
  if r.isFrozen then refuse (.registryFrozen d.name)
  else if r.has d.name then refuse (.collectionExists d.name)
  else
    match d.includes.find? (fun name => !r.has name) with
    | some name => refuse (.unregisteredInclude d.name name)
    | none => do
        let defects ← d.root.toSchema.defectsAt d.name
        if defects.isEmpty then .ok () else refuse (.inconsistentCollection d.name defects)

/-- Enters a collection.  The registry is the one afterwards, whatever has come of it: the
descriptor is written before the effective schema is made. -/
def enter (r : Registry) (d : Descriptor) : Registry × Journal Unit :=
  match r.inspect d with
  | .error fault => (r, Journal.ofAnswer (.error fault))
  | .ok () =>
      let described := { r with descriptors := Entries.put r.descriptors d.name d }
      match d.effective with
      | .error fault => (described, Journal.ofAnswer (.error fault))
      | .ok schema =>
          ({ described with schemas := Entries.put r.schemas d.name schema },
            Journal.note d.event)

/-- Enters collections in order up to the first that fails. -/
def registerAll (r : Registry) : List Descriptor → Registry × Journal Unit
  | [] => (r, pure ())
  | d :: rest =>
      let (after, journal) := r.enter d
      match journal.outcome with
      | .ok () =>
          let (last, later) := after.registerAll rest
          (last, do journal; later)
      | .error _ => (after, journal)

def register (r : Registry) (d : Descriptor) : Journal Registry := do
  let (after, journal) := r.enter d
  journal
  return after

def add (r : Registry) (d : Descriptor) : Answer Registry :=
  (r.register d).outcome

def addValue (r : Registry) (v : Value) : Answer Registry :=
  if r.isFrozen then .error .wrongType else refuse (.notADescriptor v.typeName)

def frozen (r : Registry) : Registry :=
  { r with isFrozen := true }

def freeze (r : Registry) : Journal Registry := do
  Journal.note (.frozen r.names)
  return r.frozen

/-!
## Lookup
-/

def resolve (r : Registry) (name : String) : Answer Descriptor :=
  orFault (.unknownCollection (.text name)) (Entries.get? r.descriptors name)

def effectiveOf (r : Registry) (name : String) : Answer ObjectSchema := do
  let _ ← r.resolve name
  orFault .missingKey (Entries.get? r.schemas name)

def schemaFor (r : Registry) (name : String) : Answer Schema := do
  return (← r.effectiveOf name).toSchema

/-- The collection that a value names; only texts are names, and what has no hash cannot be
looked up. -/
def resolveValue (r : Registry) (v : Value) : Answer Registered :=
  match v with
  | .text name => do return ⟨← r.resolve name, ← r.effectiveOf name⟩
  | _ => .error (if v.isHashable then .unknownCollection v else .wrongType)

def collections (r : Registry) : List Registered :=
  r.descriptors.filterMap (fun e =>
    (Entries.get? r.schemas e.1).map (fun schema => ⟨e.2, schema⟩))

/-!
## Sources
-/

def firstPatterns (pairs : List (String × String)) : List (String × String) :=
  pairs.foldl (fun acc p => if acc.any (fun q => q.2 == p.2) then acc else acc ++ [p]) []

/-- The file patterns of a collection with the collections that declare them.  Includes are
followed as deep as they go, and where they lead back to themselves there is no answer. -/
def expansion (r : Registry) (name : String) : ExceptT Fault Option (List (String × String)) := do
  let d ← ExceptT.mk (some (r.resolve name))
  let parts ← d.sources.mapM (fun source =>
    match source with
    | .files pattern => pure [(name, pattern)]
    | .included other => by
        -- Not written as a call, which would keep its place in this file as part of the value.
        apply expansion
        · exact r
        · exact other)
  return firstPatterns parts.flatten
partial_fixpoint

/-- The file patterns of a collection, each with the collection that declares it.  Includes
are replaced in place, and a pattern that comes again is dropped. -/
def resolveSources (r : Registry) (name : String) : Answer (List (String × String)) :=
  (r.expansion name).run.getD (.error .unending)

def expandSources (r : Registry) (name : String) : Answer (List String) := do
  return (← r.resolveSources name).map Prod.snd

/-!
## Validation
-/

def validate (r : Registry) (name : String) (raw : Value) : Answer ValidationResult := do
  (← r.schemaFor name).validate raw

def validateBatch (r : Registry) (name : String) (documents : List (String × Value)) :
    Journal ValidationReport := do
  let schema ← Journal.ofAnswer (r.schemaFor name)
  let report ← schema.validateBatch documents
  Journal.note (.checked name report.documentsChecked report.documentsWithErrors report.totalErrors)
  return report

end Registry
end ContentSchema
