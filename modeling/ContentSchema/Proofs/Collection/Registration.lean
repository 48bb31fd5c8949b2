import ContentSchema.Collection.Registry
import ContentSchema.Proofs.Journal
import ContentSchema.Proofs.Schema.Consistency
import ContentSchema.Proofs.Entries

/-!
# Registration

What the operations on a registry can do.  A collection is refused before anything is written
or it is entered in full, since page fields always fit behind the fields that a collection
declares.  So whatever is done to a registry comes down to entering admissible collections one
after the other and freezing, and what these two keep holds of every registry.
-/

namespace ContentSchema

/-!
## Effective schemas
-/

namespace Descriptor

/-- The fields that documents may carry in addition to those that the collection declares. -/
def addedFields (d : Descriptor) : List (String × Schema) :=
  match d.kind with
  | .data => []
  | .page => Page.fields.filter (fun f => !d.root.fieldNames.contains f.1)

theorem addedFields_sublist (d : Descriptor) : d.addedFields.Sublist Page.fields := by
  unfold addedFields
  cases d.kind with
  | data => exact List.nil_sublist _
  | page => exact List.filter_sublist

theorem addedFields_nodup (d : Descriptor) : (Schema.fieldNames d.addedFields).Nodup := by
  have hpage : (Schema.fieldNames Page.fields).Nodup := by
    decide
  exact (d.addedFields_sublist.map Prod.fst).nodup hpage

theorem addedFields_fresh (d : Descriptor) {name : String}
    (h : name ∈ Schema.fieldNames d.addedFields) : name ∉ d.root.fieldNames := by
  unfold addedFields at h
  cases hkind : d.kind with
  | data =>
      rw [hkind] at h
      cases h
  | page =>
      rw [hkind] at h
      rcases List.mem_map.mp h with ⟨f, hf, hname⟩
      have hfresh := (List.mem_filter.mp hf).right
      rw [← hname]
      simpa using hfresh

@[simp] theorem effective_eq (d : Descriptor) :
    d.effective = .ok ⟨d.root.attributes, d.root.fields ++ d.addedFields⟩ := by
  unfold effective
  cases hkind : d.kind with
  | data =>
      simp [addedFields, hkind]
  | page =>
      have hadded : d.implicitFields =
          d.addedFields.map (fun f => .pair (.text f.1) f.2) := by
        simp [implicitFields, addedFields, hkind]
      have hnames : forall name, name ∈ Schema.fieldNames d.addedFields ->
          name.isEmpty = false ∧ name ∉ Schema.fieldNames d.root.fields := by
        intro name hname
        have hpage : forall f, f ∈ Page.fields -> f.1.isEmpty = false := by
          decide
        rcases List.mem_map.mp hname with ⟨f, hf, hfname⟩
        rw [← hfname]
        exact ⟨hpage f (d.addedFields_sublist.subset hf),
          hfname ▸ d.addedFields_fresh hname⟩
      have hschemas : forall f, f ∈ d.addedFields -> f.2.isSchema = true := by
        intro f hf
        have hpage : forall f, f ∈ Page.fields -> f.2.isSchema = true := by
          simp [Page.fields, Schema.isSchema]
        exact hpage f (d.addedFields_sublist.subset hf)
      show d.root.extend d.implicitFields = _
      rw [ObjectSchema.extend, hadded]
      exact Answer.bind_eq_ok.mpr
        ⟨_, Schema.extend_pairs d.addedFields_nodup hnames hschemas, rfl⟩

theorem effective_defects {d : Descriptor} {schema : ObjectSchema} {path : String}
    (h : d.root.toSchema.defects path = .ok []) (hschema : d.effective = .ok schema) :
    schema.toSchema.defects path = .ok [] := by
  rw [effective_eq] at hschema
  injection hschema with hschema
  rw [← hschema]
  refine Schema.defects_append h d.addedFields_nodup
    (fun name hname => d.addedFields_fresh hname) ?_
  intro f hf
  have hpage : forall f, f ∈ Page.fields -> f.2.defects (Schema.childPath path f.1) = .ok [] := by
    simp [Page.fields, Schema.defects, Schema.misplacedConstraints]
  exact hpage f (d.addedFields_sublist.subset hf)

end Descriptor

namespace Registry

/-!
## Entering a collection
-/

/-- A collection can be registered when the registry is open, its name is new, its includes
are there, and its schema has no defects. -/
structure Admits (r : Registry) (d : Descriptor) : Prop where
  isOpen : r.isFrozen = false
  isNew : d.name ∉ r.names
  includes : forall name, name ∈ d.includes -> name ∈ r.names
  consistent : d.root.toSchema.defectsAt d.name = .ok []

/-- Why a collection is refused: the first of the reasons in the order of the checks.  The last
is a schema that cannot be looked through. -/
inductive Refuses (r : Registry) (d : Descriptor) : Fault -> Prop
  | frozen : r.isFrozen = true -> Refuses r d (.definition (.registryFrozen d.name))
  | taken :
      r.isFrozen = false -> d.name ∈ r.names ->
      Refuses r d (.definition (.collectionExists d.name))
  | unregistered {name : String} :
      r.isFrozen = false -> d.name ∉ r.names -> name ∈ d.includes -> name ∉ r.names ->
      Refuses r d (.definition (.unregisteredInclude d.name name))
  | inconsistent {found : List Defect} :
      r.isFrozen = false -> d.name ∉ r.names ->
      (forall name, name ∈ d.includes -> name ∈ r.names) ->
      d.root.toSchema.defectsAt d.name = .ok found -> found ≠ [] ->
      Refuses r d (.definition (.inconsistentCollection d.name found))
  | unchecked {fault : Fault} :
      r.isFrozen = false -> d.name ∉ r.names ->
      (forall name, name ∈ d.includes -> name ∈ r.names) ->
      d.root.toSchema.defectsAt d.name = .error fault ->
      Refuses r d fault

@[simp] theorem mem_names_iff {r : Registry} {name : String} :
    r.has name = true <-> name ∈ r.names :=
  Entries.has_iff

theorem inspect_cases (r : Registry) (d : Descriptor) :
    (r.inspect d = .ok () ∧ r.Admits d) ∨
      exists fault, r.inspect d = .error fault ∧ r.Refuses d fault := by
  unfold inspect
  by_cases hfrozen : r.isFrozen = true
  · rw [if_pos hfrozen]
    exact Or.inr ⟨_, rfl, .frozen hfrozen⟩
  rw [if_neg hfrozen]
  have hopen : r.isFrozen = false := by
    simpa using hfrozen
  by_cases htaken : r.has d.name = true
  · rw [if_pos htaken]
    exact Or.inr ⟨_, rfl, .taken hopen (mem_names_iff.mp htaken)⟩
  rw [if_neg htaken]
  have hnew : d.name ∉ r.names := fun hmem => htaken (mem_names_iff.mpr hmem)
  cases hfound : d.includes.find? (fun name => !r.has name) with
  | some name =>
      have hmem := List.mem_of_find?_eq_some hfound
      have hmissing : name ∉ r.names := by
        intro hname
        have hnot := List.find?_some hfound
        rw [mem_names_iff.mpr hname] at hnot
        cases hnot
      exact Or.inr ⟨_, rfl, .unregistered hopen hnew hmem hmissing⟩
  | none =>
      have hincludes : forall name, name ∈ d.includes -> name ∈ r.names := by
        intro name hname
        have hthere := List.find?_eq_none.mp hfound name hname
        exact mem_names_iff.mp (by simpa using hthere)
      cases hdefects : d.root.toSchema.defectsAt d.name with
      | error fault =>
          exact Or.inr ⟨fault, rfl, .unchecked hopen hnew hincludes hdefects⟩
      | ok found =>
          cases found with
          | nil =>
              exact Or.inl ⟨rfl, hopen, hnew, hincludes, hdefects⟩
          | cons first more =>
              exact Or.inr ⟨_, rfl,
                .inconsistent hopen hnew hincludes hdefects (List.cons_ne_nil _ _)⟩

def withCollection (r : Registry) (d : Descriptor) (schema : ObjectSchema) : Registry :=
  { r with
    descriptors := r.descriptors ++ [(d.name, d)]
    schemas := r.schemas ++ [(d.name, schema)] }

@[simp] theorem names_withCollection (r : Registry) (d : Descriptor) (schema : ObjectSchema) :
    (r.withCollection d schema).names = r.names ++ [d.name] := by
  simp [names, Entries.keys, withCollection]

def Aligned (r : Registry) : Prop :=
  Entries.keys r.schemas = r.names

theorem Aligned.withCollection {r : Registry} (hr : r.Aligned) (d : Descriptor)
    (schema : ObjectSchema) : (r.withCollection d schema).Aligned := by
  rw [Aligned, names_withCollection, ← hr]
  simp [Entries.keys, Registry.withCollection]

/-- What comes of entering a collection: all of it, or nothing but the reason for refusing
it. -/
inductive Entered (r : Registry) (d : Descriptor) : Registry × Journal Unit -> Prop
  | refused {fault : Fault} :
      r.Refuses d fault -> Entered r d (r, Journal.ofAnswer (.error fault))
  | registered {schema : ObjectSchema} :
      r.Admits d -> d.effective = .ok schema ->
      Entered r d (r.withCollection d schema, Journal.note d.event)

theorem entered {r : Registry} (hr : r.Aligned) (d : Descriptor) :
    r.Entered d (r.enter d) := by
  unfold enter
  rcases inspect_cases r d with ⟨hinspect, hadmits⟩ | ⟨fault, hinspect, hrefuses⟩
  · have hschema : d.name ∉ Entries.keys r.schemas := by
      rw [hr]
      exact hadmits.isNew
    have hname : d.name ∉ Entries.keys r.descriptors := hadmits.isNew
    simp only [hinspect, d.effective_eq, Entries.put_of_not_mem hschema,
      Entries.put_of_not_mem hname]
    exact .registered hadmits d.effective_eq
  · rw [hinspect]
    exact .refused hrefuses

theorem Entered.refused_of_error {r : Registry} {d : Descriptor}
    {result : Registry × Journal Unit} {fault : Fault} (h : r.Entered d result)
    (hfault : result.2.outcome = .error fault) :
    r.Refuses d fault ∧ result = (r, Journal.ofAnswer (.error fault)) := by
  cases h with
  | refused hrefuses =>
      injection hfault with hfault
      rw [hfault] at hrefuses ⊢
      exact ⟨hrefuses, rfl⟩
  | registered _ _ => cases hfault

theorem Entered.registered_of_ok {r : Registry} {d : Descriptor}
    {result : Registry × Journal Unit} (h : r.Entered d result)
    (hok : result.2.outcome = .ok ()) :
    r.Admits d ∧ exists schema, result = (r.withCollection d schema, Journal.note d.event) := by
  cases h with
  | refused _ => cases hok
  | registered hadmits _ => exact ⟨hadmits, _, rfl⟩

theorem Refuses.not_admits {r : Registry} {d : Descriptor} {fault : Fault}
    (h : r.Refuses d fault) : ¬ r.Admits d := by
  intro hadmits
  cases h with
  | frozen hfrozen =>
      rw [hadmits.isOpen] at hfrozen
      cases hfrozen
  | taken _ htaken => exact hadmits.isNew htaken
  | unregistered _ _ hname hmissing => exact hmissing (hadmits.includes _ hname)
  | inconsistent _ _ _ hdefects hsome =>
      rw [hadmits.consistent] at hdefects
      injection hdefects with hnone
      exact hsome hnone.symm
  | unchecked _ _ _ hdefects =>
      rw [hadmits.consistent] at hdefects
      cases hdefects

theorem Entered.ok_iff {r : Registry} {d : Descriptor} {result : Registry × Journal Unit}
    (h : r.Entered d result) : result.2.outcome = .ok () <-> r.Admits d := by
  constructor
  · intro hok
    exact (h.registered_of_ok hok).left
  · intro hadmits
    cases h with
    | refused hrefuses => exact absurd hadmits hrefuses.not_admits
    | registered _ _ => rfl

/-!
## Operations
-/

inductive Operation
  | register (d : Descriptor)
  | registerValue (v : Value)
  | registerAll (ds : List Descriptor)
  | freeze

/-- The registry after a call, whether it has succeeded or not, and what the call notes and
answers. -/
def perform (r : Registry) : Operation -> Registry × Journal Unit
  | .register d => r.enter d
  | .registerValue v =>
      match r.addValue v with
      | .ok after => (after, pure ())
      | .error fault => (r, Journal.ofAnswer (.error fault))
  | .registerAll ds => r.registerAll ds
  | .freeze => (r.frozen, Journal.note (.frozen r.names))

def run (r : Registry) : List Operation -> Registry × List Event
  | [] => (r, [])
  | op :: rest =>
      let (after, journal) := r.perform op
      let (last, events) := after.run rest
      (last, journal.events ++ events)

/-- The second registry comes from the first by entering admissible collections and freezing,
with the events that this notes. -/
inductive Grows (r : Registry) : List Event -> Registry -> Prop
  | refl : Grows r [] r
  | entered {events : List Event} {r' : Registry} {d : Descriptor} {schema : ObjectSchema} :
      Grows r events r' -> r'.Admits d -> d.effective = .ok schema ->
      Grows r (events ++ [d.event]) (r'.withCollection d schema)
  | frozen {events : List Event} {r' : Registry} :
      Grows r events r' -> Grows r (events ++ [.frozen r'.names]) r'.frozen

theorem Grows.trans {r r' r'' : Registry} {events later : List Event}
    (h : Grows r events r') (h' : Grows r' later r'') : Grows r (events ++ later) r'' := by
  induction h' with
  | refl =>
      rw [List.append_nil]
      exact h
  | entered _ hadmits hschema ih =>
      rw [← List.append_assoc]
      exact .entered ih hadmits hschema
  | frozen _ ih =>
      rw [← List.append_assoc]
      exact .frozen ih

theorem Grows.aligned {r r' : Registry} {events : List Event} (h : Grows r events r')
    (hr : r.Aligned) : r'.Aligned := by
  induction h with
  | refl =>
      exact hr
  | entered _ _ _ ih =>
      exact ih.withCollection _ _
  | frozen _ ih =>
      exact ih

theorem Entered.grows {r : Registry} {d : Descriptor} {result : Registry × Journal Unit}
    (h : r.Entered d result) : Grows r result.2.events result.1 := by
  cases h with
  | refused _ => exact .refl
  | registered hadmits hschema => exact .entered .refl hadmits hschema

/-!
Going through a list stops at the first collection that is refused and otherwise goes on with
the registry behind it.
-/

theorem registerAll_stopped {r : Registry} {d : Descriptor} {rest : List Descriptor}
    {fault : Fault} (h : (r.enter d).2.outcome = .error fault) :
    r.registerAll (d :: rest) = r.enter d := by
  rw [registerAll]
  simp only [h]

theorem registerAll_continued {r : Registry} {d : Descriptor} {rest : List Descriptor}
    (h : (r.enter d).2.outcome = .ok ()) :
    (r.registerAll (d :: rest)).1 = ((r.enter d).1.registerAll rest).1 ∧
      (r.registerAll (d :: rest)).2.events =
        (r.enter d).2.events ++ ((r.enter d).1.registerAll rest).2.events ∧
      (r.registerAll (d :: rest)).2.outcome = ((r.enter d).1.registerAll rest).2.outcome := by
  have hall : r.registerAll (d :: rest) =
      (((r.enter d).1.registerAll rest).1,
        Journal.andThen (r.enter d).2 (fun _ => ((r.enter d).1.registerAll rest).2)) := by
    rw [registerAll]
    simp only [h]
    rfl
  rw [hall, Journal.andThen, h]
  exact ⟨rfl, rfl, rfl⟩

theorem registerAll_grows {r : Registry} (hr : r.Aligned) {ds : List Descriptor} :
    Grows r (r.registerAll ds).2.events (r.registerAll ds).1 := by
  induction ds generalizing r with
  | nil =>
      exact .refl
  | cons d rest ih =>
      have hgrows := (entered hr d).grows
      cases houtcome : (r.enter d).2.outcome with
      | error fault =>
          rw [registerAll_stopped houtcome]
          exact hgrows
      | ok _ =>
          rcases registerAll_continued houtcome with ⟨hlast, hevents, _houtcome⟩
          rw [hlast, hevents]
          exact hgrows.trans (ih (hgrows.aligned hr))

theorem perform_grows {r : Registry} (hr : r.Aligned) (op : Operation) :
    Grows r (r.perform op).2.events (r.perform op).1 := by
  cases op with
  | register d => exact (entered hr d).grows
  | registerValue v =>
      have hrefused : exists fault, r.addValue v = .error fault := by
        unfold addValue
        cases r.isFrozen <;> exact ⟨_, rfl⟩
      rcases hrefused with ⟨fault, hfault⟩
      rw [perform, hfault]
      exact .refl
  | registerAll ds => exact registerAll_grows hr
  | freeze => exact .frozen .refl

theorem run_grows {r : Registry} (hr : r.Aligned) (ops : List Operation) :
    Grows r (r.run ops).2 (r.run ops).1 := by
  induction ops generalizing r with
  | nil =>
      exact .refl
  | cons op rest ih =>
      have hgrows := perform_grows hr op
      exact hgrows.trans (ih (hgrows.aligned hr))

end Registry
end ContentSchema
