import ContentSchema.Proofs.Collection.Expansion

/-!
# Stability

A registry is only ever added to.  An operation that fails leaves it as it was, and one that
succeeds changes no answer about a collection that was there before; a registry that is frozen
does not change at all.
-/

namespace ContentSchema
namespace Registry

/-!
## Answers about earlier collections
-/

/-- The second registry gives the answers of the first for all collections of the first. -/
structure Agrees (r r' : Registry) : Prop where
  resolve : forall name, name ∈ r.names -> r'.resolve name = r.resolve name
  schemaFor : forall name, name ∈ r.names -> r'.schemaFor name = r.schemaFor name
  resolveSources : forall name, name ∈ r.names -> r'.resolveSources name = r.resolveSources name
  validate : forall name, name ∈ r.names -> forall raw, r'.validate name raw = r.validate name raw

theorem Sound.effectiveOf {r r' : Registry} (hr : r.Sound) (h : Extends r r') {name : String}
    (hname : name ∈ r.names) : r'.effectiveOf name = r.effectiveOf name := by
  rcases hr.exists_descriptor hname with ⟨d, _hd, hresolve⟩
  rcases h.schemas with ⟨more, hmore⟩
  have hschema := hr.get?_schemas hresolve
  have hlater : Entries.get? r'.schemas name = Entries.get? r.schemas name := by
    rw [← hmore, hschema]
    exact Entries.get?_append hschema
  rw [Registry.effectiveOf, Registry.effectiveOf, hresolve, h.resolve hresolve, hlater]

theorem Sound.agrees {r r' : Registry} (hr : r.Sound) (h : Extends r r') : r.Agrees r' := by
  have hschemaFor : forall name, name ∈ r.names -> r'.schemaFor name = r.schemaFor name := by
    intro name hname
    rw [Registry.schemaFor, Registry.schemaFor, hr.effectiveOf h hname]
  refine ⟨?_, hschemaFor, ?_, ?_⟩
  · intro name hname
    rcases hr.exists_descriptor hname with ⟨d, _hd, hresolve⟩
    rw [hresolve, h.resolve hresolve]
  · intro name hname
    rw [Registry.resolveSources, Registry.resolveSources, (hr.expansion h hname).left]
  · intro name hname raw
    rw [Registry.validate, Registry.validate, hschemaFor name hname]

theorem Extends.trans {r r' r'' : Registry} (h : Extends r r') (h' : Extends r' r'') :
    Extends r r'' :=
  ⟨h.descriptors.trans h'.descriptors, h.schemas.trans h'.schemas⟩

theorem Grows.extends {r r' : Registry} {events : List Event} (h : Grows r events r') :
    Extends r r' := by
  induction h with
  | refl =>
      exact .refl r
  | entered _ _ _ ih =>
      exact ih.trans ⟨List.prefix_append _ _, List.prefix_append _ _⟩
  | frozen _ ih =>
      exact ih.trans ⟨List.prefix_refl _, List.prefix_refl _⟩

/-!
## Several collections
-/

theorem add_of_enter {r : Registry} {d : Descriptor} (h : (r.enter d).2.outcome = .ok ()) :
    r.add d = .ok (r.enter d).1 := by
  show (Journal.andThen (r.enter d).2 (fun _ => pure (r.enter d).1)).outcome = _
  rw [Journal.andThen, h]
  rfl

/-- The registry behind a list is the one behind its longest part that can be added one by
one: the whole of it, or all before the first that is refused. -/
theorem registerAll_longest {r : Registry} (hr : r.Aligned) (ds : List Descriptor) :
    exists done rest, ds = done ++ rest ∧
      done.foldlM add r = .ok (r.registerAll ds).1 ∧
      (r.registerAll ds).1.names = r.names ++ done.map Descriptor.name ∧
      ((rest = [] ∧ (r.registerAll ds).2.outcome = .ok ()) ∨
        exists d more fault, rest = d :: more ∧ (r.registerAll ds).1.Refuses d fault ∧
          (r.registerAll ds).2.outcome = .error fault) := by
  induction ds generalizing r with
  | nil =>
      exact ⟨[], [], rfl, rfl, (List.append_nil _).symm, Or.inl ⟨rfl, rfl⟩⟩
  | cons d rest ih =>
      have hentered := entered hr d
      cases houtcome : (r.enter d).2.outcome with
      | error fault =>
          rw [registerAll_stopped houtcome]
          rcases hentered.refused_of_error houtcome with ⟨hrefuses, hresult⟩
          rw [hresult]
          exact ⟨[], d :: rest, rfl, rfl, (List.append_nil _).symm,
            Or.inr ⟨d, rest, fault, rfl, hrefuses, rfl⟩⟩
      | ok _ =>
          rcases registerAll_continued houtcome with ⟨hlast, _hevents, hlater⟩
          rcases ih (hentered.grows.aligned hr) with ⟨done, more, hsplit, hdone, hnames, hend⟩
          rw [hlast, hlater]
          refine ⟨d :: done, more, by rw [hsplit]; rfl, ?_, ?_, hend⟩
          · rw [List.foldlM_cons, add_of_enter houtcome]
            exact hdone
          · rcases (hentered.registered_of_ok houtcome).right with ⟨schema, hresult⟩
            rw [hnames, hresult, names_withCollection, List.append_assoc]
            rfl

/-!
## Frozen registries
-/

theorem enter_frozen {r : Registry} (h : r.isFrozen = true) (d : Descriptor) :
    r.enter d = (r, Journal.ofAnswer (refuse (.registryFrozen d.name))) := by
  have hinspect : r.inspect d = refuse (.registryFrozen d.name) := by
    rw [inspect, if_pos h]
  rw [enter, hinspect]
  rfl

theorem perform_value (r : Registry) (v : Value) : (r.perform (.registerValue v)).1 = r := by
  rw [perform, addValue]
  cases r.isFrozen <;> rfl

theorem perform_frozen {r : Registry} (h : r.isFrozen = true) (op : Operation) :
    (r.perform op).1 = r := by
  cases op with
  | register d =>
      rw [perform, enter_frozen h]
  | registerValue v =>
      exact perform_value r v
  | registerAll ds =>
      cases ds with
      | nil =>
          rfl
      | cons d rest =>
          have hstopped : (r.enter d).2.outcome = refuse (.registryFrozen d.name) := by
            rw [enter_frozen h]
            rfl
          rw [perform, registerAll_stopped hstopped, enter_frozen h]
  | freeze =>
      rw [perform, Registry.frozen, ← h]

theorem run_frozen {r : Registry} (h : r.isFrozen = true) (ops : List Operation) :
    (r.run ops).1 = r := by
  induction ops with
  | nil =>
      rfl
  | cons op rest ih =>
      show ((r.perform op).1.run rest).1 = r
      rw [perform_frozen h, ih]

/-!
## Atomic registration
-/

/-- Registering a collection happens in full or not at all, a list of collections is
registered up to the first that is refused, and nothing that is done later changes an answer
about the collections that are there; once the registry is frozen, it stays as it is. -/
structure Atomic (r : Registry) : Prop where
  decided : forall d, (r.enter d).2.outcome = .ok () <-> r.Admits d
  failing : forall d fault, (r.enter d).2.outcome = .error fault ->
    (r.enter d).1 = r ∧ r.Refuses d fault
  succeeding : forall d, (r.enter d).2.outcome = .ok () ->
    (r.enter d).1.names = r.names ++ [d.name] ∧ (r.enter d).1.isFrozen = r.isFrozen
  value : forall v, (r.perform (.registerValue v)).1 = r
  agrees : forall d, r.Agrees (r.enter d).1
  longest : forall ds, exists done rest, ds = done ++ rest ∧
    done.foldlM add r = .ok (r.registerAll ds).1 ∧
    (r.registerAll ds).1.names = r.names ++ done.map Descriptor.name ∧
    ((rest = [] ∧ (r.registerAll ds).2.outcome = .ok ()) ∨
      exists d more fault, rest = d :: more ∧ (r.registerAll ds).1.Refuses d fault ∧
        (r.registerAll ds).2.outcome = .error fault)
  later : forall ops, r.Agrees (r.run ops).1
  closed : forall ops, (r.frozen.run ops).1 = r.frozen ∧ r.Agrees r.frozen

/-- Registration is atomic in every registry that starts empty, whatever has been done to it. -/
theorem run_atomic (ops : List Operation) : (empty.run ops).1.Atomic := by
  have hsound := sound_empty.run ops
  have hentered := entered hsound.aligned
  refine ⟨fun d => (hentered d).ok_iff, ?_, ?_, perform_value _, ?_,
    registerAll_longest hsound.aligned, ?_, ?_⟩
  · intro d fault hfault
    rcases (hentered d).refused_of_error hfault with ⟨hrefuses, hresult⟩
    rw [hresult]
    exact ⟨rfl, hrefuses⟩
  · intro d hok
    rcases (hentered d).registered_of_ok hok with ⟨_hadmits, schema, hresult⟩
    rw [hresult]
    exact ⟨names_withCollection _ d schema, rfl⟩
  · intro d
    exact hsound.agrees (hentered d).grows.extends
  · intro later
    exact hsound.agrees (run_grows hsound.aligned later).extends
  · intro later
    exact ⟨run_frozen rfl later, hsound.agrees (Grows.frozen .refl).extends⟩

end Registry
end ContentSchema
