import ContentSchema.Proofs.Collection.Registration
import Mathlib.Data.List.Induction
import Mathlib.Logic.Relation

/-!
# Registries in order

In every registry a collection includes only collections that were registered before it.  So
includes lead back in the order of registration, never round in a circle, and expansion comes
to an end for every collection.
-/

namespace ContentSchema

def Event.registeredName? : Event -> Option String
  | .registered name _ _ _ => some name
  | _ => none

namespace Registry

/-!
## Sound registries
-/

/-- Each collection includes only ones before it. -/
inductive Ordered : List (String × Descriptor) -> Prop
  | empty : Ordered []
  | behind {before : List (String × Descriptor)} {e : String × Descriptor} :
      Ordered before -> (forall name, name ∈ e.2.includes -> name ∈ Entries.keys before) ->
      Ordered (before ++ [e])

/-- What holds of a registry at any time. -/
structure Sound (r : Registry) : Prop where
  aligned : r.Aligned
  names_nodup : r.names.Nodup
  keyed : forall e, e ∈ r.descriptors -> e.1 = e.2.name
  effective : forall e, e ∈ r.descriptors ->
    exists schema, e.2.effective = .ok schema ∧ (e.1, schema) ∈ r.schemas
  consistent : forall e, e ∈ r.schemas -> forall path, e.2.toSchema.check path = .ok e.2.toSchema
  ordered : Ordered r.descriptors

theorem sound_empty : empty.Sound where
  aligned := rfl
  names_nodup := List.nodup_nil
  keyed := by
    intro e he
    cases he
  effective := by
    intro e he
    cases he
  consistent := by
    intro e he
    cases he
  ordered := .empty

theorem Sound.withCollection {r : Registry} (hr : r.Sound) {d : Descriptor}
    {schema : ObjectSchema} (hadmits : r.Admits d) (hschema : d.effective = .ok schema) :
    (r.withCollection d schema).Sound where
  aligned := hr.aligned.withCollection d schema
  names_nodup := by
    rw [names_withCollection]
    refine List.nodup_append.mpr ⟨hr.names_nodup, List.nodup_singleton _, ?_⟩
    intro name hname other hother heq
    rw [List.mem_singleton.mp hother] at heq
    rw [heq] at hname
    exact hadmits.isNew hname
  keyed := by
    intro e he
    rcases List.mem_append.mp he with he | he
    · exact hr.keyed e he
    · rw [List.mem_singleton.mp he]
  effective := by
    intro e he
    rcases List.mem_append.mp he with he | he
    · rcases hr.effective e he with ⟨found, hfound, hmem⟩
      exact ⟨found, hfound, List.mem_append_left _ hmem⟩
    · rw [List.mem_singleton.mp he]
      exact ⟨schema, hschema, List.mem_append_right _ List.mem_cons_self⟩
  consistent := by
    intro e he path
    rcases List.mem_append.mp he with he | he
    · exact hr.consistent e he path
    · rw [List.mem_singleton.mp he]
      exact Schema.check_eq_ok_of_defects
        (Descriptor.effective_defects hadmits.consistent hschema) path
  ordered := .behind hr.ordered hadmits.includes

theorem Sound.frozen {r : Registry} (hr : r.Sound) : r.frozen.Sound :=
  ⟨hr.aligned, hr.names_nodup, hr.keyed, hr.effective, hr.consistent, hr.ordered⟩

theorem Sound.grows {r r' : Registry} {events : List Event} (hr : r.Sound)
    (h : Grows r events r') : r'.Sound := by
  induction h with
  | refl => exact hr
  | entered _ hadmits hschema ih => exact ih.withCollection hadmits hschema
  | frozen _ ih => exact ih.frozen

theorem Sound.run {r : Registry} (hr : r.Sound) (ops : List Operation) : (r.run ops).1.Sound :=
  hr.grows (run_grows hr.aligned ops)

theorem sound_of_run {ops : List Operation} {r : Registry} {events : List Event}
    (hrun : empty.run ops = (r, events)) : r.Sound := by
  have hsound := sound_empty.run ops
  rw [hrun] at hsound
  exact hsound

theorem Grows.names {r r' : Registry} {events : List Event} (h : Grows r events r') :
    r'.names = r.names ++ events.filterMap Event.registeredName? := by
  induction h with
  | refl =>
      simp
  | entered _ _ _ ih =>
      rw [names_withCollection, ih, List.filterMap_append, List.append_assoc]
      rfl
  | frozen _ ih =>
      rw [List.filterMap_append, ← List.append_assoc, ← ih]
      exact (List.append_nil _).symm

/-!
## Includes
-/

def Includes (r : Registry) (name included : String) : Prop :=
  exists d, (name, d) ∈ r.descriptors ∧ included ∈ d.includes

theorem Ordered.earlier {descriptors : List (String × Descriptor)} (h : Ordered descriptors)
    (hnodup : (Entries.keys descriptors).Nodup) {e : String × Descriptor}
    (he : e ∈ descriptors) {name : String} (hname : name ∈ e.2.includes) :
    name ∈ Entries.keys descriptors ∧
      (Entries.keys descriptors).idxOf name < (Entries.keys descriptors).idxOf e.1 := by
  induction h with
  | empty =>
      cases he
  | behind _hordered hincludes ih =>
      rename_i before last
      have hkeys : Entries.keys (before ++ [last]) = Entries.keys before ++ [last.1] := by
        simp [Entries.keys]
      rw [hkeys] at hnodup ⊢
      have hbefore := List.nodup_append.mp hnodup
      rcases List.mem_append.mp he with he | he
      · have hearlier := ih hbefore.left he
        have hkey : e.1 ∈ Entries.keys before := List.mem_map_of_mem he
        rw [List.idxOf_append_of_mem hearlier.left, List.idxOf_append_of_mem hkey]
        exact ⟨List.mem_append_left _ hearlier.left, hearlier.right⟩
      · rw [List.mem_singleton.mp he] at hname ⊢
        have hmem := hincludes name hname
        have hlast : last.1 ∉ Entries.keys before := by
          intro hlast
          exact hbefore.right.right last.1 hlast last.1 List.mem_cons_self rfl
        rw [List.idxOf_append_of_mem hmem, List.idxOf_append_of_notMem hlast]
        have hlt := List.idxOf_lt_length_of_mem hmem
        exact ⟨List.mem_append_left _ hmem, by omega⟩

theorem Sound.includes_earlier {r : Registry} (hr : r.Sound) {name included : String}
    (h : r.Includes name included) :
    included ∈ r.names ∧ r.names.idxOf included < r.names.idxOf name := by
  rcases h with ⟨d, hd, hincluded⟩
  exact hr.ordered.earlier hr.names_nodup hd hincluded

theorem Sound.acyclic {r : Registry} (hr : r.Sound) (name : String) :
    ¬ Relation.TransGen r.Includes name name := by
  have hearlier {start stop : String} (h : Relation.TransGen r.Includes start stop) :
      r.names.idxOf stop < r.names.idxOf start := by
    induction h with
    | single hfirst => exact (hr.includes_earlier hfirst).right
    | tail _ hlast ih => exact Nat.lt_trans (hr.includes_earlier hlast).right ih
  intro h
  exact Nat.lt_irrefl _ (hearlier h)

/-!
## Expansion

Expansion is followed along the order of registration: what a collection includes has come to
an end before, and further collections behind change nothing about it.
-/

/-- The second registry has everything that the first has, and possibly more behind it. -/
structure Extends (r r' : Registry) : Prop where
  descriptors : r.descriptors <+: r'.descriptors
  schemas : r.schemas <+: r'.schemas

theorem Extends.refl (r : Registry) : Extends r r :=
  ⟨List.prefix_refl _, List.prefix_refl _⟩

theorem Sound.resolve {r : Registry} (hr : r.Sound) {e : String × Descriptor}
    (he : e ∈ r.descriptors) : r.resolve e.1 = .ok e.2 := by
  rw [Registry.resolve, Entries.get?_of_mem hr.names_nodup he]
  rfl

theorem Sound.exists_descriptor {r : Registry} (hr : r.Sound) {name : String}
    (hname : name ∈ r.names) :
    exists d, (name, d) ∈ r.descriptors ∧ r.resolve name = .ok d := by
  rcases List.mem_map.mp hname with ⟨e, he, hname⟩
  rw [← hname]
  exact ⟨e.2, he, hr.resolve he⟩

@[simp] theorem resolve_eq_ok_iff {r : Registry} {name : String} {d : Descriptor} :
    r.resolve name = .ok d <-> Entries.get? r.descriptors name = some d := by
  unfold resolve
  cases Entries.get? r.descriptors name <;> simp [orFault]

theorem mem_names_of_resolve {r : Registry} {name : String} {d : Descriptor}
    (h : r.resolve name = .ok d) : name ∈ r.names :=
  List.mem_map.mpr ⟨_, Entries.mem_of_get? (resolve_eq_ok_iff.mp h), rfl⟩

theorem resolve_unknown {r : Registry} {name : String} (h : name ∉ r.names) :
    r.resolve name = .error (.unknownCollection (.text name)) := by
  cases hfound : Entries.get? r.descriptors name with
  | none =>
      rw [resolve, hfound]
      rfl
  | some d =>
      exact absurd (mem_names_of_resolve (resolve_eq_ok_iff.mpr hfound)) h

theorem Sound.get?_schemas {r : Registry} (hr : r.Sound) {name : String} {d : Descriptor}
    (hd : r.resolve name = .ok d) :
    Entries.get? r.schemas name =
      some ⟨d.root.attributes, d.root.fields ++ d.addedFields⟩ := by
  have hkeys : (Entries.keys r.schemas).Nodup := by
    rw [hr.aligned]
    exact hr.names_nodup
  rcases hr.effective _ (Entries.mem_of_get? (resolve_eq_ok_iff.mp hd)) with
    ⟨schema, hschema, hmem⟩
  rw [d.effective_eq] at hschema
  injection hschema with hschema
  rw [hschema]
  exact Entries.get?_of_mem hkeys hmem

theorem Sound.effectiveOf_eq {r : Registry} (hr : r.Sound) {name : String} {d : Descriptor}
    (hd : r.resolve name = .ok d) :
    r.effectiveOf name = .ok ⟨d.root.attributes, d.root.fields ++ d.addedFields⟩ := by
  rw [effectiveOf, hd, hr.get?_schemas hd]
  rfl

theorem Sound.validate_eq {r : Registry} (hr : r.Sound) {name : String} {d : Descriptor}
    (hd : r.resolve name = .ok d) :
    r.validate name =
      Schema.validate (.object d.root.attributes (d.root.fields ++ d.addedFields)) := by
  funext raw
  rw [validate, schemaFor, hr.effectiveOf_eq hd]
  rfl

theorem Sound.consistent_effective {r : Registry} (hr : r.Sound) {name : String} {d : Descriptor}
    (hd : r.resolve name = .ok d) :
    Schema.Everywhere Schema.Consistent
      (.object d.root.attributes (d.root.fields ++ d.addedFields)) :=
  Schema.check_eq_ok_iff.mp
    (hr.consistent _ (Entries.mem_of_get? (hr.get?_schemas hd)) Schema.rootPath)

theorem Extends.resolve {r r' : Registry} (h : Extends r r') {name : String} {d : Descriptor}
    (hd : r.resolve name = .ok d) : r'.resolve name = .ok d := by
  rcases h.descriptors with ⟨more, hmore⟩
  rw [resolve_eq_ok_iff] at hd ⊢
  rw [← hmore]
  exact Entries.get?_append hd

def contribution (r : Registry) (name : String) :
    Selector -> ExceptT Fault Option (List (String × String))
  | .files pattern => pure [(name, pattern)]
  | .included other => r.expansion other

theorem expansion_of_resolve {r : Registry} {name : String} {d : Descriptor}
    (h : r.resolve name = .ok d) :
    r.expansion name =
      d.sources.mapM (r.contribution name) >>= fun parts =>
        pure (firstPatterns parts.flatten) := by
  have hcontribution : r.contribution name = fun source =>
      match source with
      | .files pattern => pure [(name, pattern)]
      | .included other => r.expansion other := by
    funext source
    cases source <;> rfl
  rw [hcontribution, expansion, h]
  rfl

theorem mapM_agree {α β : Type} {f g : α -> ExceptT Fault Option β} {xs : List α}
    (h : forall x, x ∈ xs -> g x = f x ∧ exists y, f x = pure y) :
    xs.mapM g = xs.mapM f ∧ exists ys, xs.mapM f = pure ys := by
  induction xs with
  | nil =>
      exact ⟨rfl, [], rfl⟩
  | cons x rest ih =>
      rcases List.forall_mem_cons.mp h with ⟨⟨heq, y, hy⟩, hrest⟩
      rcases ih hrest with ⟨hrestEq, ys, hys⟩
      rw [List.mapM_cons, List.mapM_cons, heq, hrestEq, hy, hys]
      exact ⟨rfl, y :: ys, rfl⟩

theorem Ordered.expansion {r r' : Registry} (hr : r.Sound) (h : Extends r r')
    {before after : List (String × Descriptor)} (hbefore : Ordered before)
    (hsplit : r.descriptors = before ++ after) {name : String}
    (hname : name ∈ Entries.keys before) :
    r'.expansion name = r.expansion name ∧ exists pairs, r.expansion name = pure pairs := by
  -- by registration: what the last collection includes is expanded before it
  induction hbefore generalizing after name with
  | empty =>
      cases hname
  | behind _hordered hincludes ih =>
      rename_i before last
      rw [List.append_assoc] at hsplit
      rw [Entries.keys, List.map_append] at hname
      rcases List.mem_append.mp hname with hname | hname
      · exact ih hsplit hname
      · rw [List.mem_singleton.mp hname]
        have hlast : last ∈ r.descriptors := by
          rw [hsplit]
          exact List.mem_append_right _ List.mem_cons_self
        have hresolve := hr.resolve hlast
        rw [expansion_of_resolve hresolve, expansion_of_resolve (h.resolve hresolve)]
        have hsources : forall source, source ∈ last.2.sources ->
            r'.contribution last.1 source = r.contribution last.1 source ∧
            exists pairs, r.contribution last.1 source = pure pairs := by
          intro source hsource
          cases source with
          | files pattern =>
              exact ⟨rfl, _, rfl⟩
          | included other =>
              have hother : other ∈ last.2.includes :=
                List.mem_filterMap.mpr ⟨_, hsource, rfl⟩
              exact ih hsplit (hincludes other hother)
        rcases mapM_agree hsources with ⟨heq, parts, hparts⟩
        rw [heq, hparts]
        exact ⟨rfl, _, rfl⟩

/-- Expansion comes to an end for every collection, and collections that are registered later
change nothing about it. -/
theorem Sound.expansion {r r' : Registry} (hr : r.Sound) (h : Extends r r') {name : String}
    (hname : name ∈ r.names) :
    r'.expansion name = r.expansion name ∧ exists pairs, r.expansion name = pure pairs :=
  hr.ordered.expansion hr h (List.append_nil _).symm hname

theorem resolveSources_of_expansion {r : Registry} {name : String}
    {pairs : List (String × String)} (h : r.expansion name = pure pairs) :
    r.resolveSources name = .ok pairs ∧ r.expandSources name = .ok (pairs.map Prod.snd) := by
  have hpairs : r.resolveSources name = .ok pairs := by
    rw [resolveSources, h]
    rfl
  refine ⟨hpairs, ?_⟩
  rw [expandSources, hpairs]
  rfl

/-!
## The invariant
-/

/-- Whatever is done to a registry that starts empty, its names are distinct and stand in the
order of their registrations, it has a consistent effective schema for each descriptor and
for nothing else, collections include only earlier ones and so never themselves, and the
sources of each collection expand to file patterns. -/
theorem run_invariant {ops : List Operation} {r : Registry} {events : List Event}
    (hrun : empty.run ops = (r, events)) :
    r.names.Nodup ∧
    r.names = events.filterMap Event.registeredName? ∧
    Entries.keys r.schemas = Entries.keys r.descriptors ∧
    (forall e, e ∈ r.descriptors -> e.1 = e.2.name ∧
      exists schema, e.2.effective = .ok schema ∧ (e.1, schema) ∈ r.schemas) ∧
    (forall e, e ∈ r.schemas -> forall path, e.2.toSchema.check path = .ok e.2.toSchema) ∧
    (forall name included, r.Includes name included ->
      included ∈ r.names ∧ r.names.idxOf included < r.names.idxOf name) ∧
    (forall name, ¬ Relation.TransGen r.Includes name name) ∧
    (forall name, name ∈ r.names -> exists pairs, r.expansion name = pure pairs ∧
      r.resolveSources name = .ok pairs ∧ r.expandSources name = .ok (pairs.map Prod.snd)) := by
  have hsound : r.Sound := by
    have hsound := sound_empty.run ops
    rw [hrun] at hsound
    exact hsound
  have hnames : r.names = events.filterMap Event.registeredName? := by
    have hgrows := run_grows sound_empty.aligned ops
    rw [hrun] at hgrows
    exact hgrows.names
  refine ⟨hsound.names_nodup, hnames, hsound.aligned,
    fun e he => ⟨hsound.keyed e he, hsound.effective e he⟩, hsound.consistent,
    fun _name _included h => hsound.includes_earlier h, hsound.acyclic, ?_⟩
  intro name hname
  rcases (hsound.expansion (.refl r) hname).right with ⟨pairs, hpairs⟩
  exact ⟨pairs, hpairs, resolveSources_of_expansion hpairs⟩

def notes : Descriptor :=
  ⟨"notes", .page, [.files "notes/*.md"], ⟨.fresh, [("title", Schema.string)]⟩⟩

def digest : Descriptor :=
  ⟨"digest", .data, [.included "notes", .files "digest.yml"], ⟨.fresh, []⟩⟩

def session : List Operation :=
  [.register digest, .register notes, .registerAll [digest, notes], .freeze, .register notes]

theorem session_invariant :
    exists r events, empty.run session = (r, events) ∧ r.names = ["notes", "digest"] ∧
      r.names = events.filterMap Event.registeredName? ∧
      (forall name, ¬ Relation.TransGen r.Includes name name) ∧
      exists patterns, r.expandSources "digest" = .ok patterns := by
  have hnames : (empty.run session).1.names = ["notes", "digest"] := by
    decide +kernel
  have hdigest : "digest" ∈ (empty.run session).1.names := by
    rw [hnames]
    exact List.mem_cons_of_mem _ List.mem_cons_self
  rcases run_invariant (Eq.refl (empty.run session)) with
    ⟨_hnodup, horder, _hkeys, _hschemas, _hconsistent, _hearlier, hacyclic, hexpands⟩
  rcases hexpands "digest" hdigest with ⟨pairs, _hexpansion, _hresolved, hpatterns⟩
  exact ⟨_, _, rfl, hnames, horder, hacyclic, _, hpatterns⟩

end Registry
end ContentSchema
