import ContentSchema.Proofs.Collection.Pages
import ContentSchema.Proofs.Validation.Testing

/-!
# Refusals during validation

The check of a schema tree is meant to find everything that validation has no use for, but it
lets bare schemas pass.  This is the only gap: of a tree that passes the check, validation
refuses nothing but the bare schemas in it, and each of these is refused for some raw value.
Predicates that constraints bring with them may refuse what they like.
-/

namespace ContentSchema

/-!
## Refusals by tests
-/

theorem ConstraintTest.predicate_of_refuse {test : ConstraintTest} {v : Value}
    {e : DefinitionError} (h : test.holds v = refuse e) :
    exists predicate, test = .custom predicate ∧ predicate v = refuse e := by
  have hlookup {α : Type} {o : Option α} : orFault .wrongType o ≠ refuse e := by
    cases o <;> simp [orFault, refuse]
  have hone {α : Type} {o : Option α} {f : α -> Bool} :
      (do return f (← orFault .wrongType o) : Answer Bool) ≠ refuse e := by
    intro h
    rcases Answer.bind_eq_error.mp h with h | ⟨a, _ha, h⟩
    · exact hlookup h
    · cases h
  have htwo {α β : Type} {o : Option α} {o' : Option β} {f : α -> β -> Bool} :
      (do return f (← orFault .wrongType o) (← orFault .wrongType o') : Answer Bool) ≠
        refuse e := by
    intro h
    rcases Answer.bind_eq_error.mp h with h | ⟨a, _ha, h⟩
    · exact hlookup h
    · exact hone h
  cases test with
  | custom predicate =>
      exact ⟨predicate, rfl, h⟩
  | url =>
      rcases Answer.bind_eq_error.mp h with h | ⟨t, _ht, h⟩
      · exact absurd h hlookup
      · cases hread : Address.Url.read? t with
        | some u =>
            simp only [hread] at h
            cases h
        | none =>
            simp only [hread] at h
            cases h
  | whole =>
      cases h
  | minLength bound =>
      exact absurd h htwo
  | maxLength bound =>
      exact absurd h htwo
  | atLeast bound =>
      exact absurd h htwo
  | atMost bound =>
      exact absurd h htwo
  | _ =>
      exact absurd h hone

namespace Schema

/-- A predicate that is tested on the way makes the refusal. -/
def RefusedByPredicate (s : Schema) (raw : Value) (e : DefinitionError) : Prop :=
  exists c v predicate, Tested c v s raw ∧ c.test = .custom predicate ∧ predicate v = refuse e

def bareRefusal (steps : List FieldPath.Step) : DefinitionError :=
  .notValidatable "SchemaNode" (FieldPath.descend "" steps)

/-- Predicates of constraints have an answer or another fault, but they refuse nothing. -/
def PredicatesRefuseNothing (s : Schema) : Prop :=
  Everywhere (fun t => forall c, c ∈ t.ownConstraints -> forall predicate,
    c.test = .custom predicate -> forall v e, predicate v ≠ refuse e) s

/-- The answers to raw values refuse none but for a bare schema in the tree, or a predicate that
refuses; and for each bare schema there is a raw value that is refused where it stands.  So where
predicates refuse nothing, nothing at all is refused exactly when no bare schema occurs. -/
structure RefusesOnlyAtBare (s : Schema) (answer : Value -> Answer ValidationResult) :
    Prop where
  cause : forall raw e, answer raw = refuse e -> RefusedByPredicate s raw e ∨
    exists a part site steps, Embeds (.bare a) part site steps s raw ∧ e = bareRefusal steps
  reached : forall a, Occurs (.bare a) s -> exists raw part site steps,
    Embeds (.bare a) part site steps s raw ∧ answer raw = refuse (bareRefusal steps)
  nothing_iff : PredicatesRefuseNothing s ->
    ((forall raw e, answer raw ≠ refuse e) <-> forall a, ¬ Occurs (.bare a) s)

variable {s : Schema} {answer : Value -> Answer ValidationResult}

theorem not_refusedByPredicate (hs : PredicatesRefuseNothing s) {raw : Value}
    {e : DefinitionError} : ¬ RefusedByPredicate s raw e := by
  intro h
  rcases h with ⟨c, v, predicate, htested, hcustom, hrefuse⟩
  rcases htested.occurs with ⟨a, kind, constraints, _place, hoccurs, hc, _hreads⟩
  exact hs _ hoccurs c hc predicate hcustom v e hrefuse

theorem refusesOnlyAtBare_of
    (hcause : forall raw e, answer raw = refuse e -> RefusedByPredicate s raw e ∨
      exists a part site steps, Embeds (.bare a) part site steps s raw ∧ e = bareRefusal steps)
    (hreached : forall a, Occurs (.bare a) s -> exists raw part site steps,
      Embeds (.bare a) part site steps s raw ∧ answer raw = refuse (bareRefusal steps)) :
    RefusesOnlyAtBare s answer := by
  refine ⟨hcause, hreached, fun hpredicates => ⟨?_, ?_⟩⟩
  · intro h a hoccurs
    rcases hreached a hoccurs with ⟨raw, _part, _site, steps, _hembeds, hrefuse⟩
    exact h raw _ hrefuse
  · intro h raw e hrefuse
    rcases hcause raw e hrefuse with hpredicate | ⟨a, part, site, steps, hembeds, _he⟩
    · exact not_refusedByPredicate hpredicates hpredicate
    · exact h a hembeds.occurs

/-!
## Reaching a bare schema

A mapping with one entry or a list with one element at each step leads to any schema in a tree.
Nothing else is tested on the way, since other fields hold no value.
-/

theorem held_single {name : String} {raw : Value} (hraw : raw ≠ .null) :
    Held [(.text name, raw)] name raw := by
  have hname : ([(name, raw)].map Prod.fst).Nodup := List.nodup_singleton name
  exact held_ofMembers hname (List.mem_singleton_self (name, raw)) hraw

theorem examineFields_single {fields : List (String × Schema)} {f : String × Schema}
    {raw : Value} {path : String} {fault : Fault} (hnames : (fieldNames fields).Nodup)
    (hschemas : forall g, g ∈ fields -> g.2.isSchema = true) (hf : f ∈ fields)
    (hraw : raw ≠ .null)
    (hfault : f.2.examine raw (FieldPath.joinField path f.1) = .error fault) :
    examineFields fields [(.text f.1, raw)] path = .error fault := by
  cases hfound : examineFields fields [(.text f.1, raw)] path with
  | ok r =>
      have hheld : Held [(.text f.1, raw)] f.1 raw := held_single hraw
      rcases (examineFields_eq_ok hschemas).mp hfound with ⟨parts, hparts, _hr⟩
      rcases forall₂_of_mem hparts hf with ⟨part, _hmem, hpart⟩
      rcases hpart.of_held hheld with ⟨found, hfound, _hpart⟩
      rw [hfault] at hfound
      cases hfound
  | error other =>
      rcases examineFields_eq_error hschemas hfound with ⟨g, v, hg, hheld, hother⟩
      have hmember : (g.1, v) ∈ [(f.1, raw)] := mem_of_held_ofMembers hheld
      injection List.mem_singleton.mp hmember with hname hv
      rw [field_unique hnames hg hf hname, hv, hfault] at hother
      injection hother with hother
      rw [hother]

/-- Every bare schema in a consistent tree stops the examination of some value. -/
theorem exists_refused {a : Attributes} (hs : Everywhere Consistent s)
    (h : Occurs (.bare a) s) :
    exists raw part site steps, part ≠ .null ∧ Embeds (.bare a) part site steps s raw ∧
      forall path, s.examine raw path =
        refuse (.notValidatable "SchemaNode" (FieldPath.descend path steps)) := by
  induction h with
  | here =>
      exact ⟨.bool true, .bool true, [], [], by simp, .here, fun _path => rfl⟩
  | field hf _hoccurs ih =>
      rename_i b fields f
      rcases ih (hs.field hf) with ⟨raw, part, site, steps, hpart, hembeds, hrefuse⟩
      rcases List.mem_iff_getElem?.mp hf with ⟨i, hi⟩
      have hraw := hembeds.raw_ne_null hpart
      -- the other fields are absent, and none of them can refuse that
      refine ⟨.mapping [(.text f.1, raw)], part, i :: site, .field f.1 :: steps, hpart,
        .field hi (held_single hraw) hembeds, fun path => ?_⟩
      have hfields := examineFields_single hs.self (consistent_fields_areSchemas hs) hf hraw
        (hrefuse (FieldPath.joinField path f.1))
      rw [examine, hfields]
      rfl
  | element _hoccurs ih =>
      rename_i b element
      rcases ih hs.element with ⟨raw, part, site, steps, hpart, hembeds, hrefuse⟩
      refine ⟨.list [raw], part, 0 :: site, .element 0 :: steps, hpart,
        .element rfl rfl hembeds, fun path => ?_⟩
      have hitem : element.examine raw (FieldPath.joinIndex path (0 : Nat)) = _ := hrefuse _
      simp only [examine, sequenceItems?, examineItems, hitem]
      rfl

/-!
## Trees that pass the check
-/

theorem consistent_refusesOnlyAtBare (hs : Everywhere Consistent s) :
    RefusesOnlyAtBare s s.validate := by
  refine refusesOnlyAtBare_of (fun raw e hrefuse => ?_) (fun a hoccurs => ?_)
  · cases validate_eq_error_of_consistent hs hrefuse with
    | test htested hcheck =>
        rcases ConstraintTest.predicate_of_refuse hcheck with ⟨predicate, hcustom, hpredicate⟩
        exact Or.inl ⟨_, _, predicate, htested, hcustom, hpredicate⟩
    | bare hembeds => exact Or.inr ⟨_, _, _, _, hembeds, rfl⟩
  · rcases exists_refused hs hoccurs with ⟨raw, part, site, steps, hpart, hembeds, hrefuse⟩
    refine ⟨raw, part, site, steps, hembeds, ?_⟩
    rw [validate_eq hs.self.isSchema (Or.inl (hembeds.raw_ne_null hpart)), hrefuse ""]
    rfl

/-!
## Registered collections

Fields that are added behind the declared ones bring in neither tests nor bare schemas, so they
are no cause of refusals.
-/

section Added

variable {a : Attributes} {fields added : List (String × Schema)} {raw : Value}

def PlainFields (fields : List (String × Schema)) : Prop :=
  forall f, f ∈ fields -> exists a kind, f.2 = .primitive a kind []

theorem tested_declared (hadded : PlainFields added) {c : Constraint} {v : Value}
    (h : Tested c v (.object a (fields ++ added)) raw) :
    Tested c v (.object a fields) raw := by
  cases h with
  | field hf hheld htested =>
      rcases List.mem_append.mp hf with hf | hf
      · exact .field hf hheld htested
      · rcases hadded _ hf with ⟨b, kind, hplain⟩
        rw [hplain] at htested
        cases htested with
        | leaf hc _hreads =>
            cases hc

theorem embeds_declared (hadded : PlainFields added) {b : Attributes} {part : Value}
    {site : List Nat} {steps : List FieldPath.Step}
    (h : Embeds (.bare b) part site steps (.object a (fields ++ added)) raw) :
    Embeds (.bare b) part site steps (.object a fields) raw := by
  cases h with
  | field hi hheld hbelow =>
      rename_i f entries sub i site steps
      by_cases hdeclared : i < fields.length
      · rw [List.getElem?_append_left hdeclared] at hi
        exact .field hi hheld hbelow
      · rw [List.getElem?_append_right (Nat.le_of_not_lt hdeclared)] at hi
        rcases hadded f (List.mem_of_getElem? hi) with ⟨c, kind, hplain⟩
        rw [hplain] at hbelow
        cases hbelow

theorem RefusesOnlyAtBare.declared (hadded : PlainFields added)
    (h : RefusesOnlyAtBare (.object a (fields ++ added)) answer) :
    RefusesOnlyAtBare (.object a fields) answer := by
  refine refusesOnlyAtBare_of (fun raw e hrefuse => ?_) (fun b hoccurs => ?_)
  · rcases h.cause raw e hrefuse with
      ⟨c, v, predicate, htested, hpredicate⟩ | ⟨b, part, site, steps, hembeds, he⟩
    · exact Or.inl ⟨c, v, predicate, tested_declared hadded htested, hpredicate⟩
    · exact Or.inr ⟨b, part, site, steps, embeds_declared hadded hembeds, he⟩
  · cases hoccurs with
    | field hf hoccurs =>
        rcases h.reached b (.field (List.mem_append_left _ hf) hoccurs) with
          ⟨raw, part, site, steps, hembeds, hrefuse⟩
        exact ⟨raw, part, site, steps, embeds_declared hadded hembeds, hrefuse⟩

end Added

end Schema

namespace Registry

/-- Of a tree that passes the check, and of the schema that a registered collection declares,
validation refuses nothing but bare schemas. -/
theorem check_admits_only_bare (s : Schema) (path : String) (ops : List Operation)
    (name : String) :
    (s.check path = .ok s -> s.RefusesOnlyAtBare s.validate) ∧
    (forall r events d, empty.run ops = (r, events) -> r.resolve name = .ok d ->
      d.root.toSchema.RefusesOnlyAtBare (r.validate name)) := by
  constructor
  · intro hcheck
    exact Schema.consistent_refusesOnlyAtBare (Schema.check_eq_ok_iff.mp hcheck)
  · intro r events d hrun hd
    have hsound := sound_of_run hrun
    rw [hsound.validate_eq hd]
    refine Schema.RefusesOnlyAtBare.declared ?_
      (Schema.consistent_refusesOnlyAtBare (hsound.consistent_effective hd))
    intro f hf
    rcases Page.fields_plain (d.addedFields_sublist.subset hf) with ⟨a, kind, hplain, _⟩
    exact ⟨a, kind, hplain⟩

theorem notes_never_refused :
    exists r events, empty.run session = (r, events) ∧ r.resolve "notes" = .ok notes ∧
      notes.root.toSchema.check "notes" = .ok notes.root.toSchema ∧
      (forall raw e, notes.root.toSchema.validate raw ≠ refuse e) ∧
      forall raw e, r.validate "notes" raw ≠ refuse e := by
  have hresolve : (empty.run session).1.resolve "notes" = .ok notes := by
    with_unfolding_all rfl
  have hcheck : notes.root.toSchema.check "notes" = .ok notes.root.toSchema := by
    with_unfolding_all rfl
  have hpredicates : notes.root.toSchema.PredicatesRefuseNothing := by
    refine Schema.Everywhere.object (fun c hc => by cases hc) (fun f hf => ?_)
    rw [List.mem_singleton.mp hf]
    exact Schema.Everywhere.leaf (fun c hc => by cases hc) (by simp [Schema.string, Schema.ofKind])
      (by simp [Schema.string, Schema.ofKind])
  have hbare : forall a, ¬ Schema.Occurs (.bare a) notes.root.toSchema := by
    intro a h
    cases h with
    | field hf h =>
        rw [List.mem_singleton.mp hf] at h
        cases h
  rcases check_admits_only_bare notes.root.toSchema "notes" session "notes" with
    ⟨htree, hcollection⟩
  have hown := (htree hcheck).nothing_iff hpredicates
  have hregistered := (hcollection _ _ _ rfl hresolve).nothing_iff hpredicates
  exact ⟨_, _, rfl, hresolve, hcheck, hown.mpr hbare, hregistered.mpr hbare⟩

def anything : Descriptor :=
  ⟨"anything", .data, [.files "*.yml"], ⟨.fresh, [("field", .bare .fresh)]⟩⟩

/-- The check lets the collection pass and the registry takes it, but a document that holds the
field is refused. -/
theorem anything_refused :
    exists r events, empty.run [.register anything] = (r, events) ∧
      r.resolve "anything" = .ok anything ∧
      anything.root.toSchema.check "anything" = .ok anything.root.toSchema ∧
      anything.root.toSchema.validate (.mapping [(.text "field", .int 1)]) =
        refuse (.notValidatable "SchemaNode" "field") ∧
      r.validate "anything" (.mapping [(.text "field", .int 1)]) =
        refuse (.notValidatable "SchemaNode" "field") := by
  refine ⟨_, _, rfl, ?_, ?_, ?_, ?_⟩ <;> with_unfolding_all rfl

end Registry
end ContentSchema
