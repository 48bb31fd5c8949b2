import ContentSchema.Proofs.Schema.Assembly
import ContentSchema.Proofs.Validation.Places

/-!
# Tests during validation

Validation of a consistent schema can be stopped by nothing but a constraint that has no
answer for a value, a bare schema, or a list of allowed values that are no texts.  Well-formed
schemas have neither of the last two in them.  This module says which constraints are tested on
which values and shows that validation answers exactly when all these tests do.
-/

namespace ContentSchema
namespace Schema

/-- Validating the raw value tests the constraint on the typed value. -/
inductive Tested (c : Constraint) (v : Value) : Schema -> Value -> Prop
  | leaf {a : Attributes} {kind : PrimitiveKind} {constraints : List Constraint}
      {raw : Value} :
      c ∈ constraints -> kind.Reads raw v ->
      Tested c v (.primitive a kind constraints) raw
  | field {a : Attributes} {fields : List (String × Schema)} {f : String × Schema}
      {entries : List (Value × Value)} {raw : Value} :
      f ∈ fields -> Held entries f.1 raw -> Tested c v f.2 raw ->
      Tested c v (.object a fields) (.mapping entries)
  | element {a : Attributes} {element : Schema} {raw item : Value} {items : List Value} :
      sequenceItems? raw = some items -> item ∈ items -> Tested c v element item ->
      Tested c v (.array a (some element)) raw

theorem not_tested_null {c : Constraint} {v : Value} {s : Schema} :
    ¬ Tested c v s .null := by
  intro h
  cases h with
  | leaf _ hreads =>
      cases hreads
  | element hitems _ _ =>
      cases hitems

theorem Tested.occurs {c : Constraint} {v : Value} {s : Schema} {raw : Value}
    (h : Tested c v s raw) :
    exists a kind constraints place, Occurs (.primitive a kind constraints) s ∧
      c ∈ constraints ∧ PrimitiveKind.Reads kind place v := by
  induction h with
  | leaf hc hreads =>
      exact ⟨_, _, _, _, .here, hc, hreads⟩
  | field hf _hheld _htested ih =>
      rcases ih with ⟨a, kind, constraints, place, hoccurs, hc, hreads⟩
      exact ⟨a, kind, constraints, place, .field hf hoccurs, hc, hreads⟩
  | element _hitems _hitem _htested ih =>
      rcases ih with ⟨a, kind, constraints, place, hoccurs, hc, hreads⟩
      exact ⟨a, kind, constraints, place, .element hoccurs, hc, hreads⟩

/-!
## Faults come from leaves

Objects and arrays only pass on the faults of their fields and elements.
-/

theorem violations_eq_error {constraints : List Constraint} {typed raw : Value}
    {path : String} {fault : Fault}
    (h : violations constraints typed raw path = .error fault) :
    exists c, c ∈ constraints ∧ c.check typed = .error fault := by
  induction constraints with
  | nil =>
      cases h
  | cons c rest ih =>
      rcases Answer.bind_eq_error.mp h with hc | ⟨passed, _hpassed, h⟩
      · exact ⟨c, List.mem_cons_self, hc⟩
      rcases Answer.bind_eq_error.mp h with hrest | ⟨later, _hlater, h⟩
      · rcases ih hrest with ⟨d, hd, hfault⟩
        exact ⟨d, List.mem_cons_of_mem _ hd, hfault⟩
      · cases passed <;> cases h

theorem examineFields_eq_error {fields : List (String × Schema)}
    {entries : List (Value × Value)} {path : String} {fault : Fault}
    (hfields : forall f, f ∈ fields -> f.2.isSchema = true)
    (h : examineFields fields entries path = .error fault) :
    exists f raw, f ∈ fields ∧ Held entries f.1 raw ∧
      f.2.examine raw (FieldPath.joinField path f.1) = .error fault := by
  induction fields with
  | nil =>
      cases h
  | cons f rest ih =>
      rw [examineFields_cons (hfields f List.mem_cons_self)] at h
      rcases Answer.bind_eq_error.mp h with hfield | ⟨part, _hpart, h⟩
      · unfold examineField at hfield
        cases hcandidate : candidate? entries f.1 with
        | none =>
            rw [hcandidate] at hfield
            by_cases hrequired : f.2.isRequired = true <;> simp [hrequired] at hfield
        | some raw =>
            rw [hcandidate] at hfield
            have hheld := candidate?_eq_some_iff.mp hcandidate
            rcases Answer.bind_eq_error.mp hfield with hfield | ⟨found, _hfound, hfield⟩
            · exact ⟨f, raw, List.mem_cons_self, hheld, hfield⟩
            · cases hfield
      · rcases Answer.bind_eq_error.mp h with hlater | ⟨later, _hlater, h⟩
        · rcases ih (fun g hg => hfields g (List.mem_cons_of_mem _ hg)) hlater with
            ⟨g, raw, hg, hheld, hfault⟩
          exact ⟨g, raw, List.mem_cons_of_mem _ hg, hheld, hfault⟩
        · cases h

theorem examineItems_eq_error {examine : Value -> String -> Answer Findings}
    {path : String} {index : Nat} {items : List Value} {fault : Fault}
    (h : examineItems examine path index items = .error fault) :
    exists i item, items[i]? = some item ∧
      examine item (FieldPath.joinIndex path (index + i : Nat)) = .error fault := by
  induction items generalizing index with
  | nil =>
      cases h
  | cons item rest ih =>
      rcases Answer.bind_eq_error.mp h with hitem | ⟨found, _hfound, h⟩
      · exact ⟨0, item, rfl, hitem⟩
      rcases Answer.bind_eq_error.mp h with hlater | ⟨later, _hlater, h⟩
      · rcases ih hlater with ⟨i, other, hother, hfault⟩
        refine ⟨i + 1, other, hother, ?_⟩
        rw [Nat.add_comm i 1, ← Nat.add_assoc]
        exact hfault
      · cases h

/-- An enumeration in the tree lists a value that is no text and cannot be written out. -/
def ListsOther (s : Schema) : Prop :=
  exists a values v, Occurs (.enumeration a values) s ∧ v ∈ values ∧ v.text? = none

theorem ListsOther.of_occurs {s t : Schema} (h : ListsOther t) (ht : Occurs t s) :
    ListsOther s := by
  rcases h with ⟨a, values, v, hoccurs, hv, hnone⟩
  exact ⟨a, values, v, hoccurs.trans ht, hv, hnone⟩

theorem examine_enumeration_eq_error {a : Attributes} {values : List Value} {raw : Value}
    {path : String} {fault : Fault}
    (h : examine (.enumeration a values) raw path = .error fault) :
    fault = .wrongType ∧ ListsOther (.enumeration a values) := by
  unfold examine examineEnumeration at h
  split at h
  · split at h
    · cases h
    · rcases Answer.bind_eq_error.mp h with h | ⟨texts, _htexts, h⟩
      · rcases listedTexts_eq_error h with ⟨hfault, v, hv, hnone⟩
        exact ⟨hfault, a, values, v, .here, hv, hnone⟩
      · cases h
  · cases h

/-- How an examination is stopped: by a test without answer, by a bare schema at its place, or by
a list of values that cannot be written out. -/
inductive Stopped (s : Schema) (raw : Value) (path : String) : Fault -> Prop
  | test {c : Constraint} {v : Value} {fault : Fault} :
      Tested c v s raw -> c.check v = .error fault -> Stopped s raw path fault
  | bare {a : Attributes} {part : Value} {site : List Nat} {steps : List FieldPath.Step} :
      Embeds (.bare a) part site steps s raw ->
      Stopped s raw path (.definition
        (.notValidatable "SchemaNode" (FieldPath.descend path steps)))
  | list : ListsOther s -> Stopped s raw path .wrongType

theorem Stopped.field {a : Attributes} {fields : List (String × Schema)} {f : String × Schema}
    {entries : List (Value × Value)} {raw : Value} {path : String} {fault : Fault}
    (h : Stopped f.2 raw (FieldPath.joinField path f.1) fault) (hf : f ∈ fields)
    (hheld : Held entries f.1 raw) :
    Stopped (.object a fields) (.mapping entries) path fault := by
  cases h with
  | test htested hcheck => exact .test (.field hf hheld htested) hcheck
  | bare hembeds =>
      rcases List.mem_iff_getElem?.mp hf with ⟨i, hi⟩
      exact .bare (.field hi hheld hembeds)
  | list hother => exact .list (hother.of_occurs (.field hf .here))

theorem Stopped.element {a : Attributes} {element : Schema} {raw item : Value}
    {items : List Value} {i : Nat} {path : String} {fault : Fault}
    (h : Stopped element item (FieldPath.joinIndex path i) fault)
    (hitems : sequenceItems? raw = some items) (hitem : items[i]? = some item) :
    Stopped (.array a (some element)) raw path fault := by
  cases h with
  | test htested hcheck =>
      exact .test (.element hitems (List.mem_of_getElem? hitem) htested) hcheck
  | bare hembeds => exact .bare (.element hitems hitem hembeds)
  | list hother => exact .list (hother.of_occurs (.element .here))

theorem examine_eq_error {s : Schema} {raw : Value} {path : String} {fault : Fault}
    (hs : Everywhere Consistent s) (h : s.examine raw path = .error fault) :
    Stopped s raw path fault := by
  induction s using tree_induction generalizing raw path with
  | primitive a kind constraints =>
      cases hcoerce : coerce? kind raw with
      | none =>
          rw [examine_primitive_unread (coerce?_eq_none_iff.mp hcoerce)] at h
          cases h
      | some typed =>
          simp only [examine, examinePrimitive, hcoerce] at h
          rcases Answer.bind_eq_error.mp h with h | ⟨errors, _herrors, h⟩
          · rcases violations_eq_error h with ⟨c, hc, hfault⟩
            exact .test (.leaf hc (coerce?_eq_some_iff.mp hcoerce)) hfault
          · cases h
  | enumeration a values =>
      rcases examine_enumeration_eq_error h with ⟨hfault, hother⟩
      rw [hfault]
      exact .list hother
  | object a fields ih =>
      cases raw with
      | mapping entries =>
          rcases Answer.bind_eq_error.mp h with h | ⟨r, _hr, h⟩
          · rcases examineFields_eq_error (consistent_fields_areSchemas hs) h with
              ⟨f, raw, hf, hheld, hfault⟩
            exact (ih f hf (hs.field hf) hfault).field hf hheld
          · cases h
      | _ =>
          cases h
  | missing a =>
      cases hs.self
  | array a element ih =>
      cases hitems : sequenceItems? raw with
      | none =>
          rw [examine_array_other hitems] at h
          cases h
      | some items =>
          simp only [examine, hitems] at h
          rcases Answer.bind_eq_error.mp h with h | ⟨r, _hr, h⟩
          · rcases examineItems_eq_error h with ⟨i, item, hitem, hfault⟩
            rw [Nat.zero_add] at hfault
            exact (ih hs.element hfault).element hitems hitem
          · cases h
  | bare a =>
      injection h with h
      rw [← h]
      exact .bare .here
  | foreign v =>
      exact hs.self.elim

/-!
## Answers

An answer to the whole is an answer to every test on the way.
-/

theorem succeeds_of_tested {s : Schema} {raw v : Value} {path : String} {c : Constraint}
    (hs : Everywhere WellFormed s) (h : Answer.Succeeds (s.examine raw path))
    (htested : Tested c v s raw) : Answer.Succeeds (c.check v) := by
  induction htested generalizing path with
  | leaf hc hreads =>
      rcases h with ⟨found, hfound⟩
      rcases (examine_primitive_read hreads).mp hfound with ⟨errors, herrors, _⟩
      exact succeeds_violations_iff.mp ⟨errors, herrors⟩ c hc
  | field hf hheld _htested ih =>
      rcases h with ⟨found, hfound⟩
      rcases (examine_mapping (fields_areSchemas hs)).mp hfound with ⟨parts, hparts, _⟩
      rcases forall₂_of_mem hparts hf with ⟨part, _hmem, hpart⟩
      rcases hpart.of_held hheld with ⟨sub, hsub, _hpart⟩
      exact ih (hs.field hf) ⟨sub, hsub⟩
  | element hitems hitem _htested ih =>
      rcases h with ⟨found, hfound⟩
      rcases (examine_sequence hitems).mp hfound with ⟨parts, hparts, _⟩
      rcases List.mem_iff_getElem?.mp hitem with ⟨i, hi⟩
      have hindexed := List.mk_mem_zipIdx_iff_getElem?.mpr hi
      rcases forall₂_of_mem hparts hindexed with ⟨part, _hmem, hpart⟩
      exact ih hs.element ⟨part, hpart⟩

theorem validate_eq_error_of_consistent {s : Schema} {raw : Value} {fault : Fault}
    (hs : Everywhere Consistent s) (h : s.validate raw = .error fault) :
    Stopped s raw "" fault := by
  have hschema := hs.self.isSchema
  by_cases hexamined : raw ≠ .null ∨ s.isRequired = true
  · rw [validate_eq hschema hexamined] at h
    cases hfound : s.examine raw "" with
    | ok found =>
        rw [hfound] at h
        cases h
    | error other =>
        rw [hfound] at h
        injection h with h
        rw [h] at hfound
        exact examine_eq_error hs hfound
  · simp only [ne_eq, not_or, not_not, Bool.not_eq_true] at hexamined
    rw [hexamined.left, validate_null hschema hexamined.right] at h
    cases h

theorem validate_eq_error {s : Schema} {raw : Value} {fault : Fault}
    (hs : Everywhere WellFormed s) (h : s.validate raw = .error fault) :
    exists c v, Tested c v s raw ∧ c.check v = .error fault := by
  cases validate_eq_error_of_consistent (hs.imp fun _t => WellFormed.consistent) h with
  | test htested hcheck => exact ⟨_, _, htested, hcheck⟩
  | bare hembeds => exact (hs _ hembeds.occurs).shape.elim
  | list hother =>
      rcases hother with ⟨a, values, v, hoccurs, hv, hnone⟩
      rcases (hs _ hoccurs).shape.right.right v hv with ⟨t, ht⟩
      rw [ht] at hnone
      cases hnone

/-- Validation answers exactly when every constraint answers that it tests. -/
theorem succeeds_validate_iff {s : Schema} {raw : Value} (hs : Everywhere WellFormed s) :
    Answer.Succeeds (s.validate raw) <->
      forall c v, Tested c v s raw -> Answer.Succeeds (c.check v) := by
  have hschema := hs.self.isSchema
  constructor
  · intro h c v htested
    have hraw : raw ≠ .null := by
      intro hnull
      rw [hnull] at htested
      exact not_tested_null htested
    rcases h with ⟨result, hresult⟩
    rcases (validate_eq_ok hschema (Or.inl hraw)).mp hresult with ⟨found, hfound, _⟩
    exact succeeds_of_tested hs ⟨found, hfound⟩ htested
  · intro h
    rcases Answer.succeeds_or_error (s.validate raw) with hok | ⟨fault, hfault⟩
    · exact hok
    · rcases validate_eq_error hs hfault with ⟨c, v, htested, hcheck⟩
      have hanswers := h c v htested
      rw [hcheck] at hanswers
      exact absurd hanswers (Answer.not_succeeds_error fault)

theorem product_answers {raw v : Value} {c : Constraint} (h : Tested c v product raw) :
    Answer.Succeeds (c.check v) := by
  unfold product at h
  cases h with
  | field hf _hheld htested =>
      simp only [List.mem_cons, List.not_mem_nil, or_false] at hf
      rcases hf with hf | hf | hf | hf <;> subst hf
      · cases htested with
        | leaf hc hreads =>
            rw [List.mem_singleton.mp hc]
            cases hreads with
            | text s => exact ⟨_, rfl⟩
      · cases htested with
        | leaf hc hreads =>
            rw [List.mem_singleton.mp hc]
            cases hreads with
            | int n => exact ⟨_, rfl⟩
            | float x => exact ⟨_, rfl⟩
      · cases htested
      · cases htested with
        | element _ _ htested =>
            cases htested with
            | leaf hc _ => cases hc

end Schema
end ContentSchema
