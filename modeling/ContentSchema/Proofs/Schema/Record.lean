import ContentSchema.Proofs.Schema.Shape

/-!
# Records

The typed values of a schema.  A leaf has a value of its kind that passes every constraint,
an object has a mapping of some of its fields in declared order, and an array has a tuple.
There is no null in a record.
-/

namespace ContentSchema

namespace Schema

/-!
## Records of a schema
-/

inductive IsRecord : Schema -> Value -> Prop
  | primitive {a : Attributes} {kind : PrimitiveKind} {constraints : List Constraint}
      {v : Value} :
      kind.Holds v -> (forall c, c ∈ constraints -> c.check v = .ok true) ->
      IsRecord (.primitive a kind constraints) v
  | enumeration {a : Attributes} {values : List Value} {t : String} :
      .text t ∈ values -> IsRecord (.enumeration a values) (.text t)
  | object {a : Attributes} {fields : List (String × Schema)}
      {members : List (String × Value)} :
      (members.map Prod.fst).Sublist (fieldNames fields) ->
      (forall f, f ∈ fields -> f.1 ∉ members.map Prod.fst -> f.2.mayBeLeftOut = true) ->
      (forall f m, f ∈ fields -> m ∈ members -> f.1 = m.1 -> IsRecord f.2 m.2) ->
      IsRecord (.object a fields) (.ofMembers members)
  | array {a : Attributes} {element : Schema} {items : List Value} :
      (forall item, item ∈ items -> IsRecord element item) ->
      IsRecord (.array a (some element)) (.tuple items)

theorem isRecord_ofMembers {a : Attributes} {fields : List (String × Schema)}
    {members : List (String × Value)}
    (h : IsRecord (.object a fields) (.ofMembers members)) :
    (members.map Prod.fst).Sublist (fieldNames fields) ∧
    (forall f, f ∈ fields -> f.1 ∉ members.map Prod.fst -> f.2.mayBeLeftOut = true) ∧
    forall f m, f ∈ fields -> m ∈ members -> f.1 = m.1 -> IsRecord f.2 m.2 := by
  generalize hv : Value.ofMembers members = v at h
  cases h with
  | object hnames hleft hmembers =>
      have heq := Value.ofMembers_injective hv
      subst heq
      exact ⟨hnames, hleft, hmembers⟩

theorem exists_field {fields : List (String × Schema)} {members : List (String × Value)}
    (h : (members.map Prod.fst).Sublist (fieldNames fields)) {m : String × Value}
    (hm : m ∈ members) : exists f, f ∈ fields ∧ f.1 = m.1 := by
  have hname := h.subset (List.mem_map.mpr ⟨m, hm, rfl⟩)
  rcases List.mem_map.mp hname with ⟨f, hf, hfm⟩
  exact ⟨f, hf, hfm⟩

theorem IsRecord.ne_null {s : Schema} {v : Value} (h : s.IsRecord v) : v ≠ .null := by
  cases h with
  | primitive hholds _ =>
      exact hholds.ne_null
  | _ =>
      simp [Value.ofMembers]

theorem IsRecord.no_null_inside {s : Schema} {v : Value} (h : s.IsRecord v) :
    ¬ Value.Inside .null v := by
  induction h with
  | primitive hholds _ =>
      intro hinside
      cases hholds <;> cases hinside
  | enumeration _ =>
      intro hinside
      cases hinside
  | object hnames _ _ ih =>
      intro hinside
      cases hinside with
      | key he hinside =>
          rcases List.mem_map.mp he with ⟨m, _hm, hme⟩
          rw [← hme] at hinside
          cases hinside
      | entry he hinside =>
          rcases List.mem_map.mp he with ⟨m, hm, hme⟩
          rw [← hme] at hinside
          rcases exists_field hnames hm with ⟨f, hf, hfm⟩
          exact ih f m hf hm hfm hinside
  | array _ ih =>
      intro hinside
      cases hinside with
      | tuple hitem hinside =>
          exact ih _ hitem hinside

theorem fallback_isRecord_of_fresh {s : Schema} (h : s.attributes? = some .fresh) {d : Value}
    (hd : s.fallback? = some d) : s.IsRecord d := by
  rw [fallback?_of_fresh h] at hd
  cases hd

end Schema
end ContentSchema
