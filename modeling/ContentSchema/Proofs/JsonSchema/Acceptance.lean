import ContentSchema.Proofs.JsonSchema.Rendering
import Mathlib.Algebra.Order.Ring.Rat

/-!
# What rendering accepts

A value that validation accepts satisfies the document that its schema is rendered as.  Each
keyword is met on its own: one of a leaf comes from its kind or from a constraint that the
value has passed, and one of an object or an array hands the parts of the value to documents
that they satisfy in turn.  So it does not matter which of several constraints is left under
a keyword.
-/

namespace ContentSchema

theorem Quantity.le_of_eq {a b : Quantity} (h : a.eq b = true) :
    a.le b = true ∧ b.le a = true := by
  cases a <;> cases b <;> simp [Quantity.eq] at h
  · subst h
    simp [Quantity.le, Quantity.eq]
  · subst h
    simp [Quantity.le, Quantity.eq]

theorem Quantity.rational_le {a b : Rat} :
    (Quantity.rational a).le (.rational b) = true <-> a ≤ b := by
  simp [Quantity.le, Quantity.lt, Quantity.eq, le_iff_lt_or_eq]

theorem Value.quantity_of_same_int {n : Int} {v : Value} (h : (Value.int n).same v = true) :
    exists q, v.quantity? = some q ∧ (Quantity.rational n).eq q = true := by
  cases hq : v.quantity? with
  | some q =>
      refine ⟨q, rfl, ?_⟩
      cases v <;> simp [Value.quantity?] at hq
      all_goals
        simpa [Value.same, Value.sameScalar, Value.quantity?, hq] using h
  | none =>
      cases v <;> simp [Value.same, Value.sameScalar, Value.quantity?] at h hq

namespace JsonSchema

/-!
## Keywords of leaves
-/

theorem bounds_of_within {bound : Value} {q m : Quantity} {measured : Option Quantity}
    {within : Quantity -> Quantity -> Bool} (hbound : bound.quantity? = some q)
    (hmeasured : measured = some m) (hwithin : within q m = true) :
    Bounds measured within bound := by
  refine ⟨q, hbound, ?_⟩
  intro size hsize
  rw [hmeasured] at hsize
  injection hsize with hsize
  rw [← hsize]
  exact hwithin

theorem meets_exactLength {n : Value} {t : String}
    (h : (Constraint.exactLength n).check (.text t) = .ok true) :
    Meets "minLength" n (.text t) ∧ Meets "maxLength" n (.text t) := by
  have hsame : (Value.int t.length).same n = true := by
    injection h
  rcases Value.quantity_of_same_int hsame with ⟨q, hq, heq⟩
  have hle := Quantity.le_of_eq heq
  exact ⟨bounds_of_within hq rfl hle.right, bounds_of_within hq rfl hle.left⟩

theorem numberOf?_of_holds {v : Value} (h : PrimitiveKind.Holds .number v) :
    exists q, v.quantity? = some q ∧ numberOf? v = some q := by
  cases h with
  | int n => exact ⟨_, rfl, rfl⟩
  | float x => exact ⟨_, rfl, rfl⟩

/-- The keywords of a constraint are met by what passes the constraint. -/
theorem meets_of_emits {c : Constraint} {k : String × Value} (h : Emits c k)
    (hbounds : c.HasNumericBounds) {kind : PrimitiveKind}
    (happlies : c.appliesTo.contains kind.name = true) {raw v : Value}
    (hreads : kind.Reads raw v) (hcheck : c.check v = .ok true) : Meets k.1 k.2 raw := by
  have htext (hkind : kind = .string) : exists t, raw = .text t ∧ v = .text t := by
    subst hkind
    cases hreads with
    | text t => exact ⟨t, rfl, rfl⟩
  have hnumber (hkind : kind = .number) :
      exists q, v.quantity? = some q ∧ numberOf? raw = some q := by
    subst hkind
    have hholds := hreads.holds
    cases hreads <;> exact numberOf?_of_holds hholds
  cases h with
  | nonEmpty =>
      rcases htext (Constraint.eq_string_of_contains happlies) with ⟨t, hraw, hv⟩
      subst hraw hv
      injection hcheck with hcheck
      have hlength : (1 : Rat) ≤ t.length := by
        exact_mod_cast of_decide_eq_true hcheck
      exact bounds_of_within rfl rfl (Quantity.rational_le.mpr (by exact_mod_cast hlength))
  | minLength n =>
      rcases htext (Constraint.eq_string_of_contains happlies) with ⟨t, hraw, hv⟩
      rcases hbounds ("min", n) List.mem_cons_self (by simp) with ⟨q, hq⟩
      subst hraw hv
      rw [Constraint.check_minLength hq] at hcheck
      injection hcheck with hcheck
      exact bounds_of_within hq rfl hcheck
  | maxLength n =>
      rcases htext (Constraint.eq_string_of_contains happlies) with ⟨t, hraw, hv⟩
      rcases hbounds ("max", n) List.mem_cons_self (by simp) with ⟨q, hq⟩
      subst hraw hv
      rw [Constraint.check_maxLength hq] at hcheck
      injection hcheck with hcheck
      exact bounds_of_within hq rfl hcheck
  | leastLength n =>
      rcases htext (Constraint.eq_string_of_contains happlies) with ⟨t, hraw, hv⟩
      subst hraw hv
      exact (meets_exactLength hcheck).left
  | greatestLength n =>
      rcases htext (Constraint.eq_string_of_contains happlies) with ⟨t, hraw, hv⟩
      subst hraw hv
      exact (meets_exactLength hcheck).right
  | url =>
      trivial
  | email =>
      trivial
  | pattern hpattern =>
      rcases Constraint.matching_eq_ok.mp hpattern with ⟨tree, htree, hc⟩
      rw [hc] at happlies hcheck
      rcases htext (Constraint.eq_string_of_contains happlies) with ⟨t, hraw, hv⟩
      subst hraw hv
      injection hcheck with hcheck
      refine ⟨_, tree, rfl, htree, ?_⟩
      intro other hother
      injection hother with hother
      rw [← hother]
      exact hcheck
  | positive =>
      rcases hnumber (Constraint.eq_number_of_contains happlies) with ⟨q, hq, hraw⟩
      rw [Constraint.check_positive hq] at hcheck
      injection hcheck with hcheck
      exact bounds_of_within rfl hraw hcheck
  | nonnegative =>
      rcases hnumber (Constraint.eq_number_of_contains happlies) with ⟨q, hq, hraw⟩
      rw [Constraint.check_nonnegative hq] at hcheck
      injection hcheck with hcheck
      exact bounds_of_within rfl hraw hcheck
  | integer =>
      have hkind := Constraint.eq_number_of_contains happlies
      subst hkind
      injection hcheck with hcheck
      cases hreads with
      | int n => exact ⟨_, rfl, .integer n⟩
      | float x => exact ⟨_, rfl, .wholeFloat hcheck⟩
  | atLeast n =>
      rcases hnumber (Constraint.eq_number_of_contains happlies) with ⟨q, hq, hraw⟩
      rcases hbounds ("min", n) List.mem_cons_self (by simp) with ⟨p, hp⟩
      rw [Constraint.check_atLeast hp hq] at hcheck
      injection hcheck with hcheck
      exact bounds_of_within hp hraw hcheck
  | atMost n =>
      rcases hnumber (Constraint.eq_number_of_contains happlies) with ⟨q, hq, hraw⟩
      rcases hbounds ("max", n) List.mem_cons_self (by simp) with ⟨p, hp⟩
      rw [Constraint.check_atMost hp hq] at hcheck
      injection hcheck with hcheck
      exact bounds_of_within hp hraw hcheck

theorem meets_of_mem_kindKeywords {kind : PrimitiveKind} {raw v : Value} (hraw : IsJson raw)
    (hreads : kind.Reads raw v) {k : String × Value} (hk : k ∈ kindKeywords kind) :
    Meets k.1 k.2 raw := by
  cases hreads with
  | text t =>
      rw [List.mem_singleton.mp hk]
      exact ⟨_, rfl, .string t⟩
  | int n =>
      rw [List.mem_singleton.mp hk]
      exact ⟨_, rfl, .int n⟩
  | float x =>
      rw [List.mem_singleton.mp hk]
      exact ⟨_, rfl, .float x⟩
  | bool b =>
      rw [List.mem_singleton.mp hk]
      exact ⟨_, rfl, .boolean b⟩
  | date d =>
      cases hraw
  | moment t =>
      cases hraw
  | dateText _ =>
      rcases List.mem_cons.mp hk with hk | hk
      · rw [hk]
        exact ⟨_, rfl, .string _⟩
      · rw [List.mem_singleton.mp hk]
        trivial

/-!
## Documents
-/

theorem satisfies_toValue_iff {keywords : Keywords} {v : Value} :
    Satisfies (toValue keywords) v <->
      (forall k, k ∈ keywords -> Meets k.1 k.2 v) ∧
      (forall properties property entries w, ("properties", .ofMembers properties) ∈ keywords ->
        property ∈ properties -> v = .mapping entries ->
        Value.field? entries property.1 = some w -> Satisfies property.2 w) ∧
      (forall items elements w, ("items", items) ∈ keywords ->
        Schema.sequenceItems? v = some elements -> w ∈ elements -> Satisfies items w) := by
  constructor
  · intro h
    generalize hdocument : toValue keywords = document at h
    cases h with
    | document hmeets hproperties hitems =>
        rw [Value.ofMembers_injective hdocument]
        exact ⟨hmeets, hproperties, hitems⟩
  · intro h
    exact .document h.left h.right.left h.right.right

/-- A keyword that is about the value itself and about no part of it. -/
def IsLocal (keyword : String) : Prop :=
  keyword ≠ "properties" ∧ keyword ≠ "items"

theorem satisfies_of_local {keywords : Keywords} {v : Value}
    (h : forall k, k ∈ keywords -> Meets k.1 k.2 v ∧ IsLocal k.1) :
    Satisfies (toValue keywords) v := by
  refine .document (fun k hk => (h k hk).left) ?_ ?_
  · intro properties property entries w hk
    exact absurd rfl (h _ hk).right.left
  · intro items elements w hk
    exact absurd rfl (h _ hk).right.right

theorem Emits.isLocal {c : Constraint} {k : String × Value} (h : Emits c k) : IsLocal k.1 := by
  cases h <;> simp [IsLocal]

theorem isLocal_of_mem_kindKeywords {kind : PrimitiveKind} {k : String × Value}
    (hk : k ∈ kindKeywords kind) : IsLocal k.1 := by
  cases kind <;> simp [kindKeywords] at hk
  all_goals
    rcases hk with rfl | rfl <;> simp [IsLocal]

theorem annotations_demand_nothing {a : Attributes} {keywords : Keywords}
    (h : attributeKeywords a = .ok keywords) (v : Value) {k : String × Value}
    (hk : k ∈ keywords) : Meets k.1 k.2 v ∧ IsLocal k.1 := by
  rcases name_of_mem_attributeKeywords h hk with hname | hname | hname
  · rw [hname]
    exact ⟨trivial, by simp [IsLocal]⟩
  · rw [hname]
    exact ⟨trivial, by simp [IsLocal]⟩
  · rw [hname]
    exact ⟨trivial, by simp [IsLocal]⟩

/-!
## Properties
-/

theorem renderFields_eq_ok {fields : List (String × Schema)}
    {properties : List (String × Value)} (h : renderFields fields = .ok properties) :
    List.Forall₂ (fun f property => property.1 = f.1 ∧
      exists keywords, render f.2 = .ok keywords ∧ property.2 = toValue keywords)
      fields properties := by
  induction fields generalizing properties with
  | nil =>
      rw [← Answer.pure_eq_ok.mp h]
      exact .nil
  | cons f rest ih =>
      rcases Answer.bind_eq_ok.mp h with ⟨keywords, hkeywords, h⟩
      rcases Answer.bind_eq_ok.mp h with ⟨later, hlater, h⟩
      rw [← Answer.pure_eq_ok.mp h]
      exact .cons ⟨rfl, keywords, hkeywords, rfl⟩ (ih hlater)

theorem keys_of_renderFields {fields : List (String × Schema)}
    {properties : List (String × Value)} (h : renderFields fields = .ok properties) :
    Entries.keys properties = Schema.fieldNames fields := by
  have hparts := renderFields_eq_ok h
  clear h
  induction hparts with
  | nil =>
      rfl
  | cons hpart _hrest ih =>
      show _ :: _ = _ :: _
      rw [hpart.left]
      exact congrArg _ ih

theorem exists_field_of_property {fields : List (String × Schema)}
    {properties : List (String × Value)} (h : renderFields fields = .ok properties)
    {property : String × Value} (hproperty : property ∈ properties) :
    exists f keywords, f ∈ fields ∧ property.1 = f.1 ∧ render f.2 = .ok keywords ∧
      property.2 = toValue keywords := by
  rcases forall₂_of_mem (renderFields_eq_ok h).flip hproperty with
    ⟨f, hf, hname, keywords, hkeywords, hdocument⟩
  exact ⟨f, keywords, hf, hname, hkeywords, hdocument⟩

theorem mem_requiredNames {fields : List (String × Schema)} {name : String}
    (h : name ∈ requiredNames fields) :
    exists f, f ∈ fields ∧ f.2.isRequired = true ∧ name = f.1 := by
  rcases List.mem_map.mp h with ⟨f, hf, hname⟩
  rcases List.mem_filter.mp hf with ⟨hf, hrequired⟩
  exact ⟨f, hf, hrequired, hname.symm⟩

theorem IsJson.of_field {entries : List (Value × Value)} {name : String} {w : Value}
    (h : IsJson (.mapping entries)) (hw : Value.field? entries name = some w) :
    IsJson w ∧ w ≠ .null := by
  rcases Option.map_eq_some_iff.mp hw with ⟨e, he, hew⟩
  have hmem := List.mem_of_find?_eq_some he
  rw [← hew]
  cases h with
  | mapping _hkeys hnull hjson =>
      exact ⟨hjson e hmem, hnull e hmem⟩

theorem IsJson.of_items {v w : Value} {items : List Value} (h : IsJson v)
    (hitems : Schema.sequenceItems? v = some items) (hw : w ∈ items) : IsJson w := by
  cases h with
  | list hjson =>
      injection hitems with hitems
      exact hjson w (hitems ▸ hw)
  | _ =>
      cases hitems

/-!
## Parts
-/

theorem satisfies_object {fields : List (String × Schema)} {properties : List (String × Value)}
    {a : Attributes} {annotations : Keywords} {entries : List (Value × Value)}
    (hannotations : attributeKeywords a = .ok annotations)
    (hrequired : forall f, f ∈ fields -> f.2.isRequired = true ->
      exists w, Value.field? entries f.1 = some w)
    (hproperties : forall property w, property ∈ properties ->
      Value.field? entries property.1 = some w -> Satisfies property.2 w) :
    Satisfies (toValue ([("type", .text "object"), ("properties", toValue properties)] ++
      requiredKeywords fields ++ annotations)) (.mapping entries) := by
  have hcases {k : String × Value} (hk : k ∈ [("type", .text "object"),
      ("properties", toValue properties)] ++ requiredKeywords fields ++ annotations) :
      k = ("type", .text "object") ∨ k = ("properties", toValue properties) ∨
        k ∈ requiredKeywords fields ∨ k ∈ annotations := by
    simpa [or_assoc] using hk
  refine .document ?_ ?_ ?_
  · intro k hk
    rcases hcases hk with hk | hk | hk | hk
    · rw [hk]
      exact ⟨_, rfl, .object entries⟩
    · rw [hk]
      exact ⟨properties, rfl⟩
    · rw [mem_requiredKeywords hk]
      refine ⟨_, rfl, ?_⟩
      intro found hfound name hname
      injection hfound with hfound
      rcases mem_requiredNames hname with ⟨f, hf, hfrequired, hfname⟩
      rw [← hfound, hfname]
      exact hrequired f hf hfrequired
    · exact (annotations_demand_nothing hannotations _ hk).left
  · intro found property others w hk hproperty hothers hw
    injection hothers with hothers
    rw [← hothers] at hw
    have hfound : found = properties := by
      rcases hcases hk with hk | hk | hk | hk
      · simp at hk
      · injection hk with _hname hdocument
        exact Value.ofMembers_injective hdocument
      · injection mem_requiredKeywords hk with hname _hdocument
        simp at hname
      · exact absurd rfl (annotations_demand_nothing hannotations .null hk).right.left
    exact hproperties property w (hfound ▸ hproperty) hw
  · intro items elements w _hk helements
    cases helements

theorem satisfies_array {keywords : Keywords} {a : Attributes}
    {annotations : Keywords} {v : Value} {items : List Value}
    (hannotations : attributeKeywords a = .ok annotations)
    (hv : Schema.sequenceItems? v = some items)
    (hitems : forall w, w ∈ items -> Satisfies (toValue keywords) w) :
    Satisfies (toValue ([("type", .text "array"), ("items", toValue keywords)] ++
      annotations)) v := by
  have hcases {k : String × Value} (hk : k ∈ [("type", .text "array"),
      ("items", toValue keywords)] ++ annotations) :
      k = ("type", .text "array") ∨ k = ("items", toValue keywords) ∨ k ∈ annotations := by
    simpa using hk
  refine .document ?_ ?_ ?_
  · intro k hk
    rcases hcases hk with hk | hk | hk
    · rw [hk]
      exact ⟨_, rfl, .array hv⟩
    · rw [hk]
      exact ⟨keywords, rfl⟩
    · exact (annotations_demand_nothing hannotations _ hk).left
  · intro found property entries w _hk _hproperty hentries
    rw [hentries] at hv
    cases hv
  · intro found elements w hk helements hw
    rw [hv] at helements
    injection helements with helements
    have hfound : found = toValue keywords := by
      rcases hcases hk with hk | hk | hk
      · simp at hk
      · injection hk
      · exact absurd rfl (annotations_demand_nothing hannotations .null hk).right.right
    rw [hfound]
    exact hitems w (helements ▸ hw)

/-!
## Trees
-/

/-- A value that a schema mirrors satisfies the document of the schema. -/
theorem satisfies_of_mirrors {s : Schema} {raw v : Value} {keywords : Keywords}
    (h : Schema.Mirrors s raw v) (hs : s.Everywhere Schema.WellFormed)
    (hconstraints : s.Everywhere (fun t => forall c, c ∈ t.ownConstraints ->
      c.BuiltIn ∧ c.HasNumericBounds))
    (hraw : IsJson raw) (hkeywords : render s = .ok keywords) :
    Satisfies (toValue keywords) raw := by
  induction h generalizing keywords with
  | primitive hreads hchecks =>
      rcases render_eq_ok hkeywords with ⟨_a, _shape, annotations, _ha, hshape, hannotations, hall⟩
      cases hshape
      rename_i hshape
      rw [hall]
      have hbuiltIn := fun c hc => (hconstraints.self c hc).left
      apply satisfies_of_local
      intro k hk
      rcases List.mem_append.mp hk with hk | hk
      · rcases mem_of_mem_constraintKeywords hbuiltIn hshape hk with hk | ⟨c, hc, hemits⟩
        · exact ⟨meets_of_mem_kindKeywords hraw hreads hk, isLocal_of_mem_kindKeywords hk⟩
        · have hmeets := meets_of_emits hemits (hconstraints.self c hc).right
            (hs.self.shape c hc) hreads (hchecks c hc)
          exact ⟨hmeets, hemits.isLocal⟩
      · exact annotations_demand_nothing hannotations _ hk
  | enumeration hlisted =>
      rename_i a values t
      rcases render_eq_ok hkeywords with ⟨_a, _shape, annotations, _ha, hshape, hannotations, hall⟩
      cases hshape
      rw [hall]
      apply satisfies_of_local
      intro k hk
      rcases List.mem_append.mp hk with hk | hk
      · rcases List.mem_cons.mp hk with hk | hk
        · rw [hk]
          exact ⟨⟨_, rfl, .string t⟩, by simp [IsLocal]⟩
        · rw [List.mem_singleton.mp hk]
          exact ⟨⟨values, rfl, _, hlisted, Value.text_beq_iff.mpr rfl⟩, by simp [IsLocal]⟩
      · exact annotations_demand_nothing hannotations _ hk
  | object hnames hrequired _hmirrors _hfilled ih =>
      rcases render_eq_ok hkeywords with ⟨_a, _shape, annotations, _ha, hshape, hannotations, hall⟩
      cases hshape
      rename_i properties hproperties
      have hdistinct : (Entries.keys properties).Nodup := by
        rw [keys_of_renderFields hproperties]
        exact Schema.nodup_of_mem_fields hs
      rw [hall, Entries.ofList_of_nodup hdistinct]
      refine satisfies_object hannotations ?_ ?_
      · intro f hf hfrequired
        rcases hrequired f hf hfrequired with ⟨w, hheld⟩
        exact ⟨w, hheld.left⟩
      · intro property w hproperty hw
        rcases exists_field_of_property hproperties hproperty with
          ⟨f, document, hf, hname, hdocument, hvalue⟩
        rw [hname] at hw
        have hjson := hraw.of_field hw
        -- no entry is null, so the field holds what stands under its name
        have hheld : Schema.Held _ f.1 w := ⟨hw, hjson.right⟩
        rcases Schema.exists_member hnames hf (Schema.isPresent_of_held hheld) with
          ⟨m, hm, hfm⟩
        rw [hvalue]
        exact ih f m w hf hm hfm hheld (hs.field hf) (hconstraints.field hf) hjson.left
          hdocument
  | array hitems hlength _hmirrors ih =>
      rcases render_eq_ok hkeywords with ⟨_a, _shape, annotations, _ha, hshape, hannotations, hall⟩
      cases hshape
      rename_i items hdocument
      rw [hall]
      apply satisfies_array hannotations hitems
      intro w hw
      rcases List.mem_iff_getElem?.mp hw with ⟨i, hi⟩
      rcases List.getElem?_eq_some_iff.mp hi with ⟨hbound, _⟩
      have hv := List.getElem?_eq_getElem (hlength.symm ▸ hbound)
      exact ih i w _ hi hv hs.element hconstraints.element (hraw.of_items hitems hw) hdocument

theorem satisfies_with_dialect {keywords : Keywords} {v : Value}
    (h : Satisfies (toValue keywords) v) :
    Satisfies (toValue (Entries.merge [("$schema", .text dialect)] keywords)) v := by
  rcases satisfies_toValue_iff.mp h with ⟨hmeets, hproperties, hitems⟩
  have hcases {k : String × Value}
      (hk : k ∈ Entries.merge [("$schema", .text dialect)] keywords) :
      k = ("$schema", .text dialect) ∨ k ∈ keywords :=
    (Entries.mem_of_mem_merge hk).imp_left List.mem_singleton.mp
  refine .document ?_ ?_ ?_
  · intro k hk
    rcases hcases hk with hk | hk
    · rw [hk]
      trivial
    · exact hmeets k hk
  · intro properties property entries w hk
    rcases hcases hk with hk | hk
    · simp at hk
    · exact hproperties properties property entries w hk
  · intro items elements w hk
    rcases hcases hk with hk | hk
    · simp at hk
    · exact hitems items elements w hk

end JsonSchema

namespace Schema

/-!
## Accepted values
-/

/-- The call brings in no constraint with a bound that is not a number. -/
def Call.HasNumericBounds : Call -> Prop
  | .refine c => c.HasNumericBounds
  | _ => True

theorem hasNumericBounds_of_attaches {call : Call} {c : Constraint}
    (hbuiltIn : call.UsesBuiltIns) (hbounds : call.HasNumericBounds) (h : call.Attaches c) :
    c.HasNumericBounds := by
  have hsingle {name : String} {n : Value} (hn : n.IsNumber) :
      forall p, p ∈ [(name, n)] -> p.1 ≠ "pattern" -> p.2.IsNumber := by
    intro p hp _hname
    rw [List.mem_singleton.mp hp]
    exact hn
  cases h with
  | refine c => exact hbounds
  | minLength bound n => exact hsingle (int_isNumber n)
  | maxLength bound n => exact hsingle (int_isNumber n)
  | exactLength bound n => exact hsingle (int_isNumber n)
  | atLeast bound => exact hsingle hbuiltIn
  | atMost bound => exact hsingle hbuiltIn
  | matching hpattern =>
      rcases Constraint.matching_eq_ok.mp hpattern with ⟨tree, _htree, hc⟩
      rw [hc]
      intro p hp hname
      rw [List.mem_singleton.mp hp] at hname
      exact absurd rfl hname

theorem Built.constraints_numeric {s : Schema}
    (h : Built (fun _ call _ => call.UsesBuiltIns ∧ call.HasNumericBounds) s) :
    Everywhere (fun t => forall c, c ∈ t.ownConstraints -> c.BuiltIn ∧ c.HasNumericBounds) s :=
  h.everywhere_constraints (fun _s _call _t _c hcall hattaches =>
    ⟨builtIn_of_attaches hcall.left hattaches,
      hasNumericBounds_of_attaches hcall.left hcall.right hattaches⟩)

/-- What validation accepts satisfies the document of the schema.  There is a document
exactly when all metadata can be thawed. -/
theorem accepted_satisfies_document {s : Schema} {raw : Value} {result : ValidationResult}
    (root : Bool) (hs : Built (fun _ call _ => call.UsesBuiltIns ∧ call.HasNumericBounds) s)
    (hjson : JsonSchema.IsJson raw) (hraw : raw ≠ .null)
    (hresult : s.validate raw = .ok result) (hok : result.ok = true) :
    (Answer.Succeeds (s.toJsonSchema root) <-> s.Everywhere JsonSchema.MetadataThaws) ∧
    forall document, s.toJsonSchema root = .ok document ->
      JsonSchema.Satisfies document raw := by
  constructor
  · rw [← JsonSchema.succeeds_render_iff hs.wellFormed hs.constraints_numeric
      hs.fallbacks_thaw]
    exact Answer.succeeds_bind_pure
  · intro document hdocument
    rcases Answer.bind_eq_ok.mp hdocument with ⟨keywords, hkeywords, hdocument⟩
    have hmirrors := mirrors_of_accepted hs.wellFormed hraw hresult hok
    have hsatisfies := JsonSchema.satisfies_of_mirrors hmirrors hs.wellFormed
      hs.constraints_numeric hjson hkeywords
    rw [← Answer.pure_eq_ok.mp hdocument]
    cases root with
    | true => exact JsonSchema.satisfies_with_dialect hsatisfies
    | false => exact hsatisfies

def review : Schema :=
  .object .fresh [
    ("title", .primitive .fresh .string [.minLength (.int 2), .maxLength (.int 5)]),
    ("ratings", .array ⟨true, none, []⟩ (some (.primitive .fresh .number [.nonnegative])))]

theorem built_review :
    Built (fun _ call _ => call.UsesBuiltIns ∧ call.HasNumericBounds) review := by
  have hleast : Built (fun _ call _ => call.UsesBuiltIns ∧ call.HasNumericBounds)
      (.primitive .fresh .string [.minLength (.int 2)]) := by
    have happly : Call.apply (.min (.int 2)) string =
        .ok (.primitive .fresh .string [.minLength (.int 2)]) := rfl
    exact .plain (.ofKind .string) rfl happly ⟨int_isNumber 2, trivial⟩
  have htitle : Built (fun _ call _ => call.UsesBuiltIns ∧ call.HasNumericBounds)
      (.primitive .fresh .string [.minLength (.int 2), .maxLength (.int 5)]) := by
    have happly : Call.apply (.max (.int 5)) (.primitive .fresh .string [.minLength (.int 2)]) =
        .ok (.primitive .fresh .string [.minLength (.int 2), .maxLength (.int 5)]) := rfl
    exact .plain hleast rfl happly ⟨int_isNumber 5, trivial⟩
  have hrating : Built (fun _ call _ => call.UsesBuiltIns ∧ call.HasNumericBounds)
      (.primitive .fresh .number [.nonnegative]) := by
    have happly : Call.apply (.refine .nonnegative) number =
        .ok (.primitive .fresh .number [.nonnegative]) := rfl
    have hbounds : Constraint.nonnegative.HasNumericBounds := by
      intro p hp
      cases hp
    exact .plain (.ofKind .number) rfl happly ⟨.nonnegative, hbounds⟩
  have hratings : Built (fun _ call _ => call.UsesBuiltIns ∧ call.HasNumericBounds)
      (.array ⟨true, none, []⟩ (some (.primitive .fresh .number [.nonnegative]))) := by
    have harray : arrayOf (.primitive .fresh .number [.nonnegative]) =
        .ok (.array .fresh (some (.primitive .fresh .number [.nonnegative]))) := rfl
    have happly : Call.apply .optional
        (.array .fresh (some (.primitive .fresh .number [.nonnegative]))) =
        .ok (.array ⟨true, none, []⟩ (some (.primitive .fresh .number [.nonnegative]))) := rfl
    exact .plain (.array (fun _ => hrating) harray) rfl happly ⟨trivial, trivial⟩
  exact .of_fields (List.forall_mem_cons.mpr ⟨htitle, List.forall_mem_singleton.mpr hratings⟩) rfl

def teaReview : Value :=
  .mapping [(.text "ratings", .list [.int 3, .int 0]), (.text "title", .text "Tea")]

theorem teaReview_satisfies_document :
    exists result, review.validate teaReview = .ok result ∧ result.ok = true ∧
      (Answer.Succeeds (review.toJsonSchema true) <->
        review.Everywhere JsonSchema.MetadataThaws) ∧
      forall document, review.toJsonSchema true = .ok document ->
        JsonSchema.Satisfies document teaReview := by
  have hjson : JsonSchema.IsJson teaReview := by
    refine .mapping (by simp) (by simp) ?_
    simp only [List.forall_mem_cons, List.not_mem_nil, false_implies, implies_true, and_true]
    refine ⟨.list ?_, .text _⟩
    simp only [List.forall_mem_cons, List.not_mem_nil, false_implies, implies_true, and_true]
    exact ⟨.int 3, .int 0⟩
  have haccepted : (match review.validate teaReview with
      | .ok result => result.ok
      | .error _ => false) = true := by
    decide +kernel
  cases hresult : review.validate teaReview with
  | error fault =>
      rw [hresult] at haccepted
      cases haccepted
  | ok result =>
      rw [hresult] at haccepted
      exact ⟨result, rfl, haccepted, accepted_satisfies_document true built_review hjson
        (by simp [teaReview]) hresult haccepted⟩

end Schema
end ContentSchema
