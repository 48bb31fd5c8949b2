import ContentSchema.Proofs.Frozen
import ContentSchema.Proofs.JsonSchema.Meaning
import ContentSchema.Proofs.Validation.BuiltIns

/-!
# What is rendered

Which keywords a schema is rendered with, and when it is rendered at all.  Each keyword of a
leaf comes from its kind or from one of its constraints, whatever has been written over it in
between.  Rendering is stopped by nothing but metadata that cannot be thawed, and by bounds that
are no numbers.
-/

namespace ContentSchema

def Constraint.HasNumericBounds (c : Constraint) : Prop :=
  forall p, p ∈ c.params -> p.1 ≠ "pattern" -> p.2.IsNumber

namespace JsonSchema

/-!
## Keywords of constraints
-/

/-- The keywords that a constraint stands for, whatever stands there before. -/
inductive Emits : Constraint -> String × Value -> Prop
  | nonEmpty : Emits .nonEmpty ("minLength", .int 1)
  | minLength (n : Value) : Emits (.minLength n) ("minLength", n)
  | maxLength (n : Value) : Emits (.maxLength n) ("maxLength", n)
  | leastLength (n : Value) : Emits (.exactLength n) ("minLength", n)
  | greatestLength (n : Value) : Emits (.exactLength n) ("maxLength", n)
  | url : Emits .isUrl ("format", .text "uri")
  | email : Emits .isEmail ("format", .text "email")
  | pattern {pattern : String} {c : Constraint} :
      Constraint.matching pattern = .ok c -> Emits c ("pattern", .text pattern)
  | positive : Emits .positive ("exclusiveMinimum", .int 0)
  | nonnegative : Emits .nonnegative ("minimum", .int 0)
  | integer : Emits .whole ("type", .text "integer")
  | atLeast (n : Value) : Emits (.atLeast n) ("minimum", n)
  | atMost (n : Value) : Emits (.atMost n) ("maximum", n)

theorem raise_eq_ok {keywords after : Keywords} {keyword : String} {floor : Nat} :
    raise keywords keyword floor = .ok after <->
      exists q, ((Entries.get? keywords keyword).getD (.int 0)).quantity? = some q ∧
        after = Entries.put keywords keyword
          (if q.lt (.rational floor) then .int floor
            else (Entries.get? keywords keyword).getD (.int 0)) := by
  unfold raise raised
  cases hq : ((Entries.get? keywords keyword).getD (.int 0)).quantity? with
  | none =>
      simp [orFault, bind, Except.bind]
  | some q =>
      constructor
      · intro h
        injection h with h
        exact ⟨q, rfl, h.symm⟩
      · intro h
        rcases h with ⟨p, hp, hafter⟩
        injection hp with hp
        rw [hafter, ← hp]
        rfl

theorem mem_of_mem_raise {keywords after : Keywords} {keyword : String} {floor : Nat}
    (h : raise keywords keyword floor = .ok after) {k : String × Value} (hk : k ∈ after) :
    k ∈ keywords ∨ k = (keyword, .int floor) := by
  rcases raise_eq_ok.mp h with ⟨q, hq, hafter⟩
  rw [hafter] at hk
  rcases Entries.mem_of_mem_put hk with hk | hk
  · exact Or.inl hk
  by_cases hbelow : q.lt (.rational floor) = true
  · rw [if_pos hbelow] at hk
    exact Or.inr hk
  · rw [if_neg hbelow] at hk
    cases hfound : Entries.get? keywords keyword with
    | some bound =>
        rw [hfound] at hk
        rw [hk]
        exact Or.inl (Entries.mem_of_get? hfound)
    | none =>
        -- nothing was there, so the floor is not above the zero that is taken for it
        rw [hfound] at hk hq
        have hfloor : floor = 0 := by
          have hzero : q = .rational 0 := by
            injection hq with hq
            rw [← hq]
            rfl
          by_contra hpositive
          have hlt : (0 : Rat) < floor := by exact_mod_cast Nat.pos_of_ne_zero hpositive
          apply hbelow
          rw [hzero]
          exact decide_eq_true hlt
        rw [hfloor]
        exact Or.inr hk

theorem mem_of_mem_addConstraint {keywords after : Keywords} {c : Constraint}
    (hc : c.BuiltIn) (h : addConstraint keywords c = .ok after) {k : String × Value}
    (hk : k ∈ after) : k ∈ keywords ∨ Emits c k := by
  have hput {keyword : String} {argument : Value}
      (hadd : addConstraint keywords c = .ok (Entries.put keywords keyword argument))
      (hemits : Emits c (keyword, argument)) : k ∈ keywords ∨ Emits c k := by
    rw [hadd] at h
    injection h with h
    rw [← h] at hk
    rcases Entries.mem_of_mem_put hk with hk | hk
    · exact Or.inl hk
    · rw [hk]
      exact Or.inr hemits
  have hraise {keyword : String} {floor : Nat}
      (hadd : addConstraint keywords c = raise keywords keyword floor)
      (hemits : Emits c (keyword, .int floor)) : k ∈ keywords ∨ Emits c k := by
    rw [hadd] at h
    rcases mem_of_mem_raise h hk with hk | hk
    · exact Or.inl hk
    · rw [hk]
      exact Or.inr hemits
  cases hc with
  | nonEmpty => exact hraise rfl .nonEmpty
  | minLength _ => exact hput rfl (.minLength _)
  | maxLength _ => exact hput rfl (.maxLength _)
  | exactLength n =>
      have hadd : addConstraint keywords (.exactLength n) =
          .ok (Entries.put (Entries.put keywords "minLength" n) "maxLength" n) := rfl
      rw [hadd] at h
      injection h with h
      rw [← h] at hk
      rcases Entries.mem_of_mem_put hk with hk | hk
      · rcases Entries.mem_of_mem_put hk with hk | hk
        · exact Or.inl hk
        · rw [hk]
          exact Or.inr (.leastLength n)
      · rw [hk]
        exact Or.inr (.greatestLength n)
  | isUrl => exact hput rfl .url
  | isEmail => exact hput rfl .email
  | matching hpattern =>
      refine hput ?_ (.pattern hpattern)
      rcases Constraint.matching_eq_ok.mp hpattern with ⟨tree, _htree, hc⟩
      rw [hc]
      rfl
  | positive => exact hput rfl .positive
  | nonnegative => exact hraise rfl .nonnegative
  | whole => exact hput rfl .integer
  | atLeast _ => exact hput rfl (.atLeast _)
  | atMost _ => exact hput rfl (.atMost _)

theorem mem_of_mem_constraintKeywords {constraints : List Constraint}
    {before after : Keywords} (hconstraints : forall c, c ∈ constraints -> c.BuiltIn)
    (h : constraints.foldlM addConstraint before = .ok after) {k : String × Value}
    (hk : k ∈ after) : k ∈ before ∨ exists c, c ∈ constraints ∧ Emits c k := by
  refine Answer.invariant_foldlM
    (P := fun keywords => k ∈ keywords -> k ∈ before ∨ exists c, c ∈ constraints ∧ Emits c k)
    ?_ Or.inl h hk
  intro keywords next c hc hkeywords hnext hk
  rcases mem_of_mem_addConstraint (hconstraints c hc) hnext hk with hk | hemits
  · exact hkeywords hk
  · exact Or.inr ⟨c, hc, hemits⟩

def constraintNames : List String :=
  ["minLength", "maxLength", "minimum", "maximum", "exclusiveMinimum", "type", "format",
    "pattern"]

theorem name_of_mem_addConstraint {c : Constraint} {before after : Keywords}
    (h : addConstraint before c = .ok after) {k : String × Value} (hk : k ∈ after) :
    k ∈ before ∨ k.1 ∈ constraintNames := by
  have hput {keyword : String} {argument : Value} {keywords : Keywords}
      (hname : keyword ∈ constraintNames) (hk : k ∈ Entries.put keywords keyword argument) :
      k ∈ keywords ∨ k.1 ∈ constraintNames := by
    refine (Entries.mem_of_mem_put hk).imp_right (fun hk => ?_)
    rw [hk]
    exact hname
  have hraise {keyword : String} {floor : Nat} (hname : keyword ∈ constraintNames)
      (h : raise before keyword floor = .ok after) : k ∈ before ∨ k.1 ∈ constraintNames := by
    rcases raise_eq_ok.mp h with ⟨q, _hq, hafter⟩
    rw [hafter] at hk
    exact hput hname hk
  unfold addConstraint at h
  split at h
  case h_1 => exact hraise (by decide) h
  case h_3 => exact hraise (by decide) h
  all_goals
    injection h with h
    subst h
  case h_7 =>
    rcases hput (by decide) hk with hk | hk
    · exact hput (by decide) hk
    · exact Or.inr hk
  case h_13 => exact Or.inl hk
  all_goals
    exact hput (by decide) hk

theorem name_of_mem_constraintKeywords {kind : PrimitiveKind} {constraints : List Constraint}
    {keywords : Keywords}
    (h : constraints.foldlM addConstraint (kindKeywords kind) = .ok keywords)
    {k : String × Value} (hk : k ∈ keywords) : k.1 ∈ constraintNames := by
  refine Answer.invariant_foldlM (P := fun keywords => forall k, k ∈ keywords ->
    k.1 ∈ constraintNames) ?_ ?_ h k hk
  · intro before after c _hc hbefore hafter k hk
    exact (name_of_mem_addConstraint hafter hk).elim (hbefore k) id
  · intro k hk
    cases kind <;> simp only [kindKeywords, List.mem_cons, List.not_mem_nil, or_false] at hk
    all_goals
      rcases hk with rfl | rfl <;> decide

/-!
A lower bound can be raised as long as it is a number, and numeric bounds are all that is ever
written there.
-/

def HasNumericFloors (keywords : Keywords) : Prop :=
  forall k, k ∈ keywords -> k.1 = "minLength" ∨ k.1 = "minimum" -> k.2.IsNumber

theorem Emits.isNumber_or_text {c : Constraint} {k : String × Value} (h : Emits c k)
    (hc : c.HasNumericBounds) :
    k.2.IsNumber ∨ k.1 ∈ ["pattern", "format", "type"] ∧ exists t, k.2 = .text t := by
  cases h with
  | minLength n => exact Or.inl (hc ("min", n) List.mem_cons_self (by simp))
  | maxLength n => exact Or.inl (hc ("max", n) List.mem_cons_self (by simp))
  | leastLength n => exact Or.inl (hc ("length", n) List.mem_cons_self (by simp))
  | greatestLength n => exact Or.inl (hc ("length", n) List.mem_cons_self (by simp))
  | atLeast n => exact Or.inl (hc ("min", n) List.mem_cons_self (by simp))
  | atMost n => exact Or.inl (hc ("max", n) List.mem_cons_self (by simp))
  | nonEmpty | positive | nonnegative => exact Or.inl ⟨_, rfl⟩
  | url | email | pattern _ | integer => exact Or.inr ⟨by simp, _, rfl⟩

theorem Emits.isNumber {c : Constraint} {k : String × Value} (h : Emits c k)
    (hc : c.HasNumericBounds) (hk : k.1 = "minLength" ∨ k.1 = "minimum") : k.2.IsNumber := by
  rcases h.isNumber_or_text hc with hnumber | ⟨hname, _htext⟩
  · exact hnumber
  · rcases hk with hk | hk <;> simp [hk] at hname

theorem succeeds_raise {keywords : Keywords} {keyword : String} {floor : Nat}
    (hkeyword : keyword = "minLength" ∨ keyword = "minimum")
    (h : HasNumericFloors keywords) : Answer.Succeeds (raise keywords keyword floor) := by
  have hnumber : ((Entries.get? keywords keyword).getD (.int 0)).IsNumber := by
    cases hfound : Entries.get? keywords keyword with
    | none => exact ⟨_, rfl⟩
    | some bound => exact h _ (Entries.mem_of_get? hfound) hkeyword
  rcases hnumber with ⟨q, hq⟩
  exact ⟨_, raise_eq_ok.mpr ⟨q, hq, rfl⟩⟩

theorem succeeds_addConstraint {keywords : Keywords} {c : Constraint} (hc : c.BuiltIn)
    (h : HasNumericFloors keywords) : Answer.Succeeds (addConstraint keywords c) := by
  cases hc with
  | nonEmpty => exact succeeds_raise (Or.inl rfl) h
  | nonnegative => exact succeeds_raise (Or.inr rfl) h
  | matching hpattern =>
      rcases Constraint.matching_eq_ok.mp hpattern with ⟨tree, _htree, hc⟩
      rw [hc]
      exact ⟨_, rfl⟩
  | _ => exact ⟨_, rfl⟩

theorem succeeds_constraintKeywords {constraints : List Constraint} {before : Keywords}
    (hconstraints : forall c, c ∈ constraints -> c.BuiltIn ∧ c.HasNumericBounds)
    (h : HasNumericFloors before) :
    Answer.Succeeds (constraints.foldlM addConstraint before) := by
  induction constraints generalizing before with
  | nil =>
      exact ⟨before, rfl⟩
  | cons c rest ih =>
      have hc := hconstraints c List.mem_cons_self
      rcases succeeds_addConstraint hc.left h with ⟨between, hbetween⟩
      have hfloors : HasNumericFloors between := by
        intro k hk hkeyword
        rcases mem_of_mem_addConstraint hc.left hbetween hk with hk | hemits
        · exact h k hk hkeyword
        · exact hemits.isNumber hc.right hkeyword
      rw [List.foldlM_cons]
      exact Answer.succeeds_bind.mpr ⟨between, hbetween,
        ih (fun d hd => hconstraints d (List.mem_cons_of_mem _ hd)) hfloors⟩

theorem no_floor_in_kindKeywords {kind : PrimitiveKind} {k : String × Value}
    (hk : k ∈ kindKeywords kind) : ¬(k.1 = "minLength" ∨ k.1 = "minimum") := by
  cases kind <;> simp [kindKeywords] at hk
  all_goals
    rcases hk with rfl | rfl <;> simp

theorem kindKeywords_hasNumericFloors (kind : PrimitiveKind) :
    HasNumericFloors (kindKeywords kind) :=
  fun _k hk hfloor => absurd hfloor (no_floor_in_kindKeywords hk)

/-!
## Keywords of attributes
-/

theorem fallbackKeywords_eq_ok {d : Value} {keywords : Keywords} :
    fallbackKeywords (some d) = .ok keywords <->
      exists w, d.thaw? = some w ∧ keywords = [("default", written w)] := by
  simp [fallbackKeywords, thawed, eq_comm (a := keywords)]

theorem fallbackKeywords_cases {fallback : Option Value} {keywords : Keywords}
    (h : fallbackKeywords fallback = .ok keywords) :
    (fallback = none ∧ keywords = []) ∨
      exists d w, fallback = some d ∧ d.thaw? = some w ∧ keywords = [("default", written w)] := by
  cases fallback with
  | none =>
      injection h with h
      exact Or.inl ⟨rfl, h.symm⟩
  | some d =>
      rcases fallbackKeywords_eq_ok.mp h with ⟨w, hw, h⟩
      exact Or.inr ⟨d, w, rfl, hw, h⟩

theorem keys_annotations_sublist (metadata : List (Value × Value)) :
    (Entries.keys (descriptionKeywords metadata ++ contentKeywords metadata)).Sublist
      ["description", "$content"] := by
  have hdescription : (Entries.keys (descriptionKeywords metadata)).Sublist ["description"] := by
    unfold descriptionKeywords
    split
    · split
      · exact List.Sublist.refl _
      · exact List.nil_sublist _
    · exact List.nil_sublist _
  have hcontent : (Entries.keys (contentKeywords metadata)).Sublist ["$content"] := by
    simp only [contentKeywords]
    split
    · exact List.nil_sublist _
    · exact List.Sublist.refl _
  rw [Entries.keys, List.map_append]
  exact hdescription.append hcontent

theorem name_of_mem_annotations {metadata : List (Value × Value)} {k : String × Value}
    (hk : k ∈ descriptionKeywords metadata ++ contentKeywords metadata) :
    k.1 = "description" ∨ k.1 = "$content" := by
  simpa using (keys_annotations_sublist metadata).subset (List.mem_map_of_mem hk)

theorem attributeKeywords_eq_ok {a : Attributes} {keywords : Keywords} :
    attributeKeywords a = .ok keywords <->
      exists fallback metadata, fallbackKeywords a.fallback = .ok fallback ∧
        Value.thawEntries? a.metadata = some metadata ∧
        keywords = fallback ++ (descriptionKeywords metadata ++ contentKeywords metadata) := by
  simp [attributeKeywords, eq_comm (a := keywords)]

def attributeNames : List String :=
  ["default", "description", "$content"]

theorem keys_attributeKeywords_sublist {a : Attributes} {keywords : Keywords}
    (h : attributeKeywords a = .ok keywords) :
    (Entries.keys keywords).Sublist attributeNames := by
  rcases attributeKeywords_eq_ok.mp h with ⟨fallback, metadata, hfallback, _hmetadata, h⟩
  have hdefault : (Entries.keys fallback).Sublist ["default"] := by
    rcases fallbackKeywords_cases hfallback with ⟨_hnone, hkeywords⟩ | ⟨d, w, _hd, _hw, hkeywords⟩
    · rw [hkeywords]
      exact List.nil_sublist _
    · rw [hkeywords]
      exact List.Sublist.refl _
  rw [h, Entries.keys, List.map_append]
  exact hdefault.append (keys_annotations_sublist metadata)

theorem name_of_mem_attributeKeywords {a : Attributes} {keywords : Keywords}
    (h : attributeKeywords a = .ok keywords) {k : String × Value} (hk : k ∈ keywords) :
    k.1 = "default" ∨ k.1 = "description" ∨ k.1 = "$content" := by
  simpa [attributeNames] using (keys_attributeKeywords_sublist h).subset (List.mem_map_of_mem hk)

def MetadataThaws (s : Schema) : Prop :=
  forall a, s.attributes? = some a -> exists thawed, Value.thawEntries? a.metadata = some thawed

theorem succeeds_attributeKeywords_iff {s : Schema} {a : Attributes}
    (ha : s.attributes? = some a) (hfallback : s.FallbackThaws) :
    Answer.Succeeds (attributeKeywords a) <-> MetadataThaws s := by
  have hmetadata : MetadataThaws s <->
      exists thawed, Value.thawEntries? a.metadata = some thawed := by
    unfold MetadataThaws
    rw [ha]
    simp
  rw [hmetadata]
  constructor
  · intro h
    rcases h with ⟨keywords, hkeywords⟩
    rcases attributeKeywords_eq_ok.mp hkeywords with ⟨_, metadata, _, hmetadata, _⟩
    exact ⟨metadata, hmetadata⟩
  · intro h
    rcases h with ⟨metadata, hmetadata⟩
    have hdefault : Answer.Succeeds (fallbackKeywords a.fallback) := by
      cases hd : a.fallback with
      | none =>
          exact ⟨[], rfl⟩
      | some d =>
          rcases hfallback d (by rw [Schema.fallback?_of_attributes ha, hd]) with ⟨w, hw⟩
          exact ⟨_, fallbackKeywords_eq_ok.mpr ⟨w, hw, rfl⟩⟩
    rcases hdefault with ⟨fallback, hdefault⟩
    exact ⟨_, attributeKeywords_eq_ok.mpr ⟨fallback, metadata, hdefault, hmetadata, rfl⟩⟩

theorem mem_requiredKeywords {fields : List (String × Schema)} {k : String × Value}
    (h : k ∈ requiredKeywords fields) :
    k = ("required", .list ((requiredNames fields).map Value.text)) := by
  unfold requiredKeywords at h
  split at h
  · cases h
  · exact List.mem_singleton.mp h

/-!
## Shapes
-/

/-- The keywords that a schema is rendered with in front of those of its attributes. -/
inductive Shapes : Schema -> Keywords -> Prop
  | primitive {a : Attributes} {kind : PrimitiveKind} {constraints : List Constraint}
      {shape : Keywords} :
      constraints.foldlM addConstraint (kindKeywords kind) = .ok shape ->
      Shapes (.primitive a kind constraints) shape
  | enumeration {a : Attributes} {values : List Value} :
      Shapes (.enumeration a values) [("type", .text "string"), ("enum", .list values)]
  | object {a : Attributes} {fields : List (String × Schema)}
      {properties : List (String × Value)} :
      renderFields fields = .ok properties ->
      Shapes (.object a fields)
        ([("type", .text "object"), ("properties", toValue (Entries.ofList properties))] ++
          requiredKeywords fields)
  | missing {a : Attributes} : Shapes (.array a none) [("type", .text "array")]
  | array {a : Attributes} {element : Schema} {items : Keywords} :
      render element = .ok items ->
      Shapes (.array a (some element)) [("type", .text "array"), ("items", toValue items)]
  | bare {a : Attributes} : Shapes (.bare a) []

/-- The keywords of a schema are those of its shape and behind them those of its attributes. -/
theorem render_eq_ok {s : Schema} {keywords : Keywords} (h : render s = .ok keywords) :
    exists a shape annotations, s.attributes? = some a ∧ Shapes s shape ∧
      attributeKeywords a = .ok annotations ∧ keywords = shape ++ annotations := by
  cases s with
  | primitive a kind constraints =>
      rcases Answer.bind_eq_ok.mp h with ⟨shape, hshape, h⟩
      rcases Answer.bind_eq_ok.mp h with ⟨annotations, hannotations, h⟩
      exact ⟨a, shape, annotations, rfl, .primitive hshape, hannotations,
        (Answer.pure_eq_ok.mp h).symm⟩
  | enumeration a values =>
      rcases Answer.bind_eq_ok.mp h with ⟨annotations, hannotations, h⟩
      exact ⟨a, _, annotations, rfl, .enumeration, hannotations, (Answer.pure_eq_ok.mp h).symm⟩
  | object a fields =>
      rcases Answer.bind_eq_ok.mp h with ⟨properties, hproperties, h⟩
      rcases Answer.bind_eq_ok.mp h with ⟨annotations, hannotations, h⟩
      exact ⟨a, _, annotations, rfl, .object hproperties, hannotations,
        (Answer.pure_eq_ok.mp h).symm⟩
  | array a element =>
      cases element with
      | none =>
          rcases Answer.bind_eq_ok.mp h with ⟨annotations, hannotations, h⟩
          exact ⟨a, _, annotations, rfl, .missing, hannotations, (Answer.pure_eq_ok.mp h).symm⟩
      | some element =>
          rcases Answer.bind_eq_ok.mp h with ⟨items, hitems, h⟩
          rcases Answer.bind_eq_ok.mp h with ⟨annotations, hannotations, h⟩
          exact ⟨a, _, annotations, rfl, .array hitems, hannotations,
            (Answer.pure_eq_ok.mp h).symm⟩
  | bare a =>
      exact ⟨a, [], keywords, rfl, .bare, h, rfl⟩
  | foreign v =>
      cases h

def shapeNames : List String :=
  ["enum", "properties", "required", "items"] ++ constraintNames

theorem Shapes.name_of_mem {s : Schema} {shape : Keywords} (h : Shapes s shape)
    {k : String × Value} (hk : k ∈ shape) : k.1 ∈ shapeNames := by
  cases h with
  | primitive hshape =>
      exact List.mem_append_right _ (name_of_mem_constraintKeywords hshape hk)
  | object _hproperties =>
      rcases List.mem_append.mp hk with hk | hk
      · simp only [List.mem_cons, List.not_mem_nil, or_false] at hk
        rcases hk with rfl | rfl <;> simp [shapeNames, constraintNames]
      · rw [mem_requiredKeywords hk]
        simp [shapeNames]
  | enumeration | missing | array _ =>
      simp only [List.mem_cons, List.not_mem_nil, or_false] at hk
      rcases hk with rfl | rfl <;> simp [shapeNames, constraintNames]
  | bare =>
      cases hk

/-!
## When a schema is rendered
-/

theorem succeeds_renderFields_iff {fields : List (String × Schema)} :
    Answer.Succeeds (renderFields fields) <->
      forall f, f ∈ fields -> Answer.Succeeds (render f.2) := by
  induction fields with
  | nil =>
      simp [renderFields, Answer.Succeeds]
  | cons f rest ih =>
      rw [List.forall_mem_cons, ← ih]
      exact Answer.succeeds_both

def ConstraintsRender : Schema -> Prop
  | .primitive _ kind constraints =>
      Answer.Succeeds (constraints.foldlM addConstraint (kindKeywords kind))
  | _ => True

def Renders (s : Schema) : Prop :=
  MetadataThaws s ∧ ConstraintsRender s

/-- A schema is rendered exactly when everywhere in it the metadata can be thawed and the
constraints can be rendered. -/
theorem succeeds_render_iff_renders {s : Schema} (hs : s.Everywhere Schema.WellFormed)
    (hfallbacks : s.Everywhere Schema.FallbackThaws) :
    Answer.Succeeds (render s) <-> s.Everywhere Renders := by
  induction s using Schema.tree_induction with
  | primitive a kind constraints =>
      have hattributes := succeeds_attributeKeywords_iff rfl hfallbacks.self
      rw [render, Answer.succeeds_both, hattributes]
      exact ⟨fun h => Schema.Everywhere.leaf h.symm (by simp) (by simp), fun h => h.self.symm⟩
  | enumeration a values =>
      have hattributes := succeeds_attributeKeywords_iff rfl hfallbacks.self
      rw [render, Answer.succeeds_bind_pure, hattributes]
      exact ⟨fun h => Schema.Everywhere.leaf ⟨h, trivial⟩ (by simp) (by simp),
        fun h => h.self.left⟩
  | object a fields ih =>
      have hattributes := succeeds_attributeKeywords_iff rfl hfallbacks.self
      rw [render, Answer.succeeds_both, succeeds_renderFields_iff, hattributes]
      constructor
      · intro h
        have hself : Renders (.object a fields) := ⟨h.right, trivial⟩
        refine Schema.Everywhere.object hself (fun f hf => ?_)
        exact (ih f hf (hs.field hf) (hfallbacks.field hf)).mp (h.left f hf)
      · intro h
        refine ⟨fun f hf => ?_, h.self.left⟩
        exact (ih f hf (hs.field hf) (hfallbacks.field hf)).mpr (h.field hf)
  | missing a =>
      cases hs.self.shape
  | array a element ih =>
      have hattributes := succeeds_attributeKeywords_iff rfl hfallbacks.self
      rw [render, Answer.succeeds_both, hattributes, ih hs.element hfallbacks.element]
      exact ⟨fun h => Schema.Everywhere.array ⟨h.right, trivial⟩ h.left,
        fun h => ⟨h.element, h.self.left⟩⟩
  | bare a =>
      exact hs.self.shape.elim
  | foreign v =>
      exact hs.self.shape.elim

theorem constraintsRender_of_numeric {s : Schema}
    (h : forall c, c ∈ s.ownConstraints -> c.BuiltIn ∧ c.HasNumericBounds) :
    ConstraintsRender s := by
  cases s with
  | primitive a kind constraints =>
      exact succeeds_constraintKeywords h (kindKeywords_hasNumericFloors kind)
  | _ =>
      trivial

theorem succeeds_render_iff {s : Schema} (hs : s.Everywhere Schema.WellFormed)
    (hconstraints : s.Everywhere (fun t => forall c, c ∈ t.ownConstraints ->
      c.BuiltIn ∧ c.HasNumericBounds))
    (hfallbacks : s.Everywhere Schema.FallbackThaws) :
    Answer.Succeeds (render s) <-> s.Everywhere MetadataThaws := by
  rw [succeeds_render_iff_renders hs hfallbacks]
  constructor
  · intro h
    exact h.imp (fun _t ht => ht.left)
  · intro h t ht
    exact ⟨h t ht, constraintsRender_of_numeric (hconstraints t ht)⟩

end JsonSchema
end ContentSchema
