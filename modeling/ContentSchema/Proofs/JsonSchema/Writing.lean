import ContentSchema.Proofs.JsonSchema.Acceptance
import ContentSchema.Proofs.JsonSchema.Fallbacks
import ContentSchema.Proofs.JsonSchema.Survival

/-!
# Writing documents as JSON

Whether the document of a schema can be written as JSON.  Types, bounds, patterns and listed
texts can, and so can fallback values, whose days and moments are rendered as texts.  Metadata
is thawed and nothing else, so a document can be written exactly when the metadata of all
schemas in it has a form in JSON as it stands.
-/

namespace ContentSchema
namespace JsonSchema

/-- A value that JSON has a form for: nothing, a truth value, a number or a text, or a list or a
mapping from texts of values that have a form. -/
inductive HasJsonForm : Value -> Prop
  | null : HasJsonForm .null
  | bool (b : Bool) : HasJsonForm (.bool b)
  | int (n : Int) : HasJsonForm (.int n)
  | float (x : Binary64) : HasJsonForm (.float x)
  | text (t : String) : HasJsonForm (.text t)
  | list {items : List Value} :
      (forall v, v ∈ items -> HasJsonForm v) -> HasJsonForm (.list items)
  | mapping {entries : List (Value × Value)} :
      (forall e, e ∈ entries -> exists name, e.1 = .text name) ->
      (forall e, e ∈ entries -> HasJsonForm e.2) -> HasJsonForm (.mapping entries)

theorem hasJsonForm_mapping_iff {entries : List (Value × Value)} :
    HasJsonForm (.mapping entries) <->
      forall e, e ∈ entries -> (exists name, e.1 = .text name) ∧ HasJsonForm e.2 := by
  constructor
  · intro h
    cases h with
    | mapping hnames hvalues => exact fun e he => ⟨hnames e he, hvalues e he⟩
  · intro h
    exact .mapping (fun e he => (h e he).left) (fun e he => (h e he).right)

theorem hasJsonForm_ofMembers_iff {members : List (String × Value)} :
    HasJsonForm (.ofMembers members) <-> forall m, m ∈ members -> HasJsonForm m.2 := by
  rw [Value.ofMembers, hasJsonForm_mapping_iff, List.forall_mem_map]
  exact forall₂_congr (fun _m _hm => and_iff_right ⟨_, rfl⟩)

theorem hasJsonForm_texts (texts : List String) :
    HasJsonForm (.list (texts.map Value.text)) :=
  .list (List.forall_mem_map.mpr (fun t _ht => .text t))

theorem hasJsonForm_of_isNumber {v : Value} (h : v.IsNumber) : HasJsonForm v := by
  rcases h with ⟨q, hq⟩
  cases v <;> simp [Value.quantity?] at hq
  · exact .bool _
  · exact .int _
  · exact .float _

/-!
## Fallback values
-/

theorem hasJsonForm_contentForm {v : Value} (h : v.IsTyped) : HasJsonForm v.contentForm := by
  induction h with
  | leaf hholds =>
      cases hholds with
      | text t => exact .text t
      | int n => exact .int n
      | float x => exact .float x
      | bool b => exact .bool b
      | date d => exact .text d.isoText
      | moment t => exact .text t.isoText
  | record hmembers ih =>
      rw [Value.contentForm_ofMembers (fun m hm => (hmembers m hm).thaws),
        hasJsonForm_ofMembers_iff, List.forall_mem_map]
      exact ih
  | tuple hitems ih =>
      rw [Value.contentForm_tuple (fun v hv => (hitems v hv).thaws)]
      exact .list (List.forall_mem_map.mpr ih)

/-!
## Keywords
-/

def HaveJsonForms (keywords : Keywords) : Prop :=
  forall k, k ∈ keywords -> HasJsonForm k.2

@[simp] theorem haveJsonForms_append_iff {first second : Keywords} :
    HaveJsonForms (first ++ second) <-> HaveJsonForms first ∧ HaveJsonForms second :=
  List.forall_mem_append

theorem Emits.hasJsonForm {c : Constraint} {k : String × Value} (h : Emits c k)
    (hc : c.HasNumericBounds) : HasJsonForm k.2 := by
  rcases h.isNumber_or_text hc with hnumber | ⟨_hname, t, ht⟩
  · exact hasJsonForm_of_isNumber hnumber
  · rw [ht]
    exact .text t

theorem haveJsonForms_constraintKeywords {kind : PrimitiveKind} {constraints : List Constraint}
    (hconstraints : forall c, c ∈ constraints -> c.BuiltIn ∧ c.HasNumericBounds)
    {shape : Keywords} (h : constraints.foldlM addConstraint (kindKeywords kind) = .ok shape) :
    HaveJsonForms shape := by
  intro k hk
  rcases mem_of_mem_constraintKeywords (fun c hc => (hconstraints c hc).left) h hk with
    hk | ⟨c, hc, hemits⟩
  · cases kind <;> simp only [kindKeywords, List.mem_cons, List.not_mem_nil, or_false] at hk
    all_goals
      rcases hk with rfl | rfl <;> exact .text _
  · exact hemits.hasJsonForm (hconstraints c hc).right

theorem haveJsonForms_fallbackKeywords {fallback : Option Value}
    (htyped : forall d, fallback = some d -> d.IsTyped) {keywords : Keywords}
    (h : fallbackKeywords fallback = .ok keywords) : HaveJsonForms keywords := by
  rcases fallbackKeywords_cases h with ⟨_hnone, h⟩ | ⟨d, w, hd, hw, h⟩
  · rw [h]
    exact fun k hk => absurd hk List.not_mem_nil
  · rw [h, (Value.thaw?_eq_some.mp hw).right]
    exact List.forall_mem_singleton.mpr (hasJsonForm_contentForm (htyped d hd))

/-- What is rendered of metadata has a form in JSON: the description, unless it counts as false,
and everything else under keys that are texts. -/
def MetadataHasJsonForm (metadata : List (Value × Value)) : Prop :=
  (forall d, Value.field? metadata "description" = some d -> d.truthy = true -> HasJsonForm d) ∧
  forall e, e ∈ Entries.erase metadata (.text "description") ->
    (exists name, e.1 = .text name) ∧ HasJsonForm e.2

theorem haveJsonForms_annotations_iff {metadata : List (Value × Value)} :
    HaveJsonForms (descriptionKeywords metadata ++ contentKeywords metadata) <->
      MetadataHasJsonForm metadata := by
  rw [haveJsonForms_append_iff]
  refine and_congr ?_ ?_
  · unfold descriptionKeywords HaveJsonForms
    cases Value.field? metadata "description" with
    | none =>
        simp
    | some d =>
        cases htruthy : d.truthy <;> simp [htruthy]
  · unfold contentKeywords HaveJsonForms
    cases Entries.erase metadata (.text "description") with
    | nil =>
        simp
    | cons e rest =>
        simp [hasJsonForm_mapping_iff]

def RendersMetadataAsJson (s : Schema) : Prop :=
  forall a metadata, s.attributes? = some a -> Value.thawEntries? a.metadata = some metadata ->
    MetadataHasJsonForm metadata

theorem haveJsonForms_attributeKeywords_iff {s : Schema} {a : Attributes} {keywords : Keywords}
    (ha : s.attributes? = some a) (htyped : s.HasTypedFallback)
    (h : attributeKeywords a = .ok keywords) :
    HaveJsonForms keywords <-> RendersMetadataAsJson s := by
  rcases attributeKeywords_eq_ok.mp h with ⟨fallback, metadata, hfallback, hmetadata, h⟩
  have hdefault : HaveJsonForms fallback := by
    refine haveJsonForms_fallbackKeywords (fun d hd => htyped d ?_) hfallback
    rw [Schema.fallback?_of_attributes ha, hd]
  rw [h, haveJsonForms_append_iff, and_iff_right hdefault, haveJsonForms_annotations_iff]
  constructor
  · intro hforms b thawed hb hthawed
    rw [ha] at hb
    injection hb with hb
    rw [← hb, hmetadata] at hthawed
    injection hthawed with hthawed
    rw [← hthawed]
    exact hforms
  · intro hforms
    exact hforms a metadata ha hmetadata

/-!
## Shapes

The listed texts have a form in JSON, and of the other shapes it depends on the documents in them.
-/

theorem haveJsonForms_listed {values : List Value}
    (htexts : forall v, v ∈ values -> exists t, v = .text t) :
    HaveJsonForms [("type", .text "string"), ("enum", .list values)] := by
  have hvalues : HasJsonForm (.list values) := by
    refine .list (fun v hv => ?_)
    rcases htexts v hv with ⟨t, ht⟩
    rw [ht]
    exact .text t
  exact List.forall_mem_cons.mpr ⟨.text _, List.forall_mem_singleton.mpr hvalues⟩

theorem haveJsonForms_object_iff {properties : List (String × Value)}
    {fields : List (String × Schema)} :
    HaveJsonForms ([("type", .text "object"), ("properties", toValue properties)] ++
        requiredKeywords fields) <->
      HasJsonForm (.ofMembers properties) := by
  have hrequired : HaveJsonForms (requiredKeywords fields) := by
    intro k hk
    rw [mem_requiredKeywords hk]
    exact hasJsonForm_texts _
  rw [haveJsonForms_append_iff, and_iff_left hrequired, HaveJsonForms, List.forall_mem_cons,
    List.forall_mem_singleton]
  exact and_iff_right (.text "object")

theorem haveJsonForms_array_iff {items : Keywords} :
    HaveJsonForms [("type", .text "array"), ("items", toValue items)] <-> HaveJsonForms items := by
  rw [HaveJsonForms, List.forall_mem_cons, List.forall_mem_singleton]
  exact (and_iff_right (.text "array")).trans hasJsonForm_ofMembers_iff

theorem hasJsonForm_properties_iff {fields : List (String × Schema)}
    {properties : List (String × Value)} (h : renderFields fields = .ok properties)
    {P : Schema -> Prop} (hP : forall f, f ∈ fields -> forall keywords, render f.2 = .ok keywords ->
      (HaveJsonForms keywords <-> P f.2)) :
    HasJsonForm (.ofMembers properties) <-> forall f, f ∈ fields -> P f.2 := by
  have hparts := renderFields_eq_ok h
  rw [hasJsonForm_ofMembers_iff]
  constructor
  · intro hforms f hf
    rcases forall₂_of_mem hparts hf with ⟨p, hp, _hname, keywords, hkeywords, hdocument⟩
    have hform := hforms p hp
    rw [hdocument] at hform
    exact (hP f hf keywords hkeywords).mp (hasJsonForm_ofMembers_iff.mp hform)
  · intro hfields p hp
    rcases forall₂_of_mem hparts.flip hp with ⟨f, hf, _hname, keywords, hkeywords, hdocument⟩
    rw [hdocument]
    exact hasJsonForm_ofMembers_iff.mpr ((hP f hf keywords hkeywords).mpr (hfields f hf))

/-!
## Trees
-/

/-- The keywords of a schema have a form in JSON when those of its shape have one, and what is
rendered of its metadata. -/
theorem haveJsonForms_iff_shape {s : Schema} {keywords : Keywords} (htyped : s.HasTypedFallback)
    (h : render s = .ok keywords) :
    exists shape, Shapes s shape ∧
      (HaveJsonForms keywords <-> HaveJsonForms shape ∧ RendersMetadataAsJson s) := by
  rcases render_eq_ok h with ⟨a, shape, annotations, ha, hshape, hannotations, hkeywords⟩
  refine ⟨shape, hshape, ?_⟩
  rw [hkeywords, haveJsonForms_append_iff,
    haveJsonForms_attributeKeywords_iff ha htyped hannotations]

theorem haveJsonForms_render_iff {s : Schema} (hs : s.Everywhere Schema.WellFormed)
    (hconstraints : s.Everywhere (fun t => forall c, c ∈ t.ownConstraints ->
      c.BuiltIn ∧ c.HasNumericBounds))
    (htyped : s.Everywhere Schema.HasTypedFallback) {keywords : Keywords}
    (h : render s = .ok keywords) :
    HaveJsonForms keywords <-> s.Everywhere RendersMetadataAsJson := by
  induction s using Schema.tree_induction generalizing keywords with
  | primitive a kind constraints =>
      rcases haveJsonForms_iff_shape htyped.self h with ⟨shape, hshape, hforms⟩
      cases hshape with
      | primitive hshape =>
          rw [hforms, and_iff_right (haveJsonForms_constraintKeywords hconstraints.self hshape)]
          exact ⟨fun hself => .leaf hself (by simp) (by simp), fun hall => hall.self⟩
  | enumeration a values =>
      rcases haveJsonForms_iff_shape htyped.self h with ⟨shape, hshape, hforms⟩
      cases hshape with
      | enumeration =>
          rw [hforms, and_iff_right (haveJsonForms_listed hs.self.shape.right.right)]
          exact ⟨fun hself => .leaf hself (by simp) (by simp), fun hall => hall.self⟩
  | object a fields ih =>
      rcases haveJsonForms_iff_shape htyped.self h with ⟨shape, hshape, hforms⟩
      cases hshape with
      | @object _ _ properties hproperties =>
          have hdistinct : (Entries.keys properties).Nodup := by
            rw [keys_of_renderFields hproperties]
            exact Schema.nodup_of_mem_fields hs
          have hfields := hasJsonForm_properties_iff hproperties (P := fun t =>
            t.Everywhere RendersMetadataAsJson) (fun f hf keywords hkeywords =>
              ih f hf (hs.field hf) (hconstraints.field hf) (htyped.field hf) hkeywords)
          rw [hforms, Entries.ofList_of_nodup hdistinct, haveJsonForms_object_iff, hfields]
          exact ⟨fun hall => .object hall.right hall.left,
            fun hall => ⟨fun f hf => hall.field hf, hall.self⟩⟩
  | missing a =>
      cases hs.self.shape
  | array a element ih =>
      rcases haveJsonForms_iff_shape htyped.self h with ⟨shape, hshape, hforms⟩
      cases hshape with
      | array hitems =>
          rw [hforms, haveJsonForms_array_iff,
            ih hs.element hconstraints.element htyped.element hitems]
          exact ⟨fun hall => .array hall.right hall.left,
            fun hall => ⟨hall.element, hall.self⟩⟩
  | bare a =>
      exact hs.self.shape.elim
  | foreign v =>
      exact hs.self.shape.elim

/-!
## The dialect in front
-/

theorem keys_requiredKeywords_sublist (fields : List (String × Schema)) :
    (Entries.keys (requiredKeywords fields)).Sublist ["required"] := by
  unfold requiredKeywords
  split
  · exact List.nil_sublist _
  · exact List.Sublist.refl _

theorem Shapes.nodup_keys {s : Schema} {shape : Keywords} (h : Shapes s shape) :
    (Entries.keys shape).Nodup := by
  cases h with
  | @primitive _ kind _ _ hshape =>
      exact nodup_keys_constraintKeywords (nodup_keys_kindKeywords kind) hshape
  | @object _ fields _ _hproperties =>
      have hkeys := (List.Sublist.refl ["type", "properties"]).append
        (keys_requiredKeywords_sublist fields)
      rw [Entries.keys, List.map_append]
      exact hkeys.nodup (by decide)
  | enumeration | missing | array _ | bare =>
      simp [Entries.keys]

theorem nodup_keys_render {s : Schema} {keywords : Keywords} (h : render s = .ok keywords) :
    ("$schema" :: Entries.keys keywords).Nodup := by
  rcases render_eq_ok h with ⟨a, shape, annotations, _ha, hshape, hannotations, hkeywords⟩
  have hattributes : ("$schema" :: Entries.keys annotations).Nodup :=
    ((keys_attributeKeywords_sublist hannotations).cons_cons "$schema").nodup (by decide)
  have hother : forall name, name ∈ shapeNames -> name ∉ "$schema" :: attributeNames := by
    decide
  rw [hkeywords, Entries.keys, List.map_append, ← List.perm_middle.nodup_iff]
  refine List.nodup_append.mpr ⟨hshape.nodup_keys, hattributes, ?_⟩
  intro name hname other hannotated heq
  rcases List.mem_map.mp hname with ⟨k, hk, hname⟩
  refine hother k.1 (hshape.name_of_mem hk) ?_
  rw [hname, heq]
  exact ((keys_attributeKeywords_sublist hannotations).cons_cons "$schema").subset hannotated

theorem hasJsonForm_document_iff {s : Schema} {root : Bool} {keywords : Keywords}
    (h : render s = .ok keywords) :
    HasJsonForm (toValue (if root then Entries.merge [("$schema", .text dialect)] keywords
      else keywords)) <-> HaveJsonForms keywords := by
  cases root with
  | true =>
      have hmerged : Entries.merge [("$schema", .text dialect)] keywords =
          ("$schema", .text dialect) :: keywords :=
        Entries.merge_of_nodup (nodup_keys_render h)
      rw [if_pos rfl, hmerged]
      exact hasJsonForm_ofMembers_iff.trans
        (List.forall_mem_cons.trans (and_iff_right (.text dialect)))
  | false =>
      exact hasJsonForm_ofMembers_iff

end JsonSchema

namespace Schema

open JsonSchema (HasJsonForm RendersMetadataAsJson MetadataThaws)

/-!
## Documents
-/

/-- A schema with built-in constraints and numeric bounds is exported whenever its metadata can
be thawed everywhere.  The document can be written as JSON exactly when everywhere in the schema
the thawed metadata has a form in JSON as it stands: types, bounds, listed texts and fallback
values never stand in the way. -/
theorem document_hasJsonForm_iff {s : Schema} (root : Bool)
    (hs : Built (fun _ call _ => call.UsesBuiltIns ∧ call.HasNumericBounds) s) :
    (Answer.Succeeds (s.toJsonSchema root) <-> s.Everywhere MetadataThaws) ∧
    forall document, s.toJsonSchema root = .ok document ->
      (HasJsonForm document <-> s.Everywhere RendersMetadataAsJson) := by
  constructor
  · rw [← JsonSchema.succeeds_render_iff hs.wellFormed hs.constraints_numeric hs.fallbacks_thaw]
    exact Answer.succeeds_bind_pure
  · intro document hdocument
    rcases Answer.bind_eq_ok.mp hdocument with ⟨keywords, hkeywords, hdocument⟩
    rw [← Answer.pure_eq_ok.mp hdocument, JsonSchema.hasJsonForm_document_iff hkeywords]
    exact JsonSchema.haveJsonForms_render_iff hs.wellFormed hs.constraints_numeric
      hs.fallbacks_typed hkeywords

def dated (metadata : List (Value × Value)) : Schema :=
  .primitive ⟨false, some (.date ⟨2024, 1, 5⟩), metadata⟩ .date []

theorem built_dated {additions : List (Value × Value)}
    (h : Value.freezeEntries additions = additions)
    (hkeys : Entries.merge [] additions = additions) :
    Built (fun _ call _ => call.UsesBuiltIns ∧ call.HasNumericBounds) (dated additions) := by
  have hdefault : Call.apply (.withDefault (.date ⟨2024, 1, 5⟩)) date = .ok (dated []) := rfl
  have hmetadata : Call.apply (.withMetadata additions) (dated []) = .ok (dated additions) := by
    show Except.ok (dated (Value.freezeEntries (Entries.merge [] additions))) = _
    rw [hkeys, h]
  exact .plain (.plain (.ofKind .date) rfl hdefault ⟨trivial, trivial⟩) rfl hmetadata
    ⟨trivial, trivial⟩

theorem dated_hasJsonForm :
    exists document,
      (dated [(.text "editor", .mapping [(.text "input", .text "calendar")])]).toJsonSchema true =
        .ok document ∧ HasJsonForm document := by
  have hdated : Built (fun _ call _ => call.UsesBuiltIns ∧ call.HasNumericBounds)
      (dated [(.text "editor", .mapping [(.text "input", .text "calendar")])]) :=
    built_dated rfl rfl
  have hmetadata : RendersMetadataAsJson
      (dated [(.text "editor", .mapping [(.text "input", .text "calendar")])]) := by
    intro a metadata ha hthawed
    injection ha with ha
    rw [← ha] at hthawed
    injection hthawed with hthawed
    rw [← hthawed]
    have hother : (Value.text "editor" == .text "description") = false := by
      decide +kernel
    simp [JsonSchema.MetadataHasJsonForm, Value.field?, Entries.get?, Entries.erase, hother,
      JsonSchema.hasJsonForm_mapping_iff, HasJsonForm.text]
  exact ⟨_, rfl, ((document_hasJsonForm_iff true hdated).right _ rfl).mpr
    (.leaf hmetadata (by simp [dated]) (by simp [dated]))⟩

/-- The fallback is written as a text, but the same day in the metadata stays a day. -/
theorem since_not_written :
    Built (fun _ call _ => call.UsesBuiltIns ∧ call.HasNumericBounds)
      (dated [(.text "since", .date ⟨2024, 1, 5⟩)]) ∧
    (dated [(.text "since", .date ⟨2024, 1, 5⟩)]).toJsonSchema false =
      .ok (JsonSchema.toValue [("type", .text "string"), ("format", .text "date"),
        ("default", .text "2024-01-05"),
        ("$content", .mapping [(.text "since", .date ⟨2024, 1, 5⟩)])]) ∧
    ¬ HasJsonForm (JsonSchema.toValue [("type", .text "string"), ("format", .text "date"),
      ("default", .text "2024-01-05"),
      ("$content", .mapping [(.text "since", .date ⟨2024, 1, 5⟩)])]) := by
  have hday : (⟨2024, 1, 5⟩ : Date).isoText = "2024-01-05" := by
    decide +kernel
  have hother : (Value.text "since" == .text "description") = false := by
    decide +kernel
  have hdescription :
      JsonSchema.descriptionKeywords [(.text "since", .date ⟨2024, 1, 5⟩)] = [] := by
    simp [JsonSchema.descriptionKeywords, Value.field?, Entries.get?, hother]
  have hcontent : JsonSchema.contentKeywords [(.text "since", .date ⟨2024, 1, 5⟩)] =
      [("$content", .mapping [(.text "since", .date ⟨2024, 1, 5⟩)])] := by
    simp [JsonSchema.contentKeywords, Entries.erase, hother]
  refine ⟨built_dated rfl rfl, ?_, ?_⟩
  · rw [← hday, ← hcontent]
    show Except.ok (JsonSchema.toValue (_ ++ (_ ++ JsonSchema.descriptionKeywords _ ++ _))) = _
    rw [hdescription]
    rfl
  intro h
  have hcontent := JsonSchema.hasJsonForm_ofMembers_iff.mp h
    ("$content", .mapping [(.text "since", .date ⟨2024, 1, 5⟩)]) (by simp)
  have hsince := (JsonSchema.hasJsonForm_mapping_iff.mp hcontent _ List.mem_cons_self).right
  cases hsince

end Schema
end ContentSchema
