import ContentSchema.Proofs.JsonSchema.Acceptance
import ContentSchema.Proofs.Schema.Metadata
import ContentSchema.Value.Json

/-!
# Annotations

Metadata is rendered as annotations, a description and one keyword for all the rest, at each
place of a document that stands for a schema.  When the annotations are taken out at these
places, and nowhere else, the document of the schema without its metadata is left: they are
never written over another keyword, and a property of the same name is none of them.  So the
documents of two schemas that differ in nothing but metadata are equal without annotations.
-/

namespace ContentSchema
namespace JsonSchema

def annotates (keyword : String) : Bool :=
  keyword = "description" || keyword = "$content"

mutual

/-- A document without its annotations.  They are taken out of the document itself and, in turn,
out of the documents of its properties and of its items, and nothing else is. -/
def withoutAnnotations : Value -> Value
  | .mapping entries => .mapping (keywordsWithoutAnnotations entries)
  | v => v

def keywordsWithoutAnnotations : List (Value × Value) -> List (Value × Value)
  | [] => []
  | (.text keyword, argument) :: rest =>
      if annotates keyword then keywordsWithoutAnnotations rest
      else if keyword = "properties" then
        (.text keyword, propertiesWithoutAnnotations argument) :: keywordsWithoutAnnotations rest
      else if keyword = "items" then
        (.text keyword, withoutAnnotations argument) :: keywordsWithoutAnnotations rest
      else (.text keyword, argument) :: keywordsWithoutAnnotations rest
  | e :: rest => e :: keywordsWithoutAnnotations rest

def propertiesWithoutAnnotations : Value -> Value
  | .mapping properties => .mapping (documentsWithoutAnnotations properties)
  | v => v

def documentsWithoutAnnotations : List (Value × Value) -> List (Value × Value)
  | [] => []
  | (name, document) :: rest =>
      (name, withoutAnnotations document) :: documentsWithoutAnnotations rest

end

/-!
## Keywords

What is left of a list of keywords is found keyword by keyword.
-/

def argumentWithoutAnnotations (k : String × Value) : Value :=
  if k.1 = "properties" then propertiesWithoutAnnotations k.2
  else if k.1 = "items" then withoutAnnotations k.2
  else k.2

def unannotated (keywords : Keywords) : Keywords :=
  (keywords.filter (fun k => !annotates k.1)).map (fun k => (k.1, argumentWithoutAnnotations k))

@[simp] theorem documentsWithoutAnnotations_eq (documents : List (Value × Value)) :
    documentsWithoutAnnotations documents =
      documents.map (fun e => (e.1, withoutAnnotations e.2)) := by
  induction documents with
  | nil =>
      rfl
  | cons e rest ih =>
      rw [documentsWithoutAnnotations, ih, List.map_cons]

theorem withoutAnnotations_toValue (keywords : Keywords) :
    withoutAnnotations (toValue keywords) = toValue (unannotated keywords) := by
  rw [toValue, withoutAnnotations, toValue]
  congr 1
  induction keywords with
  | nil =>
      rfl
  | cons k rest ih =>
      rw [List.map_cons, keywordsWithoutAnnotations, ih, unannotated, unannotated,
        List.filter_cons]
      cases hannotation : annotates k.1 with
      | true =>
          rfl
      | false =>
          simp only [Bool.false_eq_true, ↓reduceIte, Bool.not_false, List.map_cons,
            argumentWithoutAnnotations]
          split
          · rfl
          · split <;> rfl

theorem propertiesWithoutAnnotations_ofMembers (properties : List (String × Value)) :
    propertiesWithoutAnnotations (.ofMembers properties) =
      .ofMembers (properties.map (fun p => (p.1, withoutAnnotations p.2))) := by
  rw [Value.ofMembers, propertiesWithoutAnnotations, documentsWithoutAnnotations_eq,
    Value.ofMembers, List.map_map, List.map_map]
  rfl

@[simp] theorem unannotated_append (first second : Keywords) :
    unannotated (first ++ second) = unannotated first ++ unannotated second := by
  rw [unannotated, List.filter_append, List.map_append]
  rfl

def IsPlain (k : String × Value) : Prop :=
  annotates k.1 = false ∧ k.1 ≠ "properties" ∧ k.1 ≠ "items"

instance (k : String × Value) : Decidable (IsPlain k) :=
  inferInstanceAs (Decidable (_ ∧ _ ∧ _))

theorem unannotated_of_plain {keywords : Keywords} (h : forall k, k ∈ keywords -> IsPlain k) :
    unannotated keywords = keywords := by
  have hkept : keywords.filter (fun k => !annotates k.1) = keywords :=
    List.filter_eq_self.mpr (fun k hk => by rw [(h k hk).left]; rfl)
  rw [unannotated, hkept]
  refine (List.map_congr_left ?_).trans (List.map_id _)
  intro k hk
  rcases h k hk with ⟨_hkept, hproperties, hitems⟩
  rw [argumentWithoutAnnotations, if_neg hproperties, if_neg hitems]
  rfl

theorem unannotated_cons (k : String × Value) (rest : Keywords) :
    unannotated (k :: rest) =
      if annotates k.1 then unannotated rest
      else (k.1, argumentWithoutAnnotations k) :: unannotated rest := by
  rw [unannotated, List.filter_cons]
  cases annotates k.1 <;> rfl

theorem unannotated_put (keywords : Keywords) (k : String × Value) :
    unannotated (Entries.put keywords k.1 k.2) =
      if annotates k.1 then unannotated keywords
      else Entries.put (unannotated keywords) k.1 (argumentWithoutAnnotations k) := by
  induction keywords with
  | nil =>
      rw [Entries.put, unannotated_cons]
      rfl
  | cons e rest ih =>
      rw [Entries.put]
      split
      · next hkey =>
          rw [unannotated_cons, unannotated_cons, eq_of_beq hkey]
          split
          · rfl
          · rw [Entries.put, if_pos (beq_self_eq_true k.1)]
      · next hkey =>
          rw [unannotated_cons, unannotated_cons, ih]
          split
          · rfl
          · split
            · rfl
            · rw [Entries.put, if_neg hkey]

theorem unannotated_merge (keywords additions : Keywords) :
    unannotated (Entries.merge keywords additions) =
      Entries.merge (unannotated keywords) (unannotated additions) := by
  induction additions generalizing keywords with
  | nil =>
      rfl
  | cons k rest ih =>
      show unannotated (Entries.merge (Entries.put keywords k.1 k.2) rest) = _
      rw [ih, unannotated_put, unannotated_cons]
      split <;> rfl

/-!
## Renderings
-/

theorem plain_of_constraintKeywords {kind : PrimitiveKind} {constraints : List Constraint}
    {shape : Keywords} (h : constraints.foldlM addConstraint (kindKeywords kind) = .ok shape)
    {k : String × Value} (hk : k ∈ shape) : IsPlain k := by
  have hplain : forall name, name ∈ constraintNames -> IsPlain (name, .null) := by
    decide
  exact hplain k.1 (name_of_mem_constraintKeywords h hk)

theorem unannotated_fallbackKeywords {fallback : Option Value} {keywords : Keywords}
    (h : fallbackKeywords fallback = .ok keywords) : unannotated keywords = keywords := by
  rcases fallbackKeywords_cases h with ⟨_hnone, h⟩ | ⟨d, w, _hd, _hw, h⟩
  · rw [h]
    rfl
  · rw [h]
    rfl

theorem unannotated_annotations (metadata : List (Value × Value)) :
    unannotated (descriptionKeywords metadata ++ contentKeywords metadata) = [] := by
  rw [unannotated, List.filter_eq_nil_iff.mpr]
  · rfl
  · intro k hk
    rcases name_of_mem_annotations hk with hname | hname <;> rw [hname] <;> decide

theorem unannotated_attributeKeywords {a : Attributes}
    (h : exists thawed, Value.thawEntries? a.metadata = some thawed) :
    (attributeKeywords a).map unannotated = attributeKeywords a.withoutMetadata := by
  rcases h with ⟨metadata, hmetadata⟩
  cases hfallback : fallbackKeywords a.fallback with
  | error fault =>
      simp only [attributeKeywords, Attributes.withoutMetadata, hfallback]
      rfl
  | ok keywords =>
      have hleft : attributeKeywords a =
          .ok (keywords ++ (descriptionKeywords metadata ++ contentKeywords metadata)) :=
        attributeKeywords_eq_ok.mpr ⟨keywords, metadata, hfallback, hmetadata, rfl⟩
      have hright : attributeKeywords a.withoutMetadata = .ok (keywords ++ []) :=
        attributeKeywords_eq_ok.mpr ⟨keywords, [], hfallback, rfl, rfl⟩
      rw [hleft, hright, Except.map, unannotated_append, unannotated_fallbackKeywords hfallback,
        unannotated_annotations]

@[simp] theorem requiredNames_fieldsWithoutMetadata (fields : List (String × Schema)) :
    requiredNames (Schema.fieldsWithoutMetadata fields) = requiredNames fields := by
  induction fields with
  | nil =>
      rw [Schema.fieldsWithoutMetadata]
  | cons f rest ih =>
      have hrequired : (f.2.withoutMetadata.attributes?.map Attributes.isRequired).getD false =
          (f.2.attributes?.map Attributes.isRequired).getD false := by
        rw [Schema.attributes?_withoutMetadata]
        cases f.2.attributes? <;> rfl
      unfold requiredNames at ih ⊢
      rw [Schema.fieldsWithoutMetadata, List.filter_cons, List.filter_cons, hrequired]
      split
      · rw [List.map_cons, ih, List.map_cons]
      · exact ih

theorem plain_of_requiredKeywords {fields : List (String × Schema)} {k : String × Value}
    (hk : k ∈ requiredKeywords fields) : IsPlain k := by
  rw [mem_requiredKeywords hk]
  exact (by decide : IsPlain ("required", .null))

theorem unannotated_renderFields {fields : List (String × Schema)}
    (h : forall f, f ∈ fields -> (render f.2).map unannotated = render f.2.withoutMetadata) :
    (renderFields fields).map
        (fun members => members.map (fun m => (m.1, withoutAnnotations m.2))) =
      renderFields (Schema.fieldsWithoutMetadata fields) := by
  induction fields with
  | nil =>
      simp only [Schema.fieldsWithoutMetadata, renderFields]
      rfl
  | cons f rest ih =>
      rcases List.forall_mem_cons.mp h with ⟨hfirst, hrest⟩
      rw [Schema.fieldsWithoutMetadata, renderFields, renderFields, ← hfirst, ← ih hrest]
      refine Answer.map_both (fun keywords members _hkeywords _hmembers => ?_)
      rw [List.map_cons, withoutAnnotations_toValue]

theorem unannotated_properties (properties : List (String × Value)) :
    unannotated [("type", .text "object"), ("properties", toValue (Entries.ofList properties))] =
      [("type", .text "object"), ("properties", toValue (Entries.ofList
        (properties.map (fun m => (m.1, withoutAnnotations m.2)))))] := by
  have hproperties := propertiesWithoutAnnotations_ofMembers (Entries.ofList properties)
  rw [← Entries.ofList_map withoutAnnotations] at hproperties
  exact congrArg (fun v => [("type", Value.text "object"), ("properties", v)]) hproperties

theorem unannotated_items (items : Keywords) :
    unannotated [("type", .text "array"), ("items", toValue items)] =
      [("type", .text "array"), ("items", toValue (unannotated items))] :=
  congrArg (fun v => [("type", Value.text "array"), ("items", v)])
    (withoutAnnotations_toValue items)

/-- What is left of a rendering without annotations is the rendering without metadata. -/
theorem unannotated_render {s : Schema} (h : s.Everywhere MetadataThaws) :
    (render s).map unannotated = render s.withoutMetadata := by
  induction s using Schema.tree_induction with
  | primitive a kind constraints =>
      rw [Schema.withoutMetadata, render, render, ← unannotated_attributeKeywords (h.self a rfl)]
      cases hshape : constraints.foldlM addConstraint (kindKeywords kind) with
      | error fault =>
          rfl
      | ok shape =>
          refine Answer.map_bind_pure (fun keywords _hkeywords => ?_)
          rw [unannotated_append,
            unannotated_of_plain (fun k hk => plain_of_constraintKeywords hshape hk)]
  | enumeration a values =>
      rw [Schema.withoutMetadata, render, render, ← unannotated_attributeKeywords (h.self a rfl)]
      exact Answer.map_bind_pure (fun keywords _hkeywords => unannotated_append _ _)
  | object a fields ih =>
      have hfields := unannotated_renderFields (fun f hf => ih f hf (h.field hf))
      rw [Schema.withoutMetadata, render, render, ← unannotated_attributeKeywords (h.self a rfl),
        ← hfields]
      refine Answer.map_both (fun properties keywords _hproperties _hkeywords => ?_)
      rw [unannotated_append, unannotated_append, unannotated_properties,
        unannotated_of_plain (fun k hk => plain_of_requiredKeywords hk), requiredKeywords,
        requiredKeywords, requiredNames_fieldsWithoutMetadata]
  | missing a =>
      rw [Schema.withoutMetadata, render, render, ← unannotated_attributeKeywords (h.self a rfl)]
      exact Answer.map_bind_pure (fun keywords _hkeywords => unannotated_append _ _)
  | array a element ih =>
      rw [Schema.withoutMetadata, render, render, ← unannotated_attributeKeywords (h.self a rfl),
        ← ih h.element]
      refine Answer.map_both (fun items keywords _hitems _hkeywords => ?_)
      rw [unannotated_append, unannotated_items]
  | bare a =>
      rw [Schema.withoutMetadata, render, render, ← unannotated_attributeKeywords (h.self a rfl)]
  | foreign v =>
      rw [Schema.withoutMetadata, render]
      rfl

theorem withoutAnnotations_toJsonSchema {s : Schema} (h : s.Everywhere MetadataThaws)
    (root : Bool) :
    (s.toJsonSchema root).map withoutAnnotations = s.withoutMetadata.toJsonSchema root := by
  rw [Schema.toJsonSchema, Schema.toJsonSchema, ← unannotated_render h]
  refine Answer.map_bind_pure (fun keywords _hkeywords => ?_)
  rw [withoutAnnotations_toValue]
  cases root with
  | true =>
      simp only [if_true, unannotated_merge]
      rfl
  | false =>
      rfl

theorem properties_withoutAnnotations {a : Attributes} {fields : List (String × Schema)}
    {root : Bool} {document : Value}
    (h : (Schema.object a fields).toJsonSchema root = .ok document) :
    exists entries properties, withoutAnnotations document = .mapping entries ∧
      Value.field? entries "properties" = some (.ofMembers properties) ∧
      (forall name, name ∈ properties.map Prod.fst <-> name ∈ Schema.fieldNames fields) ∧
      (forall p, p ∈ properties -> exists f, f ∈ fields ∧ f.1 = p.1 ∧
        (f.2.toJsonSchema false).map withoutAnnotations = .ok p.2) := by
  rcases Answer.bind_eq_ok.mp h with ⟨keywords, hkeywords, h⟩
  rw [render] at hkeywords
  rcases Answer.bind_eq_ok.mp hkeywords with ⟨members, hmembers, hkeywords⟩
  rcases Answer.bind_eq_ok.mp hkeywords with ⟨others, hothers, hkeywords⟩
  have hproperties := propertiesWithoutAnnotations_ofMembers (Entries.ofList members)
  have hlater : "properties" ∉ Entries.keys (unannotated (requiredKeywords fields ++ others)) := by
    intro hkey
    rcases List.mem_map.mp hkey with ⟨kept, hkept, hname⟩
    rcases List.mem_map.mp hkept with ⟨k, hk, hkept⟩
    have hname : k.1 = "properties" := by
      rw [← hname, ← hkept]
    rcases List.mem_append.mp (List.mem_filter.mp hk).left with hk | hk
    · exact (plain_of_requiredKeywords hk).right.left hname
    · rcases name_of_mem_attributeKeywords hothers hk with h | h | h <;>
        simp [h] at hname
  have hleft : unannotated keywords = [("type", .text "object")] ++
      ("properties", .ofMembers ((Entries.ofList members).map
        (fun p => (p.1, withoutAnnotations p.2)))) ::
        unannotated (requiredKeywords fields ++ others) := by
    rw [← Answer.pure_eq_ok.mp hkeywords, List.append_assoc, unannotated_append, ← hproperties]
    rfl
  have hfield : Entries.get? (unannotated (if root then
      Entries.merge [("$schema", .text dialect)] keywords else keywords)) "properties" =
      some (.ofMembers ((Entries.ofList members).map
        (fun p => (p.1, withoutAnnotations p.2)))) := by
    cases root with
    | true => rw [if_pos rfl, unannotated_merge, hleft, Entries.get?_merge_of_last hlater]
    | false =>
        rw [if_neg Bool.false_ne_true, hleft]
        exact Entries.get?_of_first (by decide)
  rw [← Answer.pure_eq_ok.mp h, withoutAnnotations_toValue]
  refine ⟨_, _, rfl, Value.field?_ofMembers.trans hfield, ?_, ?_⟩
  · intro name
    rw [List.map_map]
    exact Entries.mem_keys_ofList.trans (by rw [keys_of_renderFields hmembers])
  · intro p hp
    rcases List.mem_map.mp hp with ⟨m, hm, hpm⟩
    have hm : m ∈ members := (Entries.mem_of_mem_merge hm).resolve_left List.not_mem_nil
    rcases exists_field_of_property hmembers hm with ⟨f, child, hf, hname, hchild, hdocument⟩
    refine ⟨f, hf, ?_, ?_⟩
    · rw [← hpm, hname]
    · rw [← hpm, hdocument, Schema.toJsonSchema, hchild]
      rfl

end JsonSchema

/-!
## Metadata does not count
-/

namespace Schema

def HasSetFreeMetadata (s : Schema) : Prop :=
  forall a, s.attributes? = some a -> forall e, e ∈ a.metadata -> e.2.SetFree

theorem HasSetFreeMetadata.thaws {s : Schema} (h : s.HasSetFreeMetadata) :
    JsonSchema.MetadataThaws s := by
  intro a ha
  exact ⟨_, Value.thawEntries?_eq_some.mpr ⟨fun e he => (h a ha e he).thaws, rfl⟩⟩

open JsonSchema (withoutAnnotations) in
/-- Metadata is of no consequence.  Two trees that differ in nothing but metadata, at whatever
places, have the same outcome for every value, are both accepted or refused with the same words,
and are exported as documents that are equal without their annotations.  Taking out annotations
spares the properties: there stays one for each name of a field, whatever the name. -/
theorem metadata_of_no_consequence {s t : Schema} (h : s.SameButMetadata t)
    (hs : s.Everywhere HasSetFreeMetadata) (ht : t.Everywhere HasSetFreeMetadata) :
    (forall raw, s.validate raw = t.validate raw) ∧
    (forall path, (s.check path).map (fun _ => ()) = (t.check path).map (fun _ => ())) ∧
    (forall root, (s.toJsonSchema root).map withoutAnnotations =
      (t.toJsonSchema root).map withoutAnnotations) ∧
    (forall a fields root document, s = .object a fields -> s.toJsonSchema root = .ok document ->
      exists entries properties, withoutAnnotations document = .mapping entries ∧
        Value.field? entries "properties" = some (.ofMembers properties) ∧
        (forall name, name ∈ properties.map Prod.fst <-> name ∈ fieldNames fields) ∧
        (forall p, p ∈ properties -> exists f, f ∈ fields ∧ f.1 = p.1 ∧
          (f.2.toJsonSchema false).map withoutAnnotations = .ok p.2)) := by
  refine ⟨h.validate_eq, h.check_eq, ?_, ?_⟩
  · intro root
    rw [JsonSchema.withoutAnnotations_toJsonSchema (hs.imp (fun _u hu => hu.thaws)), h,
      JsonSchema.withoutAnnotations_toJsonSchema (ht.imp (fun _u hu => hu.thaws))]
  · intro a fields root document hobject hdocument
    rw [hobject] at hdocument
    exact JsonSchema.properties_withoutAnnotations hdocument

/-!
A card whose fields are named like annotations, with metadata at all of its places.
-/

def card (own description content : List (Value × Value)) : Schema :=
  .object ⟨false, none, own⟩
    [("description", .primitive ⟨false, none, description⟩ .string [.nonEmpty]),
      ("$content", .array ⟨true, none, []⟩ (some (.primitive ⟨false, none, content⟩ .number [])))]

def describedCard : Schema :=
  card [(.text "description", .text "A card")] []
    [(.text "editor", .mapping [(.text "widget", .text "slider")])]

def hintedCard : Schema :=
  card [] [(.text "description", .text "What is on it"), (.text "rows", .int 3)] []

theorem card_setFree {own description content : List (Value × Value)}
    (hown : forall e, e ∈ own -> e.2.SetFree)
    (hdescription : forall e, e ∈ description -> e.2.SetFree)
    (hcontent : forall e, e ∈ content -> e.2.SetFree) :
    (card own description content).Everywhere HasSetFreeMetadata := by
  have hattributes {s : Schema} {a : Attributes} (ha : s.attributes? = some a)
      (h : forall e, e ∈ a.metadata -> e.2.SetFree) : s.HasSetFreeMetadata := by
    intro b hb
    rw [ha] at hb
    injection hb with hb
    rw [← hb]
    exact h
  refine Everywhere.object (hattributes rfl hown) (List.forall_mem_cons.mpr ⟨?_,
    List.forall_mem_singleton.mpr ?_⟩)
  · exact Everywhere.leaf (hattributes rfl hdescription) (by simp) (by simp)
  · exact Everywhere.array (hattributes rfl (fun _e he => absurd he List.not_mem_nil))
      (Everywhere.leaf (hattributes rfl hcontent) (by simp) (by simp))

theorem cards_differ_in_annotations :
    describedCard.SameButMetadata hintedCard ∧
    (forall raw, describedCard.validate raw = hintedCard.validate raw) ∧
    Answer.Succeeds (describedCard.toJsonSchema true) ∧
    (describedCard.toJsonSchema true).map JsonSchema.withoutAnnotations =
      (hintedCard.toJsonSchema true).map JsonSchema.withoutAnnotations ∧
    (describedCard.toJsonSchema true).toOption.map Value.json ≠
      (hintedCard.toJsonSchema true).toOption.map Value.json := by
  have hsame : describedCard.SameButMetadata hintedCard := rfl
  have htext (t : String) : (Value.text t).SetFree := Value.setFree_scalar rfl
  have hnone : forall e : Value × Value, e ∈ [] -> e.2.SetFree :=
    fun _e he => absurd he List.not_mem_nil
  have hdescribed : describedCard.Everywhere HasSetFreeMetadata :=
    card_setFree (List.forall_mem_singleton.mpr (htext _)) hnone (List.forall_mem_singleton.mpr
      (Value.setFree_mapping (List.forall_mem_singleton.mpr ⟨htext _, htext _⟩)))
  have hhinted : hintedCard.Everywhere HasSetFreeMetadata :=
    card_setFree hnone (List.forall_mem_cons.mpr ⟨htext _,
      List.forall_mem_singleton.mpr (Value.setFree_scalar rfl)⟩) hnone
  rcases metadata_of_no_consequence hsame hdescribed hhinted with
    ⟨hvalidate, _hcheck, hexported, _hproperties⟩
  exact ⟨hsame, hvalidate, ⟨_, rfl⟩, hexported true, by decide +kernel⟩

end Schema
end ContentSchema
