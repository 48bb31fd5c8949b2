import ContentSchema.Proofs.Schema.Consistency
import ContentSchema.Proofs.Validation.Mirrors

/-!
# Built schemas

Builders and calls make only well-formed schemas, and well-formed schemas are consistent.  That
a fallback value is never null holds because it is the outcome of a validation, and nothing that
is accepted comes out as null.
-/

namespace ContentSchema
namespace Schema

theorem wellFormed_of_fields {fields : List (String × Schema)} {entries : List FieldEntry}
    (h : fieldsOf entries = .ok fields) : (Schema.object .fresh fields).WellFormed := by
  rcases checkedFields_eq_ok h with ⟨hnodup, hnames, _hdeclared⟩
  exact wellFormed_of_fresh ⟨hnodup, fun name hname => (hnames name hname).right⟩ rfl

theorem wellFormed_of_effect {call : Call} {s t : Schema} (hs : Everywhere WellFormed s)
    (heffect : Effect call s t) : t.WellFormed := by
  have hschema := hs.self.isSchema
  cases heffect with
  | annotated ha hfallback =>
      refine ⟨wellShaped_withAttributes.mpr hs.self.shape, ?_⟩
      rw [fallback?_withAttributes hschema, hfallback, ← fallback?_of_attributes ha]
      exact hs.self.fallback
  | cleared _ ha hfallback =>
      refine ⟨wellShaped_withAttributes.mpr hs.self.shape, ?_⟩
      rw [fallback?_withAttributes hschema, hfallback]
      simp
  | defaulted _ ha hstrict hresult hok =>
      refine ⟨wellShaped_withAttributes.mpr hs.self.shape, ?_⟩
      rw [fallback?_withAttributes hschema]
      intro hnull
      injection hnull with hnull
      exact (mirrors_of_required hs hstrict hresult hok).ne_null hnull
  | refined hprimitive _ happlies =>
      subst hprimitive
      refine ⟨?_, hs.self.fallback⟩
      intro c hc
      rcases List.mem_append.mp hc with hc | hc
      · exact hs.self.shape c hc
      · rw [List.mem_singleton.mp hc]
        exact happlies
  | extended _hcall hobject hadditions hclash =>
      subst hobject
      rcases checkedFields_eq_ok hadditions with ⟨hnodup, hnames, _hdeclared⟩
      refine ⟨⟨?_, ?_⟩, hs.self.fallback⟩
      · simp only [fieldNames, List.map_append]
        refine List.nodup_append.mpr ⟨hs.self.shape.left, hnodup, ?_⟩
        intro name hname other hother heq
        rw [heq] at hname
        exact clash?_eq_none hclash hother hname
      · intro name hname
        simp only [fieldNames, List.map_append] at hname
        rcases List.mem_append.mp hname with hname | hname
        · exact hs.self.shape.right name hname
        · exact (hnames name hname).right
  | narrowed _hcall hobject =>
      rename_i a fields keep
      subst hobject
      have hsublist : (fieldNames (fields.filter keep)).Sublist (fieldNames fields) :=
        List.Sublist.map Prod.fst List.filter_sublist
      refine ⟨⟨List.Sublist.nodup hsublist hs.self.shape.left, ?_⟩, hs.self.fallback⟩
      intro name hname
      exact hs.self.shape.right name (hsublist.subset hname)
  | field _ hobject hf =>
      subst hobject
      exact (hs.field hf).self
  | element _ harray =>
      subst harray
      exact hs.element.self

theorem Built.wellFormed {rule : Schema -> Call -> Schema -> Prop} {s : Schema}
    (h : Built rule s) : Everywhere WellFormed s := by
  refine Built.everywhere (P := WellFormed) ?_ ?_ ?_ ?_ ?_ h
  · intro kind
    exact wellFormed_of_fresh (fun c hc => absurd hc List.not_mem_nil) rfl
  · intro arguments s hs
    rcases enum_eq_ok hs with ⟨values, hs, hshape⟩
    rw [hs]
    exact wellFormed_of_fresh hshape rfl
  · intro entries fields hfields
    exact wellFormed_of_fields hfields
  · intro element
    exact wellFormed_of_fresh rfl rfl
  · intro call s t hs _hentries heffect _hrule
    exact wellFormed_of_effect hs heffect

/-!
## Examples
-/

/-- Products, as an example of a built schema. -/
def product : Schema :=
  .object .fresh [
    ("name", .primitive .fresh .string [.nonEmpty]),
    ("price", .primitive .fresh .number [.positive]),
    ("status", .enumeration ⟨false, some (.text "draft"), []⟩
      [.text "draft", .text "published"]),
    ("tags", .array ⟨true, none, []⟩ (some string))]

theorem built_product {rule : Schema -> Call -> Schema -> Prop}
    (hrule : forall s call t, rule s call t) : Built rule product := by
  have hname : Built rule (.primitive .fresh .string [.nonEmpty]) := by
    have happly : Call.apply (.refine .nonEmpty) string =
        .ok (.primitive .fresh .string [.nonEmpty]) := rfl
    exact .plain (.ofKind .string) rfl happly (hrule _ _ _)
  have hprice : Built rule (.primitive .fresh .number [.positive]) := by
    have happly : Call.apply (.refine .positive) number =
        .ok (.primitive .fresh .number [.positive]) := rfl
    exact .plain (.ofKind .number) rfl happly (hrule _ _ _)
  have hstatus : Built rule (.enumeration ⟨false, some (.text "draft"), []⟩
      [.text "draft", .text "published"]) := by
    have henum : Schema.enum [.text "draft", .text "published"] =
        .ok (.enumeration .fresh [.text "draft", .text "published"]) := by
      have hrepeated : repeatedTexts ["draft", "published"] = [] := by
        show Constraint.orderedNames [] = []
        simp [Constraint.orderedNames]
      show (if (repeatedTexts ["draft", "published"]).isEmpty then _ else _) = _
      rw [hrepeated]
      rfl
    have hlisted : validate (.enumeration .fresh [.text "draft", .text "published"])
        (.text "draft") = .ok (.accepted (.text "draft")) :=
      (validate_eq_ok rfl (Or.inl (by simp))).mpr ⟨_, examine_listed List.mem_cons_self, rfl⟩
    have happly : Call.apply (.withDefault (.text "draft"))
        (.enumeration .fresh [.text "draft", .text "published"]) =
        .ok (.enumeration ⟨false, some (.text "draft"), []⟩
          [.text "draft", .text "published"]) :=
      withDefault_eq_ok.mpr ⟨_, _, _, rfl, rfl, hlisted, rfl, rfl⟩
    exact .plain (.enum henum) rfl happly (hrule _ _ _)
  have htags : Built rule (.array ⟨true, none, []⟩ (some string)) := by
    have harray : arrayOf string = .ok (.array .fresh (some string)) := rfl
    have happly : Call.apply .optional (.array .fresh (some string)) =
        .ok (.array ⟨true, none, []⟩ (some string)) := rfl
    exact .plain (.array (fun _ => .ofKind .string) harray) rfl happly (hrule _ _ _)
  exact .of_fields (List.forall_mem_cons.mpr ⟨hname, List.forall_mem_cons.mpr ⟨hprice,
    List.forall_mem_cons.mpr ⟨hstatus, List.forall_mem_singleton.mpr htags⟩⟩⟩) rfl

def image : Schema :=
  .object .fresh [("src", string), ("width", .primitive ⟨true, none, []⟩ .number [])]

def gallery : Schema :=
  .object .fresh [
    ("title", .primitive .fresh .string [.nonEmpty]),
    ("images", .array .fresh (some image))]

theorem built_image {rule : Schema -> Call -> Schema -> Prop}
    (hrule : forall s call t, rule s call t) : Built rule image := by
  have hwidth : Built rule (.primitive ⟨true, none, []⟩ .number []) := by
    have happly : Call.apply .optional number =
        .ok (.primitive ⟨true, none, []⟩ .number []) := rfl
    exact .plain (.ofKind .number) rfl happly (hrule _ _ _)
  exact .of_fields (List.forall_mem_cons.mpr ⟨.ofKind .string,
    List.forall_mem_singleton.mpr hwidth⟩) rfl

theorem built_gallery {rule : Schema -> Call -> Schema -> Prop}
    (hrule : forall s call t, rule s call t) : Built rule gallery := by
  have htitle : Built rule (.primitive .fresh .string [.nonEmpty]) := by
    have happly : Call.apply (.refine .nonEmpty) string =
        .ok (.primitive .fresh .string [.nonEmpty]) := rfl
    exact .plain (.ofKind .string) rfl happly (hrule _ _ _)
  have himages : Built rule (.array .fresh (some image)) :=
    .array (fun _ => built_image hrule) rfl
  exact .of_fields (List.forall_mem_cons.mpr ⟨htitle, List.forall_mem_singleton.mpr himages⟩) rfl

/-!
## Consistency

Values that are listed once are no repetition, since equal texts are one and the same.
-/

theorem hasRepetition_of_texts {values : List Value} (hnodup : values.Nodup)
    (htexts : forall v, v ∈ values -> exists t, v = .text t) : hasRepetition values = false := by
  induction values with
  | nil =>
      rfl
  | cons v rest ih =>
      rcases List.nodup_cons.mp hnodup with ⟨hv, hrest⟩
      rcases List.forall_mem_cons.mp htexts with ⟨⟨t, hvt⟩, hothers⟩
      have hcontains : rest.contains v = false := by
        rw [hvt] at hv ⊢
        rw [Bool.eq_false_iff, ne_eq, contains_text_iff]
        exact hv
      rw [hasRepetition, hcontains, ih hrest hothers]
      rfl

theorem areHashable_of_texts {values : List Value}
    (htexts : forall v, v ∈ values -> exists t, v = .text t) :
    Value.areHashable values = true := by
  induction values with
  | nil =>
      rfl
  | cons v rest ih =>
      rcases List.forall_mem_cons.mp htexts with ⟨⟨t, hvt⟩, hothers⟩
      rw [hvt, Value.areHashable, ih hothers]
      rfl

theorem WellFormed.consistent {s : Schema} (h : s.WellFormed) : s.Consistent := by
  have hshape := h.shape
  cases s with
  | primitive a kind constraints =>
      exact hshape
  | enumeration a values =>
      exact ⟨hshape.left, areHashable_of_texts hshape.right.right,
        hasRepetition_of_texts hshape.right.left hshape.right.right⟩
  | object a fields =>
      exact hshape.left
  | array a element =>
      exact hshape
  | bare a =>
      trivial
  | foreign v =>
      exact hshape

/-- Whatever builders and calls make passes the check under every path: everywhere in it field
names are distinct and not empty, listed values are distinct texts and there is at least one,
arrays have an element, and constraints apply to their kinds. -/
theorem built_consistent {rule : Schema -> Call -> Schema -> Prop} {s : Schema}
    (h : Built rule s) :
    (forall path, s.check path = .ok s) ∧ Everywhere WellShaped s := by
  have hwell := h.wellFormed
  constructor
  · intro path
    exact check_eq_ok_iff.mpr (hwell.imp fun _t => WellFormed.consistent)
  · exact hwell.imp fun _t => WellFormed.shape

theorem captioned_consistent :
    exists extended picked, gallery.extend [.pair (.text "caption") string] = .ok extended ∧
      extended.pick [.text "caption", .text "images", .text "caption"] = .ok picked ∧
      picked = .object .fresh [("images", .array .fresh (some image)), ("caption", string)] ∧
      Built (fun _ _ _ => True) picked ∧ picked.check "gallery" = .ok picked ∧
      picked.WellShaped := by
  let extended : Schema := .object .fresh
    [("title", .primitive .fresh .string [.nonEmpty]), ("images", .array .fresh (some image)),
      ("caption", string)]
  let picked : Schema := .object .fresh
    [("images", .array .fresh (some image)), ("caption", string)]
  let more : List FieldEntry := [.pair (.text "caption") string]
  let names : List Value := [.text "caption", .text "images", .text "caption"]
  have hextend : (Call.extend more).apply gallery = .ok extended := rfl
  have hpick : (Call.pick names).apply extended = .ok picked := by
    with_unfolding_all rfl
  have hextended : Built (fun _ _ _ => True) extended := by
    refine .call (built_gallery fun _ _ _ => trivial) ?_ hextend trivial
    intro name child hchild _hschema
    injection List.mem_singleton.mp hchild with _hname hchild
    rw [hchild]
    exact .ofKind .string
  have hpicked : Built (fun _ _ _ => True) picked := .plain hextended rfl hpick trivial
  rcases built_consistent hpicked with ⟨hcheck, hshaped⟩
  exact ⟨extended, picked, hextend, hpick, rfl, hpicked, hcheck "gallery", hshaped.self⟩

end Schema
end ContentSchema
