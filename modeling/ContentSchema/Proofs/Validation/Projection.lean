import ContentSchema.Proofs.Schema.Assembly

/-!
# What validation sees

A schema declares only a part of a document.  The projection of a raw value to a schema keeps
that part: the entries of declared fields that are not null, with what is declared of them, and
the elements of arrays.  Validation cannot tell a raw value from its projection, so what is not
declared, an explicit null in the place of nothing, the order of keys, and whether a sequence is
a list or a tuple make no difference to the errors or to the record, at no depth.
-/

namespace ContentSchema
namespace Schema

/-!
## Projections
-/

mutual

/-- The part of a raw value that the schema declares, with fields in declared order and
sequences as tuples. -/
def project : Schema -> Value -> Value
  | object _ fields, raw =>
      match raw with
      | .mapping entries => .ofMembers (projectMembers fields entries)
      | _ => raw
  | array _ (some element), raw =>
      match sequenceItems? raw with
      | some items => .tuple (items.map (fun v => element.project v))
      | none => raw
  | _, raw => raw

def projectMembers : List (String × Schema) -> List (Value × Value) -> List (String × Value)
  | [], _ => []
  | (name, child) :: rest, entries =>
      match candidate? entries name with
      | some raw => (name, child.project raw) :: projectMembers rest entries
      | none => projectMembers rest entries

end

theorem projectMembers_held {f : String × Schema} {rest : List (String × Schema)}
    {entries : List (Value × Value)} {raw : Value} (h : Held entries f.1 raw) :
    projectMembers (f :: rest) entries = (f.1, f.2.project raw) :: projectMembers rest entries := by
  rw [projectMembers, candidate?_eq_some_iff.mpr h]

theorem projectMembers_absent {f : String × Schema} {rest : List (String × Schema)}
    {entries : List (Value × Value)} (h : Absent entries f.1) :
    projectMembers (f :: rest) entries = projectMembers rest entries := by
  rw [projectMembers, candidate?_eq_none_iff.mpr h]

theorem project_object_other {a : Attributes} {fields : List (String × Schema)} {raw : Value}
    (h : forall entries, raw ≠ .mapping entries) : project (.object a fields) raw = raw := by
  cases raw with
  | mapping entries =>
      exact absurd rfl (h entries)
  | _ =>
      rfl

theorem project_array_other {a : Attributes} {element : Schema} {raw : Value}
    (h : sequenceItems? raw = none) : project (.array a (some element)) raw = raw := by
  rw [project, h]

theorem project_array_sequence {a : Attributes} {element : Schema} {raw : Value}
    {items : List Value} (h : sequenceItems? raw = some items) :
    project (.array a (some element)) raw = .tuple (items.map element.project) := by
  rw [project, h]

@[simp] theorem project_eq_null_iff {s : Schema} {raw : Value} :
    s.project raw = .null <-> raw = .null := by
  cases s with
  | object a fields =>
      cases raw <;> simp [project, Value.ofMembers]
  | array a element =>
      cases element <;> cases raw <;> simp [project, sequenceItems?]
  | _ =>
      rfl

/-!
## Members of a projection

A projection holds for a declared field what is declared of the value that the mapping holds
for it.
-/

theorem mem_projectMembers_iff {fields : List (String × Schema)}
    {entries : List (Value × Value)} {m : String × Value} :
    m ∈ projectMembers fields entries <->
      exists f raw, f ∈ fields ∧ f.1 = m.1 ∧ Held entries f.1 raw ∧ m.2 = f.2.project raw := by
  induction fields with
  | nil =>
      simp [projectMembers]
  | cons f rest ih =>
      constructor
      · intro hm
        rcases held_or_absent entries f.1 with ⟨raw, hheld⟩ | habsent
        · rw [projectMembers_held hheld] at hm
          rcases List.mem_cons.mp hm with hm | hm
          · rw [hm]
            exact ⟨f, raw, List.mem_cons_self, rfl, hheld, rfl⟩
          · rcases ih.mp hm with ⟨g, other, hg, hmember⟩
            exact ⟨g, other, List.mem_cons_of_mem _ hg, hmember⟩
        · rw [projectMembers_absent habsent] at hm
          rcases ih.mp hm with ⟨g, other, hg, hmember⟩
          exact ⟨g, other, List.mem_cons_of_mem _ hg, hmember⟩
      · intro h
        rcases h with ⟨g, other, hg, hname, hother, hvalue⟩
        rcases held_or_absent entries f.1 with ⟨raw, hheld⟩ | habsent
        · rw [projectMembers_held hheld]
          rcases List.mem_cons.mp hg with hg | hg
          · rw [hg] at hname hother hvalue
            rw [hother.unique hheld] at hvalue
            exact List.mem_cons.mpr (Or.inl (Prod.ext hname.symm hvalue))
          · exact List.mem_cons_of_mem _ (ih.mpr ⟨g, other, hg, hname, hother, hvalue⟩)
        · rw [projectMembers_absent habsent]
          rcases List.mem_cons.mp hg with hg | hg
          · rw [hg] at hother
            exact absurd hother (habsent other)
          · exact ih.mpr ⟨g, other, hg, hname, hother, hvalue⟩

theorem names_projectMembers {fields : List (String × Schema)}
    {entries : List (Value × Value)} :
    ((projectMembers fields entries).map Prod.fst).Sublist (fieldNames fields) := by
  induction fields with
  | nil =>
      exact List.Sublist.slnil
  | cons f rest ih =>
      rcases held_or_absent entries f.1 with ⟨raw, hheld⟩ | habsent
      · rw [projectMembers_held hheld]
        exact ih.cons_cons f.1
      · rw [projectMembers_absent habsent]
        exact ih.cons f.1

variable {fields : List (String × Schema)} {entries : List (Value × Value)}

theorem candidate?_project (hnodup : (fieldNames fields).Nodup) {f : String × Schema}
    (hf : f ∈ fields) :
    candidate? ((projectMembers fields entries).map (fun m => (.text m.1, m.2))) f.1 =
      (candidate? entries f.1).map f.2.project := by
  rcases held_or_absent entries f.1 with ⟨raw, hheld⟩ | habsent
  · have hmember : (f.1, f.2.project raw) ∈ projectMembers fields entries :=
      mem_projectMembers_iff.mpr ⟨f, raw, hf, rfl, hheld, rfl⟩
    have hnull : f.2.project raw ≠ .null := by
      rw [ne_eq, project_eq_null_iff]
      exact hheld.right
    rw [candidate?_eq_some_iff.mpr hheld]
    exact candidate?_eq_some_iff.mpr
      (held_ofMembers (names_projectMembers.nodup hnodup) hmember hnull)
  · rw [candidate?_eq_none_iff.mpr habsent]
    refine candidate?_eq_none_iff.mpr (absent_ofMembers ?_)
    intro hname
    rcases List.mem_map.mp hname with ⟨m, hm, hmf⟩
    rcases mem_projectMembers_iff.mp hm with ⟨g, raw, _hg, hgm, hheld, _hvalue⟩
    rw [hgm, hmf] at hheld
    exact habsent raw hheld

/-!
## Examination of a projection

The paths under which the parts of a document are examined are those of the schema and of the
indices, which a projection keeps.
-/

theorem examineItems_map {examine : Value -> String -> Answer Findings} {f : Value -> Value}
    {path : String} (h : forall item place, examine (f item) place = examine item place)
    (index : Nat) (items : List Value) :
    examineItems examine path index (items.map f) = examineItems examine path index items := by
  induction items generalizing index with
  | nil =>
      rfl
  | cons item rest ih =>
      rw [List.map_cons, examineItems, examineItems, h, ih]

theorem examine_project {s : Schema} {raw : Value} {path : String}
    (hs : Everywhere WellFormed s) : s.examine (s.project raw) path = s.examine raw path := by
  induction s using tree_induction generalizing raw path with
  | primitive a kind constraints =>
      rfl
  | enumeration a values =>
      rfl
  | object a fields ih =>
      by_cases hmapping : exists entries, raw = .mapping entries
      · rcases hmapping with ⟨entries, hraw⟩
        subst hraw
        have hfields : forall f, f ∈ fields ->
            examineField ((projectMembers fields entries).map (fun m => (.text m.1, m.2))) path f =
              examineField entries path f := by
          intro f hf
          rw [examineField, examineField, candidate?_project (nodup_of_mem_fields hs) hf]
          cases candidate? entries f.1 with
          | none =>
              rfl
          | some raw =>
              show (f.2.examine (f.2.project raw) _ >>= _) = _
              rw [ih f hf (hs.field hf)]
        simp only [project, Value.ofMembers, examine,
          examineFields_congr (fields_areSchemas hs) hfields]
      · rw [project_object_other (not_exists.mp hmapping)]
  | missing a =>
      rfl
  | array a element ih =>
      have helement : forall item place,
          element.examine (element.project item) place = element.examine item place :=
        fun _ _ => ih hs.element
      cases hitems : sequenceItems? raw with
      | none =>
          rw [project_array_other hitems]
      | some items =>
          have htuple : sequenceItems? (.tuple (items.map element.project)) =
              some (items.map element.project) := rfl
          rw [project_array_sequence hitems]
          simp only [examine, hitems, htuple, examineItems_map helement]
  | bare a =>
      rfl
  | foreign v =>
      rfl

/-- Validation cannot tell a raw value from its projection. -/
theorem validate_project {s : Schema} {raw : Value} (hs : Everywhere WellFormed s) :
    s.validate (s.project raw) = s.validate raw := by
  have hnull : (s.project raw).isNull = raw.isNull := by
    rw [Bool.eq_iff_iff, Value.isNull_iff, Value.isNull_iff, project_eq_null_iff]
  simp only [validate, hnull, examine_project hs]

/-!
## Values that a schema sees alike

Two raw values have the same projection exactly when the same declared fields hold values in
both, and these are alike in their turn.  Nothing is said about other keys, about fields that
are null or not there, or about the order in which a mapping has its keys.
-/

inductive Alike : Schema -> Value -> Value -> Prop
  | same {s : Schema} {raw : Value} : Alike s raw raw
  | mapping {a : Attributes} {fields : List (String × Schema)}
      {entries others : List (Value × Value)} :
      (forall f, f ∈ fields -> (Absent entries f.1 <-> Absent others f.1)) ->
      (forall f v w, f ∈ fields -> Held entries f.1 v -> Held others f.1 w -> Alike f.2 v w) ->
      Alike (.object a fields) (.mapping entries) (.mapping others)
  | sequence {a : Attributes} {element : Schema} {raw other : Value}
      {items others : List Value} :
      sequenceItems? raw = some items -> sequenceItems? other = some others ->
      items.length = others.length ->
      (forall (i : Nat) v w, items[i]? = some v -> others[i]? = some w -> Alike element v w) ->
      Alike (.array a (some element)) raw other

theorem projectMembers_congr {others : List (Value × Value)}
    (habsent : forall f, f ∈ fields -> (Absent entries f.1 <-> Absent others f.1))
    (hheld : forall f v w, f ∈ fields -> Held entries f.1 v -> Held others f.1 w ->
      f.2.project v = f.2.project w) :
    projectMembers fields entries = projectMembers fields others := by
  induction fields with
  | nil =>
      rfl
  | cons f rest ih =>
      rcases List.forall_mem_cons.mp habsent with ⟨hfirst, hrest⟩
      have hlater := ih hrest (fun g v w hg => hheld g v w (List.mem_cons_of_mem _ hg))
      rcases held_or_absent entries f.1 with ⟨v, hv⟩ | hnone
      · rcases held_or_absent others f.1 with ⟨w, hw⟩ | hnone
        · rw [projectMembers_held hv, projectMembers_held hw, hlater,
            hheld f v w List.mem_cons_self hv hw]
        · exact absurd hv (hfirst.mpr hnone v)
      · rw [projectMembers_absent hnone, projectMembers_absent (hfirst.mp hnone), hlater]

theorem alike_of_members {others : List (Value × Value)}
    (hnodup : (fieldNames fields).Nodup)
    (h : projectMembers fields entries = projectMembers fields others) {f : String × Schema}
    (hf : f ∈ fields) {v : Value} (hv : Held entries f.1 v) :
    exists w, Held others f.1 w ∧ f.2.project v = f.2.project w := by
  have hmember : (f.1, f.2.project v) ∈ projectMembers fields entries :=
    mem_projectMembers_iff.mpr ⟨f, v, hf, rfl, hv, rfl⟩
  rw [h] at hmember
  rcases mem_projectMembers_iff.mp hmember with ⟨g, w, hg, hgf, hw, hvalue⟩
  rw [field_unique hnodup hg hf hgf] at hw hvalue
  exact ⟨w, hw, hvalue⟩

theorem map_eq_map_iff_getElem? {f : Value -> Value} {items others : List Value} :
    items.map f = others.map f <->
      items.length = others.length ∧
        forall (i : Nat) v w, items[i]? = some v -> others[i]? = some w -> f v = f w := by
  constructor
  · intro h
    refine ⟨by simpa using congrArg List.length h, fun i v w hv hw => ?_⟩
    have hi := congrArg (fun xs => xs[i]?) h
    simpa [hv, hw] using hi
  · intro h
    refine List.ext_getElem (by simpa using h.left) (fun i hi hi' => ?_)
    rw [List.getElem_map, List.getElem_map]
    exact h.right i _ _ (List.getElem?_eq_getElem _) (List.getElem?_eq_getElem _)

theorem Alike.project_eq {s : Schema} {raw other : Value} (h : Alike s raw other) :
    s.project raw = s.project other := by
  induction h with
  | same =>
      rfl
  | mapping habsent _hheld ih =>
      exact congrArg Value.ofMembers (projectMembers_congr habsent ih)
  | sequence hraw hother hlength _hitems ih =>
      rw [project_array_sequence hraw, project_array_sequence hother,
        map_eq_map_iff_getElem?.mpr ⟨hlength, ih⟩]

theorem sequenceItems?_eq_none_of_project {a : Attributes} {element : Schema}
    {raw other : Value} (hraw : sequenceItems? raw = none)
    (h : project (.array a (some element)) raw = project (.array a (some element)) other) :
    sequenceItems? other = none := by
  cases hother : sequenceItems? other with
  | none =>
      rfl
  | some others =>
      rw [project_array_other hraw, project_array_sequence hother] at h
      rw [h] at hraw
      cases hraw

theorem alike_of_project_eq {s : Schema} {raw other : Value} (hs : Everywhere WellFormed s)
    (h : s.project raw = s.project other) : Alike s raw other := by
  induction s using tree_induction generalizing raw other with
  | object a fields ih =>
      have hnodup := nodup_of_mem_fields hs
      by_cases hraw : exists entries, raw = .mapping entries
      · rcases hraw with ⟨entries, hraw⟩
        by_cases hother : exists others, other = .mapping others
        · rcases hother with ⟨others, hother⟩
          subst hraw hother
          have hmembers := Value.ofMembers_injective h
          refine .mapping (fun f hf => ⟨fun habsent w hw => ?_, fun habsent v hv => ?_⟩)
            (fun f v w hf hv hw => ?_)
          · rcases alike_of_members hnodup hmembers.symm hf hw with ⟨v, hv, _⟩
            exact habsent v hv
          · rcases alike_of_members hnodup hmembers hf hv with ⟨w, hw, _⟩
            exact habsent w hw
          · rcases alike_of_members hnodup hmembers hf hv with ⟨found, hfound, hvalue⟩
            rw [hfound.unique hw] at hvalue
            exact ih f hf (hs.field hf) hvalue
        · rw [hraw, project_object_other (not_exists.mp hother)] at h
          exact absurd ⟨_, h.symm⟩ hother
      · rw [project_object_other (not_exists.mp hraw)] at h
        by_cases hother : exists others, other = .mapping others
        · rcases hother with ⟨others, hother⟩
          rw [hother] at h
          exact absurd ⟨_, h⟩ hraw
        · rw [project_object_other (not_exists.mp hother)] at h
          rw [h]
          exact .same
  | array a element ih =>
      cases hraw : sequenceItems? raw with
      | none =>
          have hother := sequenceItems?_eq_none_of_project hraw h
          rw [project_array_other hraw, project_array_other hother] at h
          rw [h]
          exact .same
      | some items =>
          cases hother : sequenceItems? other with
          | none =>
              rw [sequenceItems?_eq_none_of_project hother h.symm] at hraw
              cases hraw
          | some others =>
              rw [project_array_sequence hraw, project_array_sequence hother] at h
              rcases map_eq_map_iff_getElem?.mp (Value.tuple.inj h) with ⟨hlength, hvalues⟩
              exact .sequence hraw hother hlength
                (fun i v w hv hw => ih hs.element (hvalues i v w hv hw))
  | _ =>
      rw [show raw = other from h]
      exact .same

/-!
## Only the declared part is seen
-/

/-- Raw values with one projection to a built schema, which are those that it sees alike, come
out of validation with the same result: the same record, or the same errors in the same order,
with their paths, their messages and the offending values.  Where a constraint of another
author fails on one of them, it fails on the other. -/
theorem validate_sees_projection {rule : Schema -> Call -> Schema -> Prop} {s : Schema}
    {raw other : Value} (hs : Built rule s) :
    (s.project raw = s.project other <-> Alike s raw other) ∧
      s.validate (s.project raw) = s.validate raw ∧
      (s.project raw = s.project other -> s.validate raw = s.validate other) := by
  have hwell := hs.wellFormed
  refine ⟨⟨alike_of_project_eq hwell, Alike.project_eq⟩, validate_project hwell, ?_⟩
  intro h
  rw [← validate_project hwell, h, validate_project hwell]

theorem gallery_seen_alike :
    Built (fun _ _ _ => True) gallery ∧
    exists raw other result,
      raw = .mapping [(.text "title", .text ""), (.text "draft", .bool true),
        (.text "images", .list [.mapping [(.text "width", .text "wide"), (.int 1, .null)], .null,
          .mapping [(.text "width", .null), (.text "src", .text "a.png")]])] ∧
      other = .mapping [
        (.text "images", .tuple [.mapping [(.text "src", .null), (.text "width", .text "wide")],
          .null, .mapping [(.text "src", .text "a.png"), (.text "alt", .list [])]]),
        (.text "title", .text "")] ∧
      Alike gallery raw other ∧
      gallery.validate raw = .ok result ∧ gallery.validate other = .ok result ∧
      result.errors.map FieldError.text =
        ["title: ConstraintViolation(nonEmpty): Value must not be empty",
          "images[0].src: MissingRequiredField: Missing required field 'src'",
          "images[0].width: TypeMismatch: Expected number, got string",
          "images[1]: TypeMismatch: Expected object, got null"] := by
  let raw : Value := .mapping [(.text "title", .text ""), (.text "draft", .bool true),
    (.text "images", .list [.mapping [(.text "width", .text "wide"), (.int 1, .null)], .null,
      .mapping [(.text "width", .null), (.text "src", .text "a.png")]])]
  let other : Value := .mapping [
    (.text "images", .tuple [.mapping [(.text "src", .null), (.text "width", .text "wide")],
      .null, .mapping [(.text "src", .text "a.png"), (.text "alt", .list [])]]),
    (.text "title", .text "")]
  have hgallery : Built (fun _ _ _ => True) gallery := built_gallery (fun _ _ _ => trivial)
  have hproject : gallery.project raw = gallery.project other := by
    with_unfolding_all rfl
  have hresult : exists result, gallery.validate raw = .ok result ∧
      result.errors.map FieldError.text =
        ["title: ConstraintViolation(nonEmpty): Value must not be empty",
          "images[0].src: MissingRequiredField: Missing required field 'src'",
          "images[0].width: TypeMismatch: Expected number, got string",
          "images[1]: TypeMismatch: Expected object, got null"] := by
    refine ⟨_, by with_unfolding_all rfl, ?_⟩
    with_unfolding_all rfl
  rcases hresult with ⟨result, hresult, herrors⟩
  have hseen : (gallery.project raw = gallery.project other <-> Alike gallery raw other) ∧
      gallery.validate (gallery.project raw) = gallery.validate raw ∧
      (gallery.project raw = gallery.project other ->
        gallery.validate raw = gallery.validate other) :=
    validate_sees_projection hgallery
  refine ⟨hgallery, raw, other, result, rfl, rfl, hseen.left.mp hproject, hresult, ?_,
    herrors⟩
  rw [← hseen.right.right hproject, hresult]

end Schema
end ContentSchema
