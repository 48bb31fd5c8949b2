import ContentSchema.Proofs.Schema.Extension

/-!
# Parts of objects

An object is validated field by field, and no field sees another.  So each field has a share in
the result, which is what an object with this field alone would find, and the result is made of
the shares in declared order.  What is declared behind other fields comes behind their results,
and of some of the fields there are the shares of these.
-/

namespace ContentSchema
namespace Schema

/-!
## Shares
-/

/-- The share of a field in the record and in the errors, empty where there is none. -/
def share (entries : List (Value × Value)) (f : String × Schema) :
    List (String × Value) × List FieldError :=
  (examineField entries "" f).toOption.getD ([], [])

def gathered (entries : List (Value × Value)) (fields : List (String × Schema)) : Findings :=
  ⟨.ofMembers (fields.flatMap (fun f => (share entries f).1)),
    fields.flatMap (fun f => (share entries f).2)⟩

def Examinable (entries : List (Value × Value)) (f : String × Schema) : Prop :=
  Answer.Succeeds (examineField entries "" f)

variable {a : Attributes} {fields additions : List (String × Schema)}
  {entries : List (Value × Value)} {result : ValidationResult} {names : List String}

theorem share_eq {f : String × Schema} {part : List (String × Value) × List FieldError}
    (h : FieldPart entries "" f part) : share entries f = part := by
  rw [share, examineField_eq_ok.mpr h]
  rfl

theorem fieldPart_share {f : String × Schema} (h : Examinable entries f) :
    FieldPart entries "" f (share entries f) := by
  rcases h with ⟨part, hpart⟩
  have hpart := examineField_eq_ok.mp hpart
  rw [share_eq hpart]
  exact hpart

theorem fieldParts_eq_shares {parts : List (List (String × Value) × List FieldError)} :
    List.Forall₂ (FieldPart entries "") fields parts <->
      (forall f, f ∈ fields -> Examinable entries f) ∧ parts = fields.map (share entries) := by
  constructor
  · intro h
    induction h with
    | nil =>
        exact ⟨fun f hf => absurd hf List.not_mem_nil, rfl⟩
    | cons hpart _hrest ih =>
        refine ⟨List.forall_mem_cons.mpr ⟨⟨_, examineField_eq_ok.mpr hpart⟩, ih.left⟩, ?_⟩
        rw [List.map_cons, share_eq hpart, ih.right]
  · intro h
    rw [h.right, List.forall₂_map_right_iff, List.forall₂_same]
    exact fun f hf => fieldPart_share (h.left f hf)

theorem name_of_share {f : String × Schema} {m : String × Value}
    (hm : m ∈ (share entries f).1) : m.1 = f.1 := by
  cases hfound : examineField entries "" f with
  | error fault =>
      rw [share, hfound] at hm
      cases hm
  | ok part =>
      have hpart := examineField_eq_ok.mp hfound
      rw [share_eq hpart] at hm
      exact hpart.name hm

theorem validate_mapping_eq_ok (hnames : (fieldNames fields).Nodup)
    (hschemas : forall f, f ∈ fields -> f.2.isSchema = true) :
    validate (.object a fields) (.mapping entries) = .ok result <->
      (forall f, f ∈ fields -> Examinable entries f) ∧
        result = (gathered entries fields).result := by
  have hgathered {parts : List (List (String × Value) × List FieldError)}
      (hparts : List.Forall₂ (FieldPart entries "") fields parts) :
      (⟨recordOf (parts.flatMap Prod.fst), parts.flatMap Prod.snd⟩ : Findings) =
        gathered entries fields := by
    rw [recordOf_of_nodup (fieldParts_nodup hparts hnames),
      (fieldParts_eq_shares.mp hparts).right, List.flatMap_map, List.flatMap_map]
    rfl
  rw [validate_eq_ok rfl (Or.inl (by simp))]
  constructor
  · intro h
    rcases h with ⟨found, hfound, hresult⟩
    rcases (examine_mapping hschemas).mp hfound with ⟨parts, hparts, hfoundEq⟩
    rw [hresult, hfoundEq, hgathered hparts]
    exact ⟨(fieldParts_eq_shares.mp hparts).left, rfl⟩
  · intro h
    have hparts := fieldParts_eq_shares.mpr ⟨h.left, rfl⟩
    refine ⟨_, (examine_mapping hschemas).mpr ⟨_, hparts, rfl⟩, ?_⟩
    rw [h.right, hgathered hparts]

@[simp] theorem ok_result_iff {found : Findings} :
    found.result.ok = true <-> found.errors = [] := by
  rw [ValidationResult.ok, Findings.result_errors, List.isEmpty_iff]

/-!
## One part behind another
-/

/-- The result on a whole is the result on one part with that on another part behind it: first
the errors of the one, then those of the other, and where there are none, first the members of
the one, then those of the other. -/
structure Behind (first second whole : ValidationResult) : Prop where
  errors : whole.errors = first.errors ++ second.errors
  record : whole.ok = true ->
    first.ok = true ∧ second.ok = true ∧
      exists members others, first.value = .ofMembers members ∧
        second.value = .ofMembers others ∧ whole.value = .ofMembers (members ++ others)
  rejected : whole.ok = false -> whole.value = .null

/-- On every mapping the whole finds what the first part finds, and behind it what the second
part finds.  It has a result where both parts have one. -/
def FindsBoth (first second whole : Schema) : Prop :=
  forall entries,
    (Answer.Succeeds (whole.validate (.mapping entries)) <->
      Answer.Succeeds (first.validate (.mapping entries)) ∧
        Answer.Succeeds (second.validate (.mapping entries))) ∧
    forall r p q, whole.validate (.mapping entries) = .ok r ->
      first.validate (.mapping entries) = .ok p -> second.validate (.mapping entries) = .ok q ->
      Behind p q r

theorem behind_of_gathered :
    Behind (gathered entries fields).result (gathered entries additions).result
      (gathered entries (fields ++ additions)).result := by
  have herrors : (gathered entries (fields ++ additions)).errors =
      (gathered entries fields).errors ++ (gathered entries additions).errors :=
    List.flatMap_append
  refine ⟨?_, ?_, ?_⟩
  · simp [herrors]
  · intro hok
    have hclean := ok_result_iff.mp hok
    rcases List.append_eq_nil_iff.mp (herrors.symm.trans hclean) with ⟨hfirst, hsecond⟩
    refine ⟨ok_result_iff.mpr hfirst, ok_result_iff.mpr hsecond, ?_⟩
    rw [Findings.result_of_clean hclean, Findings.result_of_clean hfirst,
      Findings.result_of_clean hsecond]
    exact ⟨_, _, rfl, rfl, congrArg Value.ofMembers List.flatMap_append⟩
  · intro hok
    rw [Findings.result_of_problems (fun hclean => by simp [ok_result_iff.mpr hclean] at hok)]

theorem succeeds_validate_mapping (hnames : (fieldNames fields).Nodup)
    (hschemas : forall f, f ∈ fields -> f.2.isSchema = true) :
    Answer.Succeeds (validate (.object a fields) (.mapping entries)) <->
      forall f, f ∈ fields -> Examinable entries f := by
  constructor
  · intro h
    rcases h with ⟨result, hresult⟩
    exact ((validate_mapping_eq_ok hnames hschemas).mp hresult).left
  · intro h
    exact ⟨_, (validate_mapping_eq_ok hnames hschemas).mpr ⟨h, rfl⟩⟩

/-- An extended object finds what the object finds and behind it what the additions find alone. -/
theorem validate_extended (hfields : Declarable fields) {declared : List FieldEntry} {t : Schema}
    (h : extend (.object a fields) declared = .ok t) :
    exists fresh, Schema.obj declared = .ok fresh ∧ FindsBoth (.object a fields) fresh t := by
  rcases (extend_object_eq_ok hfields).mp h with ⟨additions, hdeclared, hall, ht⟩
  have hadditions := (declarable_append.mp hall).right.left
  have hfresh : Schema.obj declared = .ok (.object .fresh additions) :=
    Answer.bind_eq_ok.mpr ⟨additions, fieldsOf_eq_ok_iff.mpr ⟨hdeclared, hadditions⟩, rfl⟩
  refine ⟨_, hfresh, fun entries => ⟨?_, ?_⟩⟩
  · rw [ht, succeeds_validate_mapping hall.nodup hall.schemas,
      succeeds_validate_mapping hfields.nodup hfields.schemas,
      succeeds_validate_mapping hadditions.nodup hadditions.schemas, List.forall_mem_append]
  · intro r p q hr hp hq
    rw [ht] at hr
    rw [((validate_mapping_eq_ok hall.nodup hall.schemas).mp hr).right,
      ((validate_mapping_eq_ok hfields.nodup hfields.schemas).mp hp).right,
      ((validate_mapping_eq_ok hadditions.nodup hadditions.schemas).mp hq).right]
    exact behind_of_gathered

/-!
## Some of the fields
-/

/-- The result on a whole is divided between the fields with certain names and the others, where
each field alone has a result.  Each side has the errors of its own fields, in declared order,
and the restriction of the record. -/
structure Divided (fields : List (String × Schema)) (named : String -> Bool)
    (alone : String × Schema -> ValidationResult) (whole picked others : ValidationResult) :
    Prop where
  errors : whole.errors = fields.flatMap (fun f => (alone f).errors)
  picked_errors : picked.errors =
    (fields.filter (fun f => named f.1)).flatMap (fun f => (alone f).errors)
  others_errors : others.errors =
    (fields.filter (fun f => !named f.1)).flatMap (fun f => (alone f).errors)
  record : picked.ok = true -> others.ok = true ->
    whole.ok = true ∧ exists members, whole.value = .ofMembers members ∧
      picked.value = .ofMembers (members.filter (fun m => named m.1)) ∧
      others.value = .ofMembers (members.filter (fun m => !named m.1))

/-- On every mapping two objects find what an object with the given fields finds on those with
certain names and on the others.  Both have a result where the object has one, and then each of
its fields has one alone. -/
def FindDivided (a : Attributes) (fields : List (String × Schema)) (named : String -> Bool)
    (picked others : Schema) : Prop :=
  forall entries,
    (Answer.Succeeds (validate (.object a fields) (.mapping entries)) <->
      Answer.Succeeds (picked.validate (.mapping entries)) ∧
        Answer.Succeeds (others.validate (.mapping entries))) ∧
    forall r p q, validate (.object a fields) (.mapping entries) = .ok r ->
      picked.validate (.mapping entries) = .ok p -> others.validate (.mapping entries) = .ok q ->
      exists alone : String × Schema -> ValidationResult,
        (forall f, f ∈ fields -> validate (.object a [f]) (.mapping entries) = .ok (alone f)) ∧
        Divided fields named alone r p q

theorem gathered_filter (named : String -> Bool) :
    (gathered entries (fields.filter (fun f => named f.1))).value = .ofMembers
      ((fields.flatMap (fun f => (share entries f).1)).filter (fun m => named m.1)) := by
  refine congrArg Value.ofMembers ?_
  rw [List.filter_flatMap]
  induction fields with
  | nil =>
      rfl
  | cons f rest ih =>
      rw [List.filter_cons, List.flatMap_cons, ← ih]
      cases hnamed : named f.1 with
      | true =>
          have hall : (share entries f).1.filter (fun m => named m.1) = (share entries f).1 :=
            List.filter_eq_self.mpr (fun m hm => by rw [name_of_share hm, hnamed])
          rw [if_pos rfl, List.flatMap_cons, hall]
      | false =>
          have hnone : (share entries f).1.filter (fun m => named m.1) = [] :=
            List.filter_eq_nil_iff.mpr (fun m hm => by simp [name_of_share hm, hnamed])
          rw [if_neg Bool.false_ne_true, hnone, List.nil_append]

theorem clean_of_sides {named : String -> Bool}
    (hpicked : (gathered entries (fields.filter (fun f => named f.1))).errors = [])
    (hothers : (gathered entries (fields.filter (fun f => !named f.1))).errors = []) :
    (gathered entries fields).errors = [] := by
  refine List.flatMap_eq_nil_iff.mpr (fun f hf => ?_)
  cases hnamed : named f.1 with
  | true =>
      exact List.flatMap_eq_nil_iff.mp hpicked f (List.mem_filter.mpr ⟨hf, hnamed⟩)
  | false =>
      exact List.flatMap_eq_nil_iff.mp hothers f (List.mem_filter.mpr ⟨hf, by rw [hnamed]; rfl⟩)

theorem divided_of_gathered (named : String -> Bool) :
    Divided fields named (fun f => (gathered entries [f]).result)
      (gathered entries fields).result
      (gathered entries (fields.filter (fun f => named f.1))).result
      (gathered entries (fields.filter (fun f => !named f.1))).result := by
  have halone {f : String × Schema} :
      (gathered entries [f]).result.errors = (share entries f).2 := by
    rw [Findings.result_errors]
    exact List.append_nil _
  refine ⟨?_, ?_, ?_, ?_⟩
  · simp only [halone, Findings.result_errors]
    rfl
  · simp only [halone, Findings.result_errors]
    rfl
  · simp only [halone, Findings.result_errors]
    rfl
  · intro hpicked hothers
    have hpicked := ok_result_iff.mp hpicked
    have hothers := ok_result_iff.mp hothers
    have hclean := clean_of_sides hpicked hothers
    refine ⟨ok_result_iff.mpr hclean, fields.flatMap (fun f => (share entries f).1), ?_, ?_, ?_⟩
    · rw [Findings.result_of_clean hclean]
      rfl
    · rw [Findings.result_of_clean hpicked]
      exact gathered_filter named
    · rw [Findings.result_of_clean hothers]
      exact gathered_filter (fun name => !named name)

/-!
## Named fields
-/

theorem isNamed_texts :
    isNamed (names.map Value.text) = fun f => decide (f.1 ∈ names) := by
  funext f
  rw [Bool.eq_iff_iff, isNamed, contains_text_iff, decide_eq_true_iff, List.mem_map]
  constructor
  · intro h
    rcases h with ⟨name, hname, heq⟩
    injection heq with heq
    rw [← heq]
    exact hname
  · intro h
    exact ⟨f.1, h, rfl⟩

theorem unknownNames_texts (h : forall name, name ∈ names -> name ∈ fieldNames fields) :
    (unknownNames fields (names.map Value.text)).isEmpty = true := by
  rw [List.isEmpty_iff, unknownNames, List.filter_eq_nil_iff]
  intro v hv
  rcases List.mem_map.mp hv with ⟨name, hname, hv⟩
  have hknown : (fieldNames fields).any (fun other => v == .text other) = true := by
    rw [← hv]
    exact List.any_eq_true.mpr ⟨name, h name hname, Value.text_beq_iff.mpr rfl⟩
  simp [hknown]

theorem pick_texts (h : forall name, name ∈ names -> name ∈ fieldNames fields) :
    pick (.object a fields) (names.map Value.text) =
      .ok (.object a (fields.filter (fun f => decide (f.1 ∈ names)))) := by
  refine pick_eq_ok.mpr ⟨a, fields, rfl, unknownNames_texts h, ?_⟩
  rw [isNamed_texts]

theorem without_texts (h : forall name, name ∈ names -> name ∈ fieldNames fields) :
    without (.object a fields) (names.map Value.text) =
      .ok (.object a (fields.filter (fun f => !decide (f.1 ∈ names)))) := by
  refine without_eq_ok.mpr ⟨a, fields, rfl, unknownNames_texts h, ?_⟩
  rw [isNamed_texts]

theorem Declarable.filter (h : Declarable fields) (keep : String × Schema -> Bool) :
    Declarable (fields.filter keep) := by
  have hnames : (fieldNames (fields.filter keep)).Sublist (fieldNames fields) :=
    List.filter_sublist.map Prod.fst
  exact ⟨hnames.nodup h.nodup, fun name hname => h.filled name (hnames.subset hname),
    fun f hf => h.schemas f (List.mem_filter.mp hf).left⟩

theorem Declarable.singleton (h : Declarable fields) {f : String × Schema} (hf : f ∈ fields) :
    Declarable [f] := by
  refine ⟨List.nodup_singleton _, ?_, ?_⟩
  · intro name hname
    rw [List.mem_singleton.mp hname]
    exact h.filled f.1 (name_mem hf)
  · intro g hg
    rw [List.mem_singleton.mp hg]
    exact h.schemas f hf

theorem find_divided (hfields : Declarable fields) (named : String -> Bool) :
    FindDivided a fields named (.object a (fields.filter (fun f => named f.1)))
      (.object a (fields.filter (fun f => !named f.1))) := by
  intro entries
  have hpicked := hfields.filter (fun f => named f.1)
  have hothers := hfields.filter (fun f => !named f.1)
  constructor
  · rw [succeeds_validate_mapping hfields.nodup hfields.schemas,
      succeeds_validate_mapping hpicked.nodup hpicked.schemas,
      succeeds_validate_mapping hothers.nodup hothers.schemas]
    constructor
    · intro h
      exact ⟨fun f hf => h f (List.mem_filter.mp hf).left,
        fun f hf => h f (List.mem_filter.mp hf).left⟩
    · intro h f hf
      cases hnamed : named f.1 with
      | true =>
          exact h.left f (List.mem_filter.mpr ⟨hf, hnamed⟩)
      | false =>
          exact h.right f (List.mem_filter.mpr ⟨hf, by rw [hnamed]; rfl⟩)
  · intro r p q hr hp hq
    rcases (validate_mapping_eq_ok hfields.nodup hfields.schemas).mp hr with ⟨hexaminable, hr⟩
    refine ⟨fun f => (gathered entries [f]).result, fun f hf => ?_, ?_⟩
    · have halone := hfields.singleton hf
      refine (validate_mapping_eq_ok halone.nodup halone.schemas).mpr ⟨fun g hg => ?_, rfl⟩
      rw [List.mem_singleton.mp hg]
      exact hexaminable f hf
    · rw [hr, ((validate_mapping_eq_ok hpicked.nodup hpicked.schemas).mp hp).right,
        ((validate_mapping_eq_ok hothers.nodup hothers.schemas).mp hq).right]
      exact divided_of_gathered named

/-!
## The algebra of objects
-/

/-- A built object may be extended at once or in two steps; both refuse, or both make the same
object.  On a mapping an extended object finds what the object finds, and behind it what an
object of the additions finds.  When fields are picked by name, or left out, each side finds on
a mapping what the object finds on the fields of this side; where nothing is wrong on either
side, nothing is wrong with the whole, and the sides have the restrictions of its record. -/
theorem object_made_of_fields {rule : Schema -> Call -> Schema -> Prop}
    (hs : Built rule (.object a fields)) :
    (forall first second : List FieldEntry,
      Agree (extend (.object a fields) first >>= fun t => t.extend second)
        (extend (.object a fields) (first ++ second))) ∧
    (forall declared t, extend (.object a fields) declared = .ok t ->
      exists fresh, Schema.obj declared = .ok fresh ∧ FindsBoth (.object a fields) fresh t) ∧
    (forall names : List String, (forall name, name ∈ names -> name ∈ fieldNames fields) ->
      exists picked others, pick (.object a fields) (names.map Value.text) = .ok picked ∧
        without (.object a fields) (names.map Value.text) = .ok others ∧
        FindDivided a fields (fun name => decide (name ∈ names)) picked others) := by
  have hfields := declarable_of_built hs
  refine ⟨extend_extend_agrees hfields, fun _declared _t h => validate_extended hfields h, ?_⟩
  intro names hnames
  exact ⟨_, _, pick_texts hnames, without_texts hnames, find_divided hfields _⟩

theorem product_made_of_fields :
    Built (fun _ _ _ => True) product ∧
    (exists e e', (product.extend [.pair (.text "stock") number] >>= fun t =>
        t.extend [.pair (.text "name") string]) = refuse e ∧
      product.extend [.pair (.text "stock") number, .pair (.text "name") string] = refuse e') ∧
    (exists fresh t, product.extend [.pair (.text "stock") number] = .ok t ∧
      Schema.obj [.pair (.text "stock") number] = .ok fresh ∧ FindsBoth product fresh t) ∧
    exists a fields picked others, product = .object a fields ∧
      product.pick [.text "tags", .text "price"] = .ok picked ∧
      product.without [.text "tags", .text "price"] = .ok others ∧
      FindDivided a fields (fun name => decide (name ∈ ["tags", "price"])) picked others ∧
      exists entries r p q,
        entries = [(.text "tags", .list [.text "new", .null]), (.text "price", .bool true),
          (.text "name", .text "pen")] ∧
        product.validate (.mapping entries) = .ok r ∧
        picked.validate (.mapping entries) = .ok p ∧ others.validate (.mapping entries) = .ok q ∧
        r.errors.map FieldError.text = ["price: TypeMismatch: Expected number, got boolean",
          "tags[1]: TypeMismatch: Expected string, got null"] ∧
        p.errors = r.errors ∧
        q = .accepted (.mapping [(.text "name", .text "pen"), (.text "status", .text "draft")]) := by
  have hproduct : Built (fun _ _ _ => True) product := built_product (fun _ _ _ => trivial)
  rcases object_made_of_fields hproduct with ⟨hextend, hextended, hpicked⟩
  let entries : List (Value × Value) := [(.text "tags", .list [.text "new", .null]),
    (.text "price", .bool true), (.text "name", .text "pen")]
  have hrefused : product.extend [.pair (.text "stock") number, .pair (.text "name") string] =
      refuse (.fieldExists "name") := by
    with_unfolding_all rfl
  have hstock : Answer.Succeeds (product.extend [.pair (.text "stock") number]) :=
    ⟨_, by with_unfolding_all rfl⟩
  refine ⟨hproduct, ?_, ?_, ?_⟩
  · rcases hextend [.pair (.text "stock") number] [.pair (.text "name") string] with
      ⟨t, _htwo, hone⟩ | hboth
    · exact absurd (hrefused.symm.trans hone) Answer.refuse_ne_ok
    · exact hboth
  · rcases hstock with ⟨t, ht⟩
    rcases hextended _ t ht with ⟨fresh, hfresh, hfinds⟩
    exact ⟨fresh, t, ht, hfresh, hfinds⟩
  · have hnames : forall name, name ∈ ["tags", "price"] ->
        name ∈ ["name", "price", "status", "tags"] := by
      decide
    rcases hpicked ["tags", "price"] hnames with ⟨picked, others, hpick, hwithout, hdivided⟩
    refine ⟨_, _, picked, others, rfl, hpick, hwithout, hdivided, entries, ?_⟩
    rw [pick_texts hnames] at hpick
    rw [without_texts hnames] at hwithout
    injection hpick with hpick
    injection hwithout with hwithout
    rw [← hpick, ← hwithout]
    refine ⟨_, _, _, rfl, by with_unfolding_all rfl, by with_unfolding_all rfl,
      by with_unfolding_all rfl, by with_unfolding_all rfl, by with_unfolding_all rfl, ?_⟩
    with_unfolding_all rfl

end Schema
end ContentSchema
