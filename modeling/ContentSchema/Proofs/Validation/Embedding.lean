import ContentSchema.Proofs.Validation.Mirrors
import ContentSchema.Proofs.Validation.Relocation
import ContentSchema.Proofs.Validation.Violations

/-!
# Embedded schemas

A schema means the same wherever it stands.  Below any number of enclosing objects and arrays
it contributes the errors that it has alone, one after the other and under the place where it
stands, between the errors of what comes before and of what comes behind; and where nothing is
wrong, the record has at that place the record that it has alone.
-/

namespace ContentSchema
namespace Schema

variable {inner s : Schema} {part raw : Value} {site : List Nat} {steps : List FieldPath.Step}
  {path : String} {found : Findings}

/-!
## Violations at a site
-/

namespace Violation

def underSite (site : List Nat) (v : Violation) : Violation :=
  ⟨site ++ v.site, v.error⟩

theorem under_inj {i j : Nat} {u v : Violation} (h : u.under i = v.under j) : i = j ∧ u = v := by
  rcases u with ⟨site, error⟩
  rcases v with ⟨other, failure⟩
  simp only [under, mk.injEq, List.cons.injEq] at h
  rcases h with ⟨⟨hij, hsite⟩, herror⟩
  rw [hsite, herror]
  exact ⟨hij, rfl⟩

end Violation

theorem inBranch_at {α : Type} {V : α -> Violation -> Prop} {branches : List α} {i : Nat} {x : α}
    {v : Violation} (hx : branches[i]? = some x) :
    InBranch V 0 branches (v.under i) <-> V x v := by
  constructor
  · intro h
    rcases h with ⟨j, y, u, hy, hu, hv⟩
    rw [Nat.zero_add] at hv
    rcases Violation.under_inj hv with ⟨hij, hvu⟩
    rw [← hij, hx] at hy
    injection hy with hy
    rw [hy, hvu]
    exact hu
  · intro h
    exact ⟨i, x, v, hx, h, by rw [Nat.zero_add]⟩

/-- Below the site of an embedded schema the violations are its own. -/
theorem violates_embedded (h : Embeds inner part site steps s raw) {v : Violation} :
    Violates s raw path (v.underSite site) <->
      Violates inner part (FieldPath.descend path steps) v := by
  induction h generalizing path with
  | here =>
      exact Iff.rfl
  | field hf hheld _hbelow ih =>
      rename_i a fields f entries raw i site steps
      show Violates _ _ path ((v.underSite site).under i) <-> _
      rw [violates_mapping, inBranch_at hf, failsField_held hheld, ih]
      rfl
  | element hitems hitem _hbelow ih =>
      rename_i a element raw item items i site steps
      show Violates _ _ path ((v.underSite site).under i) <-> _
      rw [violates_sequence hitems, inBranch_at (getElem?_zipIdx_of hitem), FailsElement, ih]
      rfl

/-!
## Findings at a place
-/

/-- Where a whole is examined, an embedded schema is examined at its place, and the value that
is built there is what the examination yields. -/
theorem examine_embedded (hs : Everywhere WellFormed s)
    (h : Embeds inner part site steps s raw) (hfound : s.examine raw path = .ok found) :
    exists below, inner.examine part (FieldPath.descend path steps) = .ok below ∧
      found.value.at? steps = some below.value := by
  induction h generalizing path found with
  | here =>
      exact ⟨found, hfound, rfl⟩
  | field hf hheld _hbelow ih =>
      rename_i a fields f entries raw i site steps
      rcases (examine_mapping (fields_areSchemas hs)).mp hfound with ⟨parts, hparts, hfoundEq⟩
      rcases forall₂_exists_getElem? hparts hf with ⟨p, hp, hpart⟩
      rcases hpart.of_held hheld with ⟨sub, hsub, hpEq⟩
      rcases ih (hs.field (List.mem_of_getElem? hf)) hsub with ⟨below, hbelow, hvalue⟩
      refine ⟨below, hbelow, ?_⟩
      have hnames := fieldParts_nodup hparts (nodup_of_mem_fields hs)
      have hmember : (f.1, sub.value) ∈ parts.flatMap Prod.fst := by
        refine List.mem_flatMap.mpr ⟨p, List.mem_of_getElem? hp, ?_⟩
        rw [hpEq]
        exact List.mem_singleton_self _
      have hstep : found.value.step? (.field f.1) = some sub.value := by
        rw [hfoundEq, recordOf_of_nodup hnames]
        exact Value.field?_ofMembers.trans (Entries.get?_of_mem hnames hmember)
      rw [Value.at?_cons hstep, hvalue]
  | element hitems hitem _hbelow ih =>
      rename_i a element raw item items i site steps
      rcases (examine_sequence hitems).mp hfound with ⟨parts, hparts, hfoundEq⟩
      rcases forall₂_exists_getElem? hparts (getElem?_zipIdx_of hitem) with ⟨sub, hsubAt, hsub⟩
      rcases ih hs.element hsub with ⟨below, hbelow, hvalue⟩
      refine ⟨below, hbelow, ?_⟩
      have hstep : found.value.step? (.element i) = some sub.value := by
        rw [hfoundEq]
        show (parts.map Findings.value)[i]? = some sub.value
        rw [List.getElem?_map, hsubAt]
        rfl
      rw [Value.at?_cons hstep, hvalue]

/-!
## Enumerations taken apart

An enumeration is determined by what it enumerates.  It falls into two where all violations of
one sort come before all others.
-/

theorem eq_of_sorted {violations others : List Violation}
    (hsorted : violations.Pairwise (fun u v => u.site < v.site))
    (hsorted' : others.Pairwise (fun u v => u.site < v.site))
    (hmem : forall v, v ∈ violations <-> v ∈ others) : violations = others := by
  have hne {u v : Violation} (h : u.site < v.site) : u ≠ v := by
    intro heq
    rw [heq] at h
    exact List.lt_irrefl _ h
  have hperm : violations.Perm others :=
    (List.perm_ext_iff_of_nodup (hsorted.imp hne) (hsorted'.imp hne)).mpr hmem
  refine hperm.eq_of_pairwise ?_ hsorted hsorted'
  intro u v _hu _hv huv hvu
  exact absurd hvu (List.lt_asymm huv)

theorem Enumerates.unique {V : Violation -> Prop} {errors others : List FieldError}
    (h : Enumerates V errors) (h' : Enumerates V others) : errors = others := by
  rcases h with ⟨violations, hsorted, hmem, herrors⟩
  rcases h' with ⟨violations', hsorted', hmem', herrors'⟩
  rw [herrors, herrors', eq_of_sorted hsorted hsorted' (fun v => (hmem v).trans (hmem' v).symm)]

theorem Enumerates.filter {V : Violation -> Prop} {violations : List Violation}
    (hsorted : violations.Pairwise (fun u v => u.site < v.site))
    (hmem : forall v, v ∈ violations <-> V v) (q : Violation -> Bool) :
    Enumerates (fun v => V v ∧ q v = true) ((violations.filter q).map Violation.error) :=
  ⟨_, hsorted.filter q, fun v => by rw [List.mem_filter, hmem], rfl⟩

theorem filter_append_filter {q : Violation -> Bool} {violations : List Violation}
    (h : violations.Pairwise (fun u v => q v = true -> q u = true)) :
    violations.filter q ++ violations.filter (fun v => !q v) = violations := by
  induction violations with
  | nil =>
      rfl
  | cons v rest ih =>
      rcases List.pairwise_cons.mp h with ⟨hv, hrest⟩
      cases hq : q v with
      | true =>
          simp [hq, ih hrest]
      | false =>
          -- nothing of the first sort comes behind something of the second sort
          have hnone : forall u, u ∈ v :: rest -> q u = false := by
            intro u hu
            rcases List.mem_cons.mp hu with hu | hu
            · rw [hu, hq]
            · cases hqu : q u with
              | false =>
                  rfl
              | true =>
                  rw [hv u hu hqu] at hq
                  cases hq
          rw [List.filter_eq_nil_iff.mpr (fun u hu => by simp [hnone u hu]),
            List.filter_eq_self.mpr (fun u hu => by simp [hnone u hu]), List.nil_append]

theorem Enumerates.split {V : Violation -> Prop} {errors : List FieldError}
    (h : Enumerates V errors) (q : Violation -> Bool)
    (hq : forall u v, V u -> V v -> u.site < v.site -> q v = true -> q u = true) :
    exists first second, errors = first ++ second ∧
      Enumerates (fun v => V v ∧ q v = true) first ∧
      Enumerates (fun v => V v ∧ ¬ q v = true) second := by
  rcases h with ⟨violations, hsorted, hmem, herrors⟩
  have hdown : violations.Pairwise (fun u v => q v = true -> q u = true) :=
    hsorted.imp_of_mem (fun hu hv huv => hq _ _ ((hmem _).mp hu) ((hmem _).mp hv) huv)
  refine ⟨_, _, ?_, Enumerates.filter hsorted hmem q,
    enumerates_congr (fun v => ?_) (Enumerates.filter hsorted hmem (fun v => !q v))⟩
  · rw [← List.map_append, filter_append_filter hdown, herrors]
  · rw [Bool.not_eq_true, Bool.not_eq_true']

theorem prefix_of_between {site other below : List Nat} (h : ¬ other < site)
    (h' : other < site ++ below) : site <+: other := by
  induction site generalizing other with
  | nil =>
      exact List.nil_prefix
  | cons i site ih =>
      cases other with
      | nil =>
          exact absurd (List.nil_lt_cons i site) h
      | cons j other =>
          rw [List.cons_lt_cons_iff, not_or] at h
          rcases List.cons_lt_cons_iff.mp h' with hji | ⟨hji, hbelow⟩
          · exact absurd hji h.left
          · rw [hji]
            exact List.cons_prefix_cons.mpr ⟨rfl, ih (fun hlt => h.right ⟨hji, hlt⟩) hbelow⟩

theorem Enumerates.split_at {V : Violation -> Prop} {errors : List FieldError}
    (h : Enumerates V errors) (site : List Nat) :
    exists earlier middle later, errors = earlier ++ middle ++ later ∧
      Enumerates (fun v => V v ∧ v.site < site) earlier ∧
      Enumerates (fun v => V v ∧ site <+: v.site) middle ∧
      Enumerates (fun v => V v ∧ ¬ v.site < site ∧ ¬ site <+: v.site) later := by
  -- two cuts: before the site, and among the rest below it
  have hbefore : forall u v, V u -> V v -> u.site < v.site ->
      decide (v.site < site) = true -> decide (u.site < site) = true := by
    intro u v _hu _hv huv hv
    exact decide_eq_true (List.lt_trans huv (of_decide_eq_true hv))
  rcases h.split (fun v => decide (v.site < site)) hbefore with
    ⟨earlier, rest, herrors, hearlier, hrest⟩
  have hbelow : forall u v, (V u ∧ ¬ decide (u.site < site) = true) ->
      (V v ∧ ¬ decide (v.site < site) = true) -> u.site < v.site ->
      decide (site <+: v.site) = true -> decide (site <+: u.site) = true := by
    intro u v hu _hv huv hv
    rcases of_decide_eq_true hv with ⟨below, hbelow⟩
    rw [← hbelow] at huv
    exact decide_eq_true (prefix_of_between (fun hlt => hu.right (decide_eq_true hlt)) huv)
  rcases hrest.split (fun v => decide (site <+: v.site)) hbelow with
    ⟨middle, later, hrestEq, hmiddle, hlater⟩
  refine ⟨earlier, middle, later, ?_, enumerates_congr ?_ hearlier, enumerates_congr ?_ hmiddle,
    enumerates_congr ?_ hlater⟩
  · rw [herrors, hrestEq, List.append_assoc]
  · intro v
    rw [decide_eq_true_iff]
  · intro v
    rw [decide_eq_true_iff, decide_eq_true_iff]
    constructor
    · intro hv
      exact ⟨hv.left.left, hv.right⟩
    · intro hv
      exact ⟨⟨hv.left, hv.right.le⟩, hv.right⟩
  · intro v
    rw [decide_eq_true_iff, decide_eq_true_iff, and_assoc]

theorem Enumerates.underSite {V : Violation -> Prop} {errors : List FieldError}
    (h : Enumerates V errors) (site : List Nat) :
    Enumerates (fun v => exists u, V u ∧ v = u.underSite site) errors := by
  rcases h with ⟨violations, hsorted, hmem, herrors⟩
  refine ⟨violations.map (Violation.underSite site), ?_, ?_, ?_⟩
  · exact List.pairwise_map.mpr (hsorted.imp List.append_left_lt)
  · intro v
    rw [List.mem_map]
    exact exists_congr (fun u => and_congr (hmem u) eq_comm)
  · rw [herrors, List.map_map]
    rfl

/-!
## Validation of embedded schemas
-/

theorem examine_errors_at (hs : Everywhere WellFormed s)
    (h : Embeds inner part site steps s raw) (hfound : s.examine raw path = .ok found)
    {below : Findings} (hbelow : inner.examine part (FieldPath.descend path steps) = .ok below) :
    exists earlier later, found.errors = earlier ++ below.errors ++ later ∧
      Enumerates (fun v => Violates s raw path v ∧ v.site < site) earlier ∧
      Enumerates (fun v => Violates s raw path v ∧ ¬ v.site < site ∧ ¬ site <+: v.site) later := by
  rcases (examine_enumerates hs hfound).split_at site with
    ⟨earlier, middle, later, herrors, hearlier, hmiddle, hlater⟩
  have hown : Enumerates (fun v => Violates s raw path v ∧ site <+: v.site) below.errors := by
    have hinner := examine_enumerates (hs.of_occurs h.occurs) hbelow
    refine enumerates_congr (fun v => ?_) (hinner.underSite site)
    constructor
    · intro hv
      rcases hv with ⟨u, hu, hv⟩
      rw [hv]
      exact ⟨(violates_embedded h).mpr hu, ⟨u.site, rfl⟩⟩
    · intro hv
      rcases hv with ⟨hv, rest, hrest⟩
      have hvu : v = Violation.underSite site ⟨rest, v.error⟩ := by
        rw [Violation.underSite, hrest]
      rw [hvu] at hv
      exact ⟨_, (violates_embedded h).mp hv, hvu⟩
  rw [hmiddle.unique hown] at herrors
  exact ⟨earlier, later, herrors, hearlier, hlater⟩

/-- Where a built schema has a result, so has every schema that stands in it, at any depth, on
what it finds there.  The errors of the whole are those of what comes before, then the errors of
the schema alone, moved below its place, then those of what comes behind; and if there are none,
the record holds at that place the record of the schema alone. -/
theorem validate_embedded {rule : Schema -> Call -> Schema -> Prop} {result : ValidationResult}
    (hs : Built rule s) (hplain : Everywhere PlainNames inner)
    (h : Embeds inner part site steps s raw) (hpart : part ≠ .null)
    (hresult : s.validate raw = .ok result) :
    exists alone earlier later, inner.validate part = .ok alone ∧
      result.errors = earlier ++
        alone.errors.map (FieldError.under (FieldPath.descend "" steps)) ++ later ∧
      Enumerates (fun v => Violates s raw "" v ∧ v.site < site) earlier ∧
      Enumerates (fun v => Violates s raw "" v ∧ ¬ v.site < site ∧ ¬ site <+: v.site) later ∧
      (result.ok = true -> result.value.at? steps = some alone.value) := by
  have hwell := hs.wellFormed
  have hinner := hwell.of_occurs h.occurs
  rcases (validate_eq_ok hwell.self.isSchema (Or.inl (h.raw_ne_null hpart))).mp hresult with
    ⟨found, hfound, hresultEq⟩
  rcases examine_embedded hwell h hfound with ⟨below, hbelow, hvalue⟩
  rcases examine_errors_at hwell h hfound hbelow with
    ⟨earlier, later, herrors, hearlier, hlater⟩
  -- the findings at the place are those at the document, moved below the place
  rcases (examine_at_eq_ok hinner hplain).mp hbelow with ⟨own, hown, hbelowEq⟩
  have halone : inner.validate part = .ok own.result :=
    (validate_eq_ok hinner.self.isSchema (Or.inl hpart)).mpr ⟨own, hown, rfl⟩
  refine ⟨own.result, earlier, later, halone, ?_, hearlier, hlater, ?_⟩
  · rw [hresultEq, Findings.result_errors, Findings.result_errors, herrors, hbelowEq]
    rfl
  · intro hok
    have hclean : found.errors = [] := by
      rw [← Findings.result_errors, ← hresultEq]
      exact List.isEmpty_iff.mp hok
    have hownClean : own.errors = [] := by
      rw [hclean, hbelowEq] at herrors
      rcases List.append_eq_nil_iff.mp herrors.symm with ⟨hfirst, _hlater⟩
      exact List.map_eq_nil_iff.mp (List.append_eq_nil_iff.mp hfirst).right
    rw [hresultEq, Findings.result_of_clean hclean, Findings.result_of_clean hownClean]
    rw [hbelowEq] at hvalue
    exact hvalue

theorem image_embedded :
    exists raw part result alone earlier later,
      raw = .mapping [(.text "images", .list [.mapping [(.text "src", .text "a.png")],
        .mapping [(.text "width", .text "wide")], .int 3]), (.text "title", .text "")] ∧
      part = .mapping [(.text "width", .text "wide")] ∧
      Built (fun _ _ _ => True) gallery ∧ Everywhere PlainNames image ∧
      Embeds image part [1, 1] [.field "images", .element 1] gallery raw ∧
      gallery.validate raw = .ok result ∧ image.validate part = .ok alone ∧
      alone.errors.map FieldError.text =
        ["src: MissingRequiredField: Missing required field 'src'",
          "width: TypeMismatch: Expected number, got string"] ∧
      result.errors = earlier ++ alone.errors.map (FieldError.under "images[1]") ++ later ∧
      result.errors.map FieldError.text =
        ["title: ConstraintViolation(nonEmpty): Value must not be empty",
          "images[1].src: MissingRequiredField: Missing required field 'src'",
          "images[1].width: TypeMismatch: Expected number, got string",
          "images[2]: TypeMismatch: Expected object, got number"] ∧
      Enumerates (fun v => Violates gallery raw "" v ∧ v.site < [1, 1]) earlier := by
  let part : Value := .mapping [(.text "width", .text "wide")]
  let items : List Value := [.mapping [(.text "src", .text "a.png")], part, .int 3]
  let raw : Value := .mapping [(.text "images", .list items), (.text "title", .text "")]
  have hgallery : Built (fun _ _ _ => True) gallery := built_gallery (fun _ _ _ => trivial)
  have hplain : Everywhere PlainNames image := by
    have hnames : forall name, name ∈ ["src", "width"] -> ¬ FieldPath.StartsWithIndex name := by
      decide
    refine Everywhere.object hnames ?_
    intro f hf
    simp only [List.mem_cons, List.not_mem_nil, or_false] at hf
    rcases hf with hf | hf <;> subst hf
    · exact Everywhere.leaf trivial (by simp [string, ofKind]) (by simp [string, ofKind])
    · exact Everywhere.leaf trivial (by simp) (by simp)
  have hembeds : Embeds image part [1, 1] [.field "images", .element 1] gallery raw := by
    have hheld : Held [(.text "images", .list items), (.text "title", .text "")] "images"
        (.list items) :=
      ⟨by with_unfolding_all rfl, by simp⟩
    have hitem : Embeds image part [1] [.element 1] (.array .fresh (some image)) (.list items) :=
      .element rfl rfl .here
    have hfield : [("title", Schema.primitive .fresh .string [.nonEmpty]),
        ("images", .array .fresh (some image))][1]? =
        some ("images", .array .fresh (some image)) := rfl
    exact .field hfield hheld hitem
  have hresult : exists result, gallery.validate raw = .ok result ∧
      result.errors.map FieldError.text =
        ["title: ConstraintViolation(nonEmpty): Value must not be empty",
          "images[1].src: MissingRequiredField: Missing required field 'src'",
          "images[1].width: TypeMismatch: Expected number, got string",
          "images[2]: TypeMismatch: Expected object, got number"] := by
    refine ⟨_, by with_unfolding_all rfl, ?_⟩
    with_unfolding_all rfl
  rcases hresult with ⟨result, hresult, htexts⟩
  rcases validate_embedded hgallery hplain hembeds (by simp [part]) hresult with
    ⟨alone, earlier, later, halone, herrors, hearlier, _hlater, _hvalue⟩
  have hown : exists own, image.validate part = .ok own ∧ own.errors.map FieldError.text =
      ["src: MissingRequiredField: Missing required field 'src'",
        "width: TypeMismatch: Expected number, got string"] := by
    refine ⟨_, by with_unfolding_all rfl, ?_⟩
    with_unfolding_all rfl
  rcases hown with ⟨own, hown, hownTexts⟩
  rw [hown] at halone
  injection halone with halone
  rw [← halone] at herrors
  exact ⟨raw, part, result, own, earlier, later, rfl, rfl, hgallery, hplain, hembeds, hresult,
    hown, hownTexts, herrors, htexts, hearlier⟩

end Schema
end ContentSchema
