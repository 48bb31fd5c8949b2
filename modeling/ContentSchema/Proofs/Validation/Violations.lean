import ContentSchema.Proofs.Sites
import ContentSchema.Proofs.Validation.Testing

/-!
# Violations

What is wrong with a raw value, said without reference to how validation goes about it.  A
violation is an error together with its site: the positions of the fields and elements on the
way down, and of the constraint at the end.  Sites are in the order of a walk that goes depth
first, and validation reports exactly the violations, each once and in this order.
-/

namespace ContentSchema
namespace Schema

structure Violation where
  site : List Nat
  error : FieldError

namespace Violation

def under (position : Nat) (v : Violation) : Violation :=
  ⟨position :: v.site, v.error⟩

end Violation

/-!
## Violations and conformance

Each rule is about one kind of schema.  Below a value of the wrong type there are no further
violations, and a field that holds a value has just the violations of that value.
-/

/-- The raw value that stands at the path violates the schema. -/
inductive Violates : Schema -> Value -> String -> Violation -> Prop
  | unread {a : Attributes} {kind : PrimitiveKind} {constraints : List Constraint}
      {raw : Value} {path : String} :
      (forall typed, ¬ kind.Reads raw typed) ->
      Violates (.primitive a kind constraints) raw path ⟨[], unread kind raw path⟩
  | failed {a : Attributes} {kind : PrimitiveKind} {constraints : List Constraint}
      {raw typed : Value} {path : String} {i : Nat} {c : Constraint} :
      kind.Reads raw typed -> constraints[i]? = some c -> c.check typed = .ok false ->
      Violates (.primitive a kind constraints) raw path ⟨[i], failure c raw path⟩
  | notText {a : Attributes} {values : List Value} {raw : Value} {path : String} :
      (forall t, raw ≠ .text t) ->
      Violates (.enumeration a values) raw path ⟨[], mistyped "string" raw path⟩
  | unlisted {a : Attributes} {values : List Value} {t : String} {path : String} :
      .text t ∉ values ->
      Violates (.enumeration a values) (.text t) path ⟨[], unlisted values t path⟩
  | notMapping {a : Attributes} {fields : List (String × Schema)} {raw : Value}
      {path : String} :
      (forall entries, raw ≠ .mapping entries) ->
      Violates (.object a fields) raw path ⟨[], mistyped "object" raw path⟩
  | missing {a : Attributes} {fields : List (String × Schema)} {f : String × Schema}
      {entries : List (Value × Value)} {path : String} {i : Nat} :
      fields[i]? = some f -> f.2.isRequired = true -> Absent entries f.1 ->
      Violates (.object a fields) (.mapping entries) path
        ⟨[i], missingField (FieldPath.joinField path f.1) f.1⟩
  | inField {a : Attributes} {fields : List (String × Schema)} {f : String × Schema}
      {entries : List (Value × Value)} {raw : Value} {path : String} {i : Nat}
      {v : Violation} :
      fields[i]? = some f -> Held entries f.1 raw ->
      Violates f.2 raw (FieldPath.joinField path f.1) v ->
      Violates (.object a fields) (.mapping entries) path (v.under i)
  | notSequence {a : Attributes} {element : Schema} {raw : Value} {path : String} :
      sequenceItems? raw = none ->
      Violates (.array a (some element)) raw path ⟨[], mistyped "array" raw path⟩
  | inElement {a : Attributes} {element : Schema} {raw item : Value} {items : List Value}
      {path : String} {i : Nat} {v : Violation} :
      sequenceItems? raw = some items -> items[i]? = some item ->
      Violates element item (FieldPath.joinIndex path i) v ->
      Violates (.array a (some element)) raw path (v.under i)

/-- The raw value is as the schema demands at every place. -/
inductive Conforms : Schema -> Value -> Prop
  | primitive {a : Attributes} {kind : PrimitiveKind} {constraints : List Constraint}
      {raw typed : Value} :
      kind.Reads raw typed ->
      (forall c, c ∈ constraints -> c.check typed = .ok true) ->
      Conforms (.primitive a kind constraints) raw
  | enumeration {a : Attributes} {values : List Value} {t : String} :
      .text t ∈ values -> Conforms (.enumeration a values) (.text t)
  | object {a : Attributes} {fields : List (String × Schema)}
      {entries : List (Value × Value)} :
      (forall f, f ∈ fields -> f.2.isRequired = true -> exists raw, Held entries f.1 raw) ->
      (forall f raw, f ∈ fields -> Held entries f.1 raw -> Conforms f.2 raw) ->
      Conforms (.object a fields) (.mapping entries)
  | array {a : Attributes} {element : Schema} {raw : Value} {items : List Value} :
      sequenceItems? raw = some items ->
      (forall item, item ∈ items -> Conforms element item) ->
      Conforms (.array a (some element)) raw

/-!
## Enumerations

A list of errors enumerates violations when it has the error of each, once, by ascending
site.  The enumerations of branches, put one after the other, enumerate the violations of
all branches under their positions.
-/

def Enumerates (V : Violation -> Prop) (errors : List FieldError) : Prop :=
  exists violations : List Violation,
    violations.Pairwise (fun u v => u.site < v.site) ∧
    (forall v, v ∈ violations <-> V v) ∧
    errors = violations.map Violation.error

theorem enumerates_iff_lists {V : Violation -> Prop} {errors : List FieldError} :
    Enumerates V errors <-> Lists (fun site e => V ⟨site, e⟩) errors := by
  constructor
  · intro h
    rcases h with ⟨violations, hsorted, hmem, herrors⟩
    refine ⟨violations.map (fun v => (v.site, v.error)), List.pairwise_map.mpr hsorted, ?_, ?_⟩
    · intro u
      show _ <-> V ⟨u.1, u.2⟩
      rw [← hmem, List.mem_map]
      constructor
      · intro hu
        rcases hu with ⟨v, hv, hvu⟩
        rw [← hvu]
        exact hv
      · intro hu
        exact ⟨_, hu, rfl⟩
    · rw [herrors, List.map_map]
      rfl
  · intro h
    rcases h with ⟨sited, hsorted, hmem, herrors⟩
    refine ⟨sited.map (fun u => ⟨u.1, u.2⟩), List.pairwise_map.mpr hsorted, ?_, ?_⟩
    · intro v
      rw [List.mem_map]
      constructor
      · intro hv
        rcases hv with ⟨u, hu, huv⟩
        rw [← huv]
        exact (hmem u).mp hu
      · intro hv
        exact ⟨(v.site, v.error), (hmem _).mpr hv, rfl⟩
    · rw [herrors, List.map_map]
      rfl

theorem enumerates_congr {V W : Violation -> Prop} {errors : List FieldError}
    (h : forall v, V v <-> W v) (hV : Enumerates V errors) : Enumerates W errors :=
  enumerates_iff_lists.mpr
    (lists_congr (fun site e => h ⟨site, e⟩) (enumerates_iff_lists.mp hV))

theorem enumerates_nil {V : Violation -> Prop} (h : forall v, ¬ V v) :
    Enumerates V [] :=
  enumerates_iff_lists.mpr (lists_nil (fun site e => h ⟨site, e⟩))

theorem enumerates_singleton {V : Violation -> Prop} {u : Violation}
    (h : forall v, V v <-> v = u) : Enumerates V [u.error] := by
  have hsingle (site : List Nat) (e : FieldError) :
      V ⟨site, e⟩ <-> site = u.site ∧ e = u.error := by
    rw [h]
    constructor
    · intro heq
      rw [← heq]
      exact ⟨rfl, rfl⟩
    · intro heq
      rw [heq.left, heq.right]
  exact enumerates_iff_lists.mpr (lists_singleton hsingle)

theorem eq_nil_of_enumerates {V : Violation -> Prop} {errors : List FieldError}
    (h : Enumerates V errors) : errors = [] <-> forall v, ¬ V v := by
  rw [eq_nil_of_lists (enumerates_iff_lists.mp h)]
  exact ⟨fun hnone v => hnone v.site v.error, fun hnone site e => hnone ⟨site, e⟩⟩

def InBranch {α : Type} (V : α -> Violation -> Prop) (start : Nat) (branches : List α)
    (v : Violation) : Prop :=
  exists i x u, branches[i]? = some x ∧ V x u ∧ v = u.under (start + i)

theorem inBranch_iff_atBranch {α : Type} {V : α -> Violation -> Prop} {start : Nat}
    {branches : List α} {site : List Nat} {e : FieldError} :
    InBranch V start branches ⟨site, e⟩ <->
      AtBranch (fun x site e => V x ⟨site, e⟩) start branches site e := by
  constructor
  · intro h
    rcases h with ⟨i, x, u, hx, hu, hv⟩
    injection hv with hsite herror
    rw [herror]
    exact ⟨i, x, hx, u.site, hsite, hu⟩
  · intro h
    rcases h with ⟨i, x, hx, rest, hsite, hu⟩
    rw [hsite]
    exact ⟨i, x, ⟨rest, e⟩, hx, hu, rfl⟩

theorem enumerates_branches {α : Type} {V : α -> Violation -> Prop} {start : Nat}
    {branches : List α} {found : List (List FieldError)}
    (h : List.Forall₂ (fun x errors => Enumerates (V x) errors) branches found) :
    Enumerates (InBranch V start branches) found.flatten := by
  refine enumerates_iff_lists.mpr (lists_congr (fun _ _ => inBranch_iff_atBranch.symm) ?_)
  exact lists_branches (h.imp fun _ _ hx => enumerates_iff_lists.mp hx)

/-!
## Violations by branch

The branches of a leaf are its constraints, those of an object its fields, and those of an
array its elements with their indices.
-/

def FailsConstraint (typed raw : Value) (path : String) (c : Constraint) (v : Violation) :
    Prop :=
  c.check typed = .ok false ∧ v = ⟨[], failure c raw path⟩

def FailsField (entries : List (Value × Value)) (path : String) (f : String × Schema)
    (v : Violation) : Prop :=
  (f.2.isRequired = true ∧ Absent entries f.1 ∧
    v = ⟨[], missingField (FieldPath.joinField path f.1) f.1⟩) ∨
  exists raw, Held entries f.1 raw ∧ Violates f.2 raw (FieldPath.joinField path f.1) v

def FailsElement (element : Schema) (path : String) (item : Value × Nat) (v : Violation) :
    Prop :=
  Violates element item.1 (FieldPath.joinIndex path item.2) v

variable {a : Attributes} {raw : Value} {path : String} {v : Violation}

theorem failsField_held {f : String × Schema} {entries : List (Value × Value)} {v : Violation}
    (hheld : Held entries f.1 raw) :
    FailsField entries path f v <-> Violates f.2 raw (FieldPath.joinField path f.1) v := by
  constructor
  · intro h
    rcases h with ⟨_hrequired, habsent, _hv⟩ | ⟨other, hother, hv⟩
    · exact absurd hheld (habsent raw)
    · rw [hheld.unique hother]
      exact hv
  · intro h
    exact Or.inr ⟨raw, hheld, h⟩

theorem violates_primitive_read {kind : PrimitiveKind} {constraints : List Constraint}
    {typed : Value} (h : kind.Reads raw typed) :
    Violates (.primitive a kind constraints) raw path v <->
      InBranch (FailsConstraint typed raw path) 0 constraints v := by
  constructor
  · intro hv
    cases hv with
    | unread hunread =>
        exact absurd h (hunread typed)
    | failed hreads hc hcheck =>
        rw [reads_unique hreads h] at hcheck
        exact ⟨_, _, _, hc, ⟨hcheck, rfl⟩, by rw [Nat.zero_add]; rfl⟩
  · intro hv
    rcases hv with ⟨i, c, u, hc, ⟨hcheck, hu⟩, hv⟩
    rw [hv, hu, Nat.zero_add]
    exact .failed h hc hcheck

theorem violates_primitive_unread {kind : PrimitiveKind} {constraints : List Constraint}
    (h : forall typed, ¬ kind.Reads raw typed) :
    Violates (.primitive a kind constraints) raw path v <->
      v = ⟨[], unread kind raw path⟩ := by
  constructor
  · intro hv
    cases hv with
    | unread _ =>
        rfl
    | failed hreads _ _ =>
        exact absurd hreads (h _)
  · intro hv
    rw [hv]
    exact .unread h

theorem violates_enumeration_other {values : List Value} (h : forall t, raw ≠ .text t) :
    Violates (.enumeration a values) raw path v <->
      v = ⟨[], mistyped "string" raw path⟩ := by
  constructor
  · intro hv
    cases hv with
    | notText _ =>
        rfl
    | unlisted _ =>
        exact absurd rfl (h _)
  · intro hv
    rw [hv]
    exact .notText h

theorem violates_listed {values : List Value} {t : String} (h : .text t ∈ values) :
    ¬ Violates (.enumeration a values) (.text t) path v := by
  intro hv
  cases hv with
  | notText hother =>
      exact hother t rfl
  | unlisted hunlisted =>
      exact hunlisted h

theorem violates_unlisted {values : List Value} {t : String} (h : .text t ∉ values) :
    Violates (.enumeration a values) (.text t) path v <->
      v = ⟨[], unlisted values t path⟩ := by
  constructor
  · intro hv
    cases hv with
    | notText hother =>
        exact absurd rfl (hother t)
    | unlisted _ =>
        rfl
  · intro hv
    rw [hv]
    exact .unlisted h

theorem violates_object_other {fields : List (String × Schema)}
    (h : forall entries, raw ≠ .mapping entries) :
    Violates (.object a fields) raw path v <->
      v = ⟨[], mistyped "object" raw path⟩ := by
  constructor
  · intro hv
    cases hv with
    | notMapping _ =>
        rfl
    | missing _ _ _ =>
        exact absurd rfl (h _)
    | inField _ _ _ =>
        exact absurd rfl (h _)
  · intro hv
    rw [hv]
    exact .notMapping h

theorem violates_array_other {element : Schema} (h : sequenceItems? raw = none) :
    Violates (.array a (some element)) raw path v <->
      v = ⟨[], mistyped "array" raw path⟩ := by
  constructor
  · intro hv
    cases hv with
    | notSequence _ =>
        rfl
    | inElement hitems _ _ =>
        rw [h] at hitems
        cases hitems
  · intro hv
    rw [hv]
    exact .notSequence h

theorem violates_mapping {fields : List (String × Schema)}
    {entries : List (Value × Value)} :
    Violates (.object a fields) (.mapping entries) path v <->
      InBranch (FailsField entries path) 0 fields v := by
  constructor
  · intro hv
    cases hv with
    | notMapping hother =>
        exact absurd rfl (hother entries)
    | missing hf hrequired habsent =>
        exact ⟨_, _, _, hf, Or.inl ⟨hrequired, habsent, rfl⟩, by rw [Nat.zero_add]; rfl⟩
    | inField hf hheld hviolates =>
        exact ⟨_, _, _, hf, Or.inr ⟨_, hheld, hviolates⟩, by rw [Nat.zero_add]⟩
  · intro hv
    rcases hv with ⟨i, f, u, hf, hfails, hv⟩
    rw [hv, Nat.zero_add]
    rcases hfails with ⟨hrequired, habsent, hu⟩ | ⟨raw, hheld, hviolates⟩
    · rw [hu]
      exact .missing hf hrequired habsent
    · exact .inField hf hheld hviolates

theorem violates_sequence {element : Schema} {items : List Value}
    (h : sequenceItems? raw = some items) :
    Violates (.array a (some element)) raw path v <->
      InBranch (FailsElement element path) 0 items.zipIdx v := by
  constructor
  · intro hv
    cases hv with
    | notSequence hother =>
        rw [h] at hother
        cases hother
    | inElement hitems hitem hviolates =>
        rw [h] at hitems
        injection hitems with hitems
        rw [← hitems] at hitem
        rename_i item others i u
        exact ⟨i, (item, i), u, getElem?_zipIdx_of hitem, hviolates, by rw [Nat.zero_add]⟩
  · intro hv
    rcases hv with ⟨i, item, u, hitem, hfails, hv⟩
    rw [List.getElem?_zipIdx, Nat.zero_add] at hitem
    rcases Option.map_eq_some_iff.mp hitem with ⟨value, hvalue, heq⟩
    rw [← heq] at hfails
    rw [hv, Nat.zero_add]
    exact .inElement h hvalue hfails

/-!
## Examination enumerates the violations
-/

theorem violations_enumerate {constraints : List Constraint} {typed : Value}
    {errors : List FieldError} (h : violations constraints typed raw path = .ok errors) :
    exists found, errors = found.flatten ∧
      List.Forall₂ (fun c errors => Enumerates (FailsConstraint typed raw path c) errors)
        constraints found := by
  induction constraints generalizing errors with
  | nil =>
      injection h with h
      exact ⟨[], h.symm, List.Forall₂.nil⟩
  | cons c rest ih =>
      rcases violations_cons.mp h with ⟨passed, later, hpassed, hlater, herrors⟩
      rcases ih hlater with ⟨found, hfound, hrest⟩
      refine ⟨_ :: found, by rw [herrors, hfound, List.flatten_cons],
        List.Forall₂.cons ?_ hrest⟩
      cases passed with
      | true =>
          apply enumerates_nil
          intro v hv
          have hcheck := hv.left
          rw [hpassed] at hcheck
          cases hcheck
      | false =>
          exact enumerates_singleton (u := ⟨[], failure c raw path⟩)
            (fun v => ⟨fun hv => hv.right, fun hv => ⟨hpassed, hv⟩⟩)

theorem fieldPart_enumerates {entries : List (Value × Value)} {f : String × Schema}
    {part : List (String × Value) × List FieldError}
    (ih : forall raw path found, f.2.examine raw path = .ok found ->
      Enumerates (Violates f.2 raw path) found.errors)
    (h : FieldPart entries path f part) :
    Enumerates (FailsField entries path f) part.2 := by
  have hfilled (habsent : Absent entries f.1) (hrequired : f.2.isRequired = false) :
      Enumerates (FailsField entries path f) [] := by
    apply enumerates_nil
    intro v hv
    rcases hv with ⟨hrequired', _⟩ | ⟨raw, hheld, _⟩
    · rw [hrequired] at hrequired'
      cases hrequired'
    · exact habsent raw hheld
  cases h with
  | held hheld hfound =>
      exact enumerates_congr (fun v => (failsField_held hheld).symm) (ih _ _ _ hfound)
  | missing habsent hrequired =>
      refine enumerates_singleton (u := ⟨[], _⟩) (fun v => ?_)
      constructor
      · intro hv
        rcases hv with ⟨_, _, hv⟩ | ⟨raw, hheld, _⟩
        · exact hv
        · exact absurd hheld (habsent raw)
      · intro hv
        exact Or.inl ⟨hrequired, habsent, hv⟩
  | filled habsent hfallback =>
      apply hfilled habsent
      cases hrequired : f.2.isRequired with
      | false =>
          rfl
      | true =>
          rw [fallback?_of_required hrequired] at hfallback
          cases hfallback
  | leftOut habsent hleft =>
      apply hfilled habsent
      simp [mayBeLeftOut] at hleft
      exact hleft.left

/-- The problems that examination finds are the violations, in order. -/
theorem examine_enumerates {s : Schema} {found : Findings}
    (hs : Everywhere WellFormed s) (h : s.examine raw path = .ok found) :
    Enumerates (Violates s raw path) found.errors := by
  induction s using tree_induction generalizing raw path found with
  | primitive a kind constraints =>
      cases examined_of_examine h with
      | read hreads herrors =>
          rcases violations_enumerate herrors with ⟨branches, hflat, hbranches⟩
          rw [hflat]
          exact enumerates_congr (fun v => (violates_primitive_read hreads).symm)
            (enumerates_branches hbranches)
      | unread hunread =>
          exact enumerates_singleton (fun v => violates_primitive_unread hunread)
  | enumeration a values =>
      cases examined_of_examine h with
      | listed hlisted =>
          exact enumerates_nil (fun v => violates_listed hlisted)
      | unlisted hunlisted =>
          exact enumerates_singleton (fun v => violates_unlisted hunlisted)
      | noText hother =>
          exact enumerates_singleton (fun v => violates_enumeration_other hother)
  | object a fields ih =>
      cases examined_of_examine h with
      | mapping hparts =>
          rename_i entries parts
          have hbelow : forall f, f ∈ fields -> forall raw path found,
              f.2.examine raw path = .ok found ->
                Enumerates (Violates f.2 raw path) found.errors :=
            fun f hf _raw _path _found hfield => ih f hf (hs.field hf) hfield
          have hbranches : List.Forall₂
              (fun f errors => Enumerates (FailsField entries path f) errors)
              fields (parts.map Prod.snd) := by
            rw [List.forall₂_map_right_iff]
            exact ((List.forall₂_and_left fields parts).mpr ⟨hbelow, hparts⟩).imp
              (fun f part hpart => fieldPart_enumerates hpart.left hpart.right)
          simp only [List.flatMap]
          exact enumerates_congr (fun v => violates_mapping.symm) (enumerates_branches hbranches)
      | noMapping hother =>
          exact enumerates_singleton (fun v => violates_object_other hother)
  | missing a =>
      cases hs.self.shape
  | array a element ih =>
      cases examined_of_examine h with
      | sequence hitems hparts =>
          rename_i items parts
          have hbranches : List.Forall₂
              (fun item errors => Enumerates (FailsElement element path item) errors)
              items.zipIdx (parts.map Findings.errors) := by
            rw [List.forall₂_map_right_iff]
            exact hparts.imp (fun item part hpart => ih hs.element hpart)
          simp only [List.flatMap]
          exact enumerates_congr (fun v => (violates_sequence hitems).symm)
            (enumerates_branches hbranches)
      | noSequence hother =>
          exact enumerates_singleton (fun v => violates_array_other hother)
  | bare a =>
      exact hs.self.shape.elim
  | foreign v =>
      exact hs.self.shape.elim

/-!
## Conformance is the absence of violations
-/

theorem not_conforms_of_violates {s : Schema} (h : Violates s raw path v) :
    ¬ Conforms s raw := by
  intro hconforms
  induction h with
  | unread hunread =>
      cases hconforms with
      | primitive hreads _ =>
          exact hunread _ hreads
  | failed hreads hc hcheck =>
      cases hconforms with
      | primitive hreads' hchecks =>
          have hpassed := hchecks _ (List.mem_of_getElem? hc)
          rw [reads_unique hreads' hreads, hcheck] at hpassed
          cases hpassed
  | notText hother =>
      cases hconforms with
      | enumeration _ =>
          exact hother _ rfl
  | unlisted hunlisted =>
      cases hconforms with
      | enumeration hlisted =>
          exact hunlisted hlisted
  | notMapping hother =>
      cases hconforms with
      | object _ _ =>
          exact hother _ rfl
  | missing hf hrequired habsent =>
      cases hconforms with
      | object hpresent _ =>
          rcases hpresent _ (List.mem_of_getElem? hf) hrequired with ⟨raw, hheld⟩
          exact habsent raw hheld
  | inField hf hheld _hviolates ih =>
      cases hconforms with
      | object _ hfields =>
          exact ih (hfields _ _ (List.mem_of_getElem? hf) hheld)
  | notSequence hother =>
      cases hconforms with
      | array hitems _ =>
          rw [hitems] at hother
          cases hother
  | inElement hitems hitem _hviolates ih =>
      cases hconforms with
      | array hitems' helements =>
          rw [hitems] at hitems'
          injection hitems' with hitems'
          rw [hitems'] at hitem
          exact ih (helements _ (List.mem_of_getElem? hitem))

theorem conforms_of_not_violates {s : Schema} (hs : Everywhere WellFormed s)
    (hanswers : forall c v, Tested c v s raw -> Answer.Succeeds (c.check v))
    (hclean : forall v, ¬ Violates s raw path v) : Conforms s raw := by
  induction s using tree_induction generalizing raw path with
  | primitive a kind constraints =>
      by_cases hread : exists typed, kind.Reads raw typed
      · rcases hread with ⟨typed, hreads⟩
        refine .primitive hreads (fun c hc => ?_)
        rcases hanswers c typed (.leaf hc hreads) with ⟨passed, hpassed⟩
        cases passed with
        | true =>
            exact hpassed
        | false =>
            rcases List.mem_iff_getElem?.mp hc with ⟨i, hi⟩
            exact absurd (.failed hreads hi hpassed) (hclean _)
      · exact absurd (.unread (not_exists.mp hread)) (hclean _)
  | enumeration a values =>
      by_cases htext : exists t, raw = .text t
      · rcases htext with ⟨t, hraw⟩
        subst hraw
        by_cases hlisted : .text t ∈ values
        · exact .enumeration hlisted
        · exact absurd (.unlisted hlisted) (hclean _)
      · exact absurd (.notText (not_exists.mp htext)) (hclean _)
  | object a fields ih =>
      by_cases hmapping : exists entries, raw = .mapping entries
      · rcases hmapping with ⟨entries, hraw⟩
        subst hraw
        refine .object (fun f hf hrequired => ?_) (fun f raw hf hheld => ?_)
        · rcases List.mem_iff_getElem?.mp hf with ⟨i, hi⟩
          rcases held_or_absent entries f.1 with hheld | habsent
          · exact hheld
          · exact absurd (.missing hi hrequired habsent) (hclean _)
        · rcases List.mem_iff_getElem?.mp hf with ⟨i, hi⟩
          have hanswersBelow := fun c v htested => hanswers c v (.field hf hheld htested)
          have hcleanBelow : forall v,
              ¬ Violates f.2 raw (FieldPath.joinField path f.1) v :=
            fun v hv => hclean _ (.inField hi hheld hv)
          exact ih f hf (hs.field hf) hanswersBelow hcleanBelow
      · exact absurd (.notMapping (not_exists.mp hmapping)) (hclean _)
  | missing a =>
      cases hs.self.shape
  | array a element ih =>
      cases hitems : sequenceItems? raw with
      | none =>
          exact absurd (.notSequence hitems) (hclean _)
      | some items =>
          refine .array hitems (fun item hitem => ?_)
          rcases List.mem_iff_getElem?.mp hitem with ⟨i, hi⟩
          have hanswersBelow := fun c v htested => hanswers c v (.element hitems hitem htested)
          have hcleanBelow : forall v,
              ¬ Violates element item (FieldPath.joinIndex path i) v :=
            fun v hv => hclean _ (.inElement hitems hi hv)
          exact ih hs.element hanswersBelow hcleanBelow
  | bare a =>
      exact hs.self.shape.elim
  | foreign v =>
      exact hs.self.shape.elim

theorem clean_iff_conforms {s : Schema} {found : Findings} (hs : Everywhere WellFormed s)
    (hanswers : forall c v, Tested c v s raw -> Answer.Succeeds (c.check v))
    (h : s.examine raw path = .ok found) : found.errors = [] <-> Conforms s raw := by
  rw [eq_nil_of_enumerates (examine_enumerates hs h)]
  constructor
  · exact conforms_of_not_violates hs hanswers
  · intro hconforms v hv
    exact not_conforms_of_violates hv hconforms

/-!
## Validation reports exactly the violations
-/

/-- Where every constraint that is tested answers, validation of a value that is not null has
a result.  Its errors are the violations, each once and depth first, and the value is accepted
exactly when it conforms to the schema at every place. -/
theorem validate_reports_violations {rule : Schema -> Call -> Schema -> Prop} {s : Schema}
    {raw : Value} (hs : Built rule s) (hraw : raw ≠ .null)
    (hanswers : forall c v, Tested c v s raw -> Answer.Succeeds (c.check v)) :
    exists result, s.validate raw = .ok result ∧
      Enumerates (Violates s raw "") result.errors ∧
      (result.ok = true <-> Conforms s raw) := by
  have hwell := hs.wellFormed
  rcases (succeeds_validate_iff hwell).mpr hanswers with ⟨result, hresult⟩
  rcases (validate_eq_ok hwell.self.isSchema (Or.inl hraw)).mp hresult with
    ⟨found, hfound, hresultEq⟩
  have herrors : result.errors = found.errors := by
    rw [hresultEq, Findings.result_errors]
  refine ⟨result, hresult, ?_, ?_⟩
  · rw [herrors]
    exact examine_enumerates hwell hfound
  · rw [← clean_iff_conforms hwell hanswers hfound, ← herrors]
    exact List.isEmpty_iff

theorem product_violations_reported :
    Built (fun _ _ _ => True) product ∧
    exists result,
      product.validate (.mapping [(.text "name", .text ""), (.text "price", .bool true),
        (.text "tags", .list [.text "new", .null])]) = .ok result ∧
      Enumerates (Violates product (.mapping [(.text "name", .text ""),
        (.text "price", .bool true), (.text "tags", .list [.text "new", .null])]) "")
        result.errors ∧
      (result.ok = true <-> Conforms product (.mapping [(.text "name", .text ""),
        (.text "price", .bool true), (.text "tags", .list [.text "new", .null])])) := by
  have hproduct : Built (fun _ _ _ => True) product := built_product (fun _ _ _ => trivial)
  refine ⟨hproduct, validate_reports_violations hproduct (by simp) ?_⟩
  intro c v htested
  exact product_answers htested

example :
    (validate (.array .fresh (some (.primitive .fresh .string [.nonEmpty, .minLength (.int 3)])))
      (.list [.text "", .null, .text "abc"])).toOption.map
      (fun result => result.errors.map FieldError.text) =
    some ["[0]: ConstraintViolation(nonEmpty): Value must not be empty",
      "[0]: ConstraintViolation(minLength): Value must be at least 3 characters long",
      "[1]: TypeMismatch: Expected string, got null"] := rfl

end Schema
end ContentSchema
