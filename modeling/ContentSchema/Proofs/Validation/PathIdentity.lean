import ContentSchema.Proofs.Validation.Embedding

/-!
# Paths identify places

A path is written without any escapes, and still it can be read in one way only, as long as names
of fields are not empty and have neither a point nor an opening bracket in them.  So errors have
the same path only if they are about the same place, and at one place there is a single problem
or there are several constraints that one value fails.
-/

namespace ContentSchema

/-!
## Reading paths

Every step but the first one is written in a way that does not depend on where it stands, and a
point in front of the path makes the first one like the others.
-/

namespace FieldPath
namespace Step

/-- The step can be told from what is written behind it. -/
def IsReadable : Step -> Prop
  | field name => name ≠ "" ∧ '.' ∉ name.toList ∧ '[' ∉ name.toList
  | element _ => True

def spelling : Step -> List Char
  | field name => '.' :: name.toList
  | element index => '[' :: ((toString index).toList ++ [']'])

@[simp] theorem toList_joinIndex (path : String) (index : Nat) :
    (joinIndex path index).toList = path.toList ++ (element index).spelling := by
  rw [joinIndex, String.toList_append, String.toList_append, String.toList_append,
    List.append_assoc, List.append_assoc]
  rfl

theorem toList_below {path : String} (h : path ≠ "") (step : Step) :
    (step.below path).toList = path.toList ++ step.spelling := by
  cases step with
  | field name =>
      rw [below, joinField_below h, String.toList_append, String.toList_append]
      rfl
  | element index =>
      exact toList_joinIndex path index

theorem below_ne_empty {path : String} (h : path ≠ "") (step : Step) : step.below path ≠ "" := by
  rw [ne_eq, ← String.toList_eq_nil_iff, toList_below h, List.append_eq_nil_iff,
    String.toList_eq_nil_iff]
  exact fun hboth => h hboth.left

end Step

theorem toList_descend {path : String} (h : path ≠ "") (steps : List Step) :
    (descend path steps).toList = path.toList ++ steps.flatMap Step.spelling := by
  induction steps generalizing path with
  | nil =>
      exact (List.append_nil _).symm
  | cons step rest ih =>
      show (descend (step.below path) rest).toList = _
      rw [ih (Step.below_ne_empty h step), Step.toList_below h, List.flatMap_cons,
        List.append_assoc]

def pointed : List Char -> List Char
  | [] => []
  | c :: rest => if c = '[' then c :: rest else '.' :: c :: rest

theorem pointed_descend {steps : List Step} (h : forall step, step ∈ steps -> step.IsReadable) :
    pointed (descend "" steps).toList = steps.flatMap Step.spelling := by
  cases steps with
  | nil =>
      rfl
  | cons step rest =>
      cases step with
      | field name =>
          rcases h _ List.mem_cons_self with ⟨hfilled, _hpoint, hbracket⟩
          show pointed (descend name rest).toList = _
          rw [toList_descend hfilled, List.flatMap_cons, Step.spelling]
          cases hname : name.toList with
          | nil =>
              exact absurd (String.toList_eq_nil_iff.mp hname) hfilled
          | cons c letters =>
              rw [hname] at hbracket
              rw [List.cons_append, pointed, if_neg (Ne.symm (List.ne_of_not_mem_cons hbracket))]
              rfl
      | element index =>
          have hfilled : joinIndex "" (index : Int) ≠ "" :=
            ne_empty_of_startsWithIndex startsWithIndex_joinIndex
          show pointed (descend (joinIndex "" index) rest).toList = _
          rw [toList_descend hfilled, Step.toList_joinIndex, List.flatMap_cons]
          rfl

theorem eq_of_stops {stop : Char -> Prop} {xs ys u v : List Char}
    (hxs : forall c, c ∈ xs -> ¬ stop c) (hys : forall c, c ∈ ys -> ¬ stop c)
    (hu : forall c, c ∈ u.head? -> stop c) (hv : forall c, c ∈ v.head? -> stop c)
    (h : xs ++ u = ys ++ v) : xs = ys ∧ u = v := by
  induction xs generalizing ys with
  | nil =>
      cases ys with
      | nil =>
          exact ⟨rfl, h⟩
      | cons y ys =>
          rw [List.nil_append] at h
          rw [h] at hu
          exact absurd (hu y rfl) (hys y List.mem_cons_self)
  | cons x xs ih =>
      cases ys with
      | nil =>
          rw [List.nil_append] at h
          rw [← h] at hv
          exact absurd (hv x rfl) (hxs x List.mem_cons_self)
      | cons y ys =>
          injection h with hxy h
          rcases List.forall_mem_cons.mp hxs with ⟨_hx, hxs⟩
          rcases List.forall_mem_cons.mp hys with ⟨_hy, hys⟩
          rcases ih hxs hys h with ⟨hrest, huv⟩
          exact ⟨by rw [hxy, hrest], huv⟩

def StartsStep (c : Char) : Prop :=
  c = '.' ∨ c = '['

theorem startsStep_spellings {steps : List Step} {c : Char}
    (h : c ∈ (steps.flatMap Step.spelling).head?) : StartsStep c := by
  cases steps with
  | nil =>
      cases h
  | cons step rest =>
      cases step with
      | field name =>
          exact Or.inl (Option.some.inj h).symm
      | element index =>
          exact Or.inr (Option.some.inj h).symm

theorem ne_bracket_of_mem_toString {index : Nat} {c : Char} (h : c ∈ (toString index).toList) :
    ¬ c = ']' := by
  intro hc
  rw [Nat.toString_eq_repr, Nat.toList_repr] at h
  have hdigit := Nat.isDigit_of_mem_toDigits (by decide) (by decide) h
  rw [hc] at hdigit
  cases hdigit

theorem eq_of_toString_eq {index other : Nat}
    (h : (toString index).toList = (toString other).toList) : index = other := by
  rw [Nat.toString_eq_repr, Nat.toString_eq_repr, Nat.toList_repr, Nat.toList_repr] at h
  rw [← Nat.ofDigitChars_ten_toDigits (n := index), h, Nat.ofDigitChars_ten_toDigits]

theorem Step.spelling_inj {s t : Step} (hs : s.IsReadable) (ht : t.IsReadable)
    {steps others : List Step}
    (h : s.spelling ++ steps.flatMap Step.spelling = t.spelling ++ others.flatMap Step.spelling) :
    s = t ∧ steps.flatMap Step.spelling = others.flatMap Step.spelling := by
  cases s with
  | field name =>
      cases t with
      | field other =>
          injection h with _hpoint h
          have hplain {name : String} (hname : (Step.field name).IsReadable) :
              forall c, c ∈ name.toList -> ¬ StartsStep c := by
            intro c hc hstart
            rcases hstart with hstart | hstart
            · exact hname.right.left (hstart ▸ hc)
            · exact hname.right.right (hstart ▸ hc)
          -- a name ends where a point or a bracket starts the next step
          rcases eq_of_stops (hplain hs) (hplain ht) (fun _c => startsStep_spellings)
            (fun _c => startsStep_spellings) h with ⟨hname, hrest⟩
          exact ⟨congrArg Step.field (String.toList_inj.mp hname), hrest⟩
      | element index =>
          injection h with hcontra _
          cases hcontra
  | element index =>
      cases t with
      | field name =>
          injection h with hcontra _
          cases hcontra
      | element other =>
          rw [spelling, spelling, List.cons_append, List.cons_append, List.append_assoc,
            List.append_assoc] at h
          injection h with _hbracket h
          have hclosed {u : List Char} : forall c, c ∈ ([']'] ++ u).head? -> c = ']' :=
            fun _c hc => (Option.some.inj hc).symm
          rcases eq_of_stops (fun _c => ne_bracket_of_mem_toString)
            (fun _c => ne_bracket_of_mem_toString) hclosed hclosed h with ⟨hindex, hrest⟩
          injection hrest with _hbracket hrest
          exact ⟨congrArg Step.element (eq_of_toString_eq hindex), hrest⟩

theorem spellings_inj {steps others : List Step}
    (hsteps : forall step, step ∈ steps -> step.IsReadable)
    (hothers : forall step, step ∈ others -> step.IsReadable)
    (h : steps.flatMap Step.spelling = others.flatMap Step.spelling) : steps = others := by
  have hfilled (step : Step) (rest : List Step) :
      (step :: rest).flatMap Step.spelling ≠ [] := by
    cases step <;> exact List.cons_ne_nil _ _
  induction steps generalizing others with
  | nil =>
      cases others with
      | nil =>
          rfl
      | cons t others =>
          exact absurd h.symm (hfilled t others)
  | cons s steps ih =>
      cases others with
      | nil =>
          exact absurd h (hfilled s steps)
      | cons t others =>
          rcases List.forall_mem_cons.mp hsteps with ⟨hs, hsteps⟩
          rcases List.forall_mem_cons.mp hothers with ⟨ht, hothers⟩
          rw [List.flatMap_cons, List.flatMap_cons] at h
          rcases Step.spelling_inj hs ht h with ⟨hst, hrest⟩
          rw [hst, ih hsteps hothers hrest]

/-- A path from the document on tells the steps to the place. -/
theorem descend_inj {steps others : List Step}
    (hsteps : forall step, step ∈ steps -> step.IsReadable)
    (hothers : forall step, step ∈ others -> step.IsReadable)
    (h : descend "" steps = descend "" others) : steps = others := by
  apply spellings_inj hsteps hothers
  rw [← pointed_descend hsteps, h, pointed_descend hothers]

end FieldPath

namespace Schema

/-!
## Places of violations
-/

/-- The steps to the place of what stands at a site.  Positions of fields and elements lead a step
further; the position of a constraint does not. -/
def placeOf : Schema -> List Nat -> List FieldPath.Step
  | .object _ fields, i :: site =>
      match fields[i]? with
      | some f => .field f.1 :: f.2.placeOf site
      | none => []
  | .array _ (some element), i :: site => .element i :: element.placeOf site
  | _, _ => []

@[simp] theorem placeOf_nil (s : Schema) : s.placeOf [] = [] := by
  cases s <;> simp [placeOf]

@[simp] theorem placeOf_primitive {a : Attributes} {kind : PrimitiveKind}
    {constraints : List Constraint} {site : List Nat} :
    (Schema.primitive a kind constraints).placeOf site = [] := by
  simp [placeOf]

@[simp] theorem placeOf_field {a : Attributes} {fields : List (String × Schema)}
    {f : String × Schema}
    {i : Nat} (hf : fields[i]? = some f) (site : List Nat) :
    (Schema.object a fields).placeOf (i :: site) = .field f.1 :: f.2.placeOf site := by
  rw [placeOf, hf]

theorem placeOf_eq_field {a : Attributes} {fields : List (String × Schema)} {f : String × Schema}
    {i : Nat} (hnames : (fieldNames fields).Nodup) (hf : fields[i]? = some f) {site : List Nat}
    {steps : List FieldPath.Step} :
    (Schema.object a fields).placeOf site = .field f.1 :: steps <->
      exists below, site = i :: below ∧ f.2.placeOf below = steps := by
  constructor
  · intro h
    cases site with
    | nil =>
        rw [placeOf_nil] at h
        cases h
    | cons j below =>
        cases hg : fields[j]? with
        | none =>
            rw [placeOf, hg] at h
            cases h
        | some g =>
            rw [placeOf_field hg] at h
            injection h with hstep hsteps
            injection hstep with hname
            have hfg :=
              field_unique hnames (List.mem_of_getElem? hg) (List.mem_of_getElem? hf) hname
            have hfields : fields.Nodup := List.Nodup.of_map _ hnames
            rw [hfg] at hg hsteps
            rcases List.getElem?_eq_some_iff.mp hg with ⟨hj, _hg⟩
            have hji := (List.getElem?_inj hj hfields).mp (hg.trans hf.symm)
            exact ⟨below, by rw [hji], hsteps⟩
  · intro h
    rcases h with ⟨below, hsite, hsteps⟩
    rw [hsite, placeOf_field hf, hsteps]

theorem placeOf_eq_element {a : Attributes} {element : Schema} {i : Nat} {site : List Nat}
    {steps : List FieldPath.Step} :
    (Schema.array a (some element)).placeOf site = .element i :: steps <->
      exists below, site = i :: below ∧ element.placeOf below = steps := by
  cases site with
  | nil =>
      simp
  | cons j below =>
      simp [placeOf]

variable {inner s : Schema} {part raw : Value} {site : List Nat} {steps : List FieldPath.Step}
  {path : String}

theorem exists_site_cons {i : Nat} {other : List Nat} {P : List Nat -> Prop} :
    (exists tail, other = i :: tail ∧ exists below, tail = site ++ below ∧ P below) <->
      exists below, other = i :: site ++ below ∧ P below := by
  constructor
  · intro h
    rcases h with ⟨tail, hother, below, htail, hbelow⟩
    exact ⟨below, by rw [hother, htail, List.cons_append], hbelow⟩
  · intro h
    rcases h with ⟨below, hother, hbelow⟩
    exact ⟨_, hother, below, rfl, hbelow⟩

theorem Embeds.placeOf_eq_append (h : Embeds inner part site steps s raw)
    (hs : Everywhere WellFormed s) {other : List Nat} {rest : List FieldPath.Step} :
    s.placeOf other = steps ++ rest <->
      exists below, other = site ++ below ∧ inner.placeOf below = rest := by
  induction h generalizing other with
  | here =>
      simp
  | field hf _hheld _hbelow ih =>
      rw [List.cons_append, placeOf_eq_field (nodup_of_mem_fields hs) hf, ← exists_site_cons]
      simp only [ih (hs.field (List.mem_of_getElem? hf))]
  | element _hitems _hitem _hbelow ih =>
      rw [List.cons_append, placeOf_eq_element, ← exists_site_cons]
      simp only [ih hs.element]

@[simp] theorem unread_path {kind : PrimitiveKind} : (unread kind raw path).path = path := by
  cases kind <;> cases raw <;> rfl

theorem Violates.path_eq {v : Violation} (h : Violates s raw path v) :
    v.error.path = FieldPath.descend path (s.placeOf v.site) := by
  induction h with
  | unread _ =>
      rw [placeOf_nil]
      exact unread_path
  | inField hf _hheld _hbelow ih =>
      rw [Violation.under, placeOf_field hf]
      exact ih
  | inElement _hitems _hitem _hbelow ih =>
      rw [Violation.under, placeOf]
      exact ih
  | missing hf _hrequired _habsent =>
      rw [placeOf_field hf, placeOf_nil]
      rfl
  | failed _ _ _ =>
      rw [placeOf_primitive]
      rfl
  | _ =>
      rw [placeOf_nil]
      rfl

/-- Names of fields that can be told from what is written around them in a path. -/
def ReadableNames : Schema -> Prop
  | .object _ fields =>
      forall name, name ∈ fieldNames fields -> (FieldPath.Step.field name).IsReadable
  | _ => True

theorem placeOf_readable (h : Everywhere ReadableNames s) (site : List Nat) :
    forall step, step ∈ s.placeOf site -> step.IsReadable := by
  induction site generalizing s with
  | nil =>
      rw [placeOf_nil]
      exact fun step hstep => absurd hstep List.not_mem_nil
  | cons i below ih =>
      cases s with
      | object a fields =>
          cases hf : fields[i]? with
          | none =>
              rw [placeOf, hf]
              exact fun step hstep => absurd hstep List.not_mem_nil
          | some f =>
              have hmem := List.mem_of_getElem? hf
              rw [placeOf_field hf]
              exact List.forall_mem_cons.mpr ⟨h.self _ (name_mem hmem), ih (h.field hmem)⟩
      | array a element =>
          cases element with
          | none =>
              simp [placeOf]
          | some element =>
              rw [placeOf]
              exact List.forall_mem_cons.mpr ⟨trivial, ih h.element⟩
      | _ =>
          simp [placeOf]

theorem path_eq_iff (hnames : Everywhere ReadableNames s) {u v : Violation}
    (hu : Violates s raw "" u) (hv : Violates s raw "" v) :
    u.error.path = v.error.path <-> s.placeOf u.site = s.placeOf v.site := by
  rw [hu.path_eq, hv.path_eq]
  constructor
  · exact FieldPath.descend_inj (placeOf_readable hnames u.site) (placeOf_readable hnames v.site)
  · intro h
    rw [h]

/-!
## What shares a place

A violation comes from an embedded schema.  There it is either the only one at its place, and
then about no constraint, or the schema is a leaf that has read the value and tests constraints.
-/

def StandsAlone (inner : Schema) (part : Value) (path : String) (w : Violation) : Prop :=
  w.error.kind ≠ .constraintViolation ∧
    forall v, Violates inner part path v -> inner.placeOf v.site = inner.placeOf w.site -> v = w

@[simp] theorem unread_kind {kind : PrimitiveKind} :
    (unread kind raw path).kind = .typeMismatch := by
  cases kind <;> cases raw <;> rfl

theorem standsAlone_missing {a : Attributes} {fields : List (String × Schema)}
    {f : String × Schema} {entries : List (Value × Value)} {i : Nat}
    (hnames : (fieldNames fields).Nodup) (hf : fields[i]? = some f) (habsent : Absent entries f.1) :
    StandsAlone (.object a fields) (.mapping entries) path
      ⟨[i], missingField (FieldPath.joinField path f.1) f.1⟩ := by
  refine ⟨by simp [missingField, FieldError.plain], fun v hv hplace => ?_⟩
  rw [placeOf_field hf, placeOf_nil] at hplace
  rcases (placeOf_eq_field hnames hf).mp hplace with ⟨below, hsite, _hbelow⟩
  have hunder : v = Violation.under i ⟨below, v.error⟩ := by
    rw [Violation.under, ← hsite]
  rw [hunder, violates_mapping, inBranch_at hf] at hv
  rcases hv with ⟨_hrequired, _habsent, hv⟩ | ⟨raw, hheld, _hviolates⟩
  · rw [hunder, hv]
    rfl
  · exact absurd hheld (habsent raw)

def ReadsAsLeaf (inner : Schema) (part : Value) : Prop :=
  exists a kind constraints typed, inner = .primitive a kind constraints ∧ kind.Reads part typed

def HasSource (s : Schema) (raw : Value) (path : String) (u : Violation) : Prop :=
  exists inner part site steps w, Embeds inner part site steps s raw ∧ u = w.underSite site ∧
    Violates inner part (FieldPath.descend path steps) w ∧
    (StandsAlone inner part (FieldPath.descend path steps) w ∨ ReadsAsLeaf inner part)

theorem HasSource.here {u : Violation} (hu : Violates s raw path u)
    (hsource : StandsAlone s raw path u ∨ ReadsAsLeaf s raw) : HasSource s raw path u :=
  ⟨s, raw, [], [], u, .here, rfl, hu, hsource⟩

theorem hasSource_of_single {u : Violation} (hkind : u.error.kind ≠ .constraintViolation)
    (h : forall v, Violates s raw path v <-> v = u) : HasSource s raw path u :=
  .here ((h u).mpr rfl) (Or.inl ⟨hkind, fun v hv _hplace => (h v).mp hv⟩)

theorem Violates.hasSource (hs : Everywhere WellFormed s) {u : Violation}
    (h : Violates s raw path u) : HasSource s raw path u := by
  induction h with
  | unread hunread =>
      exact hasSource_of_single (by simp)
        (fun v => violates_primitive_unread hunread)
  | failed hreads hc hcheck =>
      exact .here (.failed hreads hc hcheck) (Or.inr ⟨_, _, _, _, rfl, hreads⟩)
  | notText hother =>
      exact hasSource_of_single (by simp [mistyped]) (fun v => violates_enumeration_other hother)
  | unlisted hunlisted =>
      exact hasSource_of_single (by simp [Schema.unlisted]) (fun v => violates_unlisted hunlisted)
  | notMapping hother =>
      exact hasSource_of_single (by simp [mistyped]) (fun v => violates_object_other hother)
  | missing hf hrequired habsent =>
      exact .here (.missing hf hrequired habsent)
        (Or.inl (standsAlone_missing (nodup_of_mem_fields hs) hf habsent))
  | notSequence hother =>
      exact hasSource_of_single (by simp [mistyped]) (fun v => violates_array_other hother)
  | inField hf hheld _hviolates ih =>
      rcases ih (hs.field (List.mem_of_getElem? hf)) with
        ⟨inner, part, site, steps, w, hembeds, hv, hw, hsource⟩
      exact ⟨inner, part, _, _, w, .field hf hheld hembeds, by rw [hv]; rfl, hw, hsource⟩
  | inElement hitems hitem _hviolates ih =>
      rcases ih hs.element with ⟨inner, part, site, steps, w, hembeds, hv, hw, hsource⟩
      exact ⟨inner, part, _, _, w, .element hitems hitem hembeds, by rw [hv]; rfl, hw, hsource⟩

/-!
## Errors that share a path
-/

theorem violates_at_source (hs : Everywhere WellFormed s) (hnames : Everywhere ReadableNames s)
    (hembeds : Embeds inner part site steps s raw) {w : Violation}
    (hw : Violates inner part (FieldPath.descend "" steps) w) {v : Violation} :
    (Violates s raw "" v ∧ v.error.path = w.error.path) <->
      exists x, (Violates inner part (FieldPath.descend "" steps) x ∧
        inner.placeOf x.site = inner.placeOf w.site) ∧ v = x.underSite site := by
  have hwhole : Violates s raw "" (w.underSite site) := (violates_embedded hembeds).mpr hw
  have hplace : s.placeOf (site ++ w.site) = steps ++ inner.placeOf w.site :=
    (hembeds.placeOf_eq_append hs).mpr ⟨_, rfl, rfl⟩
  constructor
  · intro h
    rcases h with ⟨hv, hpath⟩
    have hshared := (path_eq_iff hnames hv hwhole).mp hpath
    rw [Violation.underSite, hplace, hembeds.placeOf_eq_append hs] at hshared
    rcases hshared with ⟨below, hsite, hbelow⟩
    have hunder : v = Violation.underSite site ⟨below, v.error⟩ := by
      rw [Violation.underSite, ← hsite]
    rw [hunder] at hv
    exact ⟨_, ⟨(violates_embedded hembeds).mp hv, hbelow⟩, hunder⟩
  · intro h
    rcases h with ⟨x, ⟨hx, hbelow⟩, hv⟩
    have hxWhole : Violates s raw "" (x.underSite site) := (violates_embedded hembeds).mpr hx
    rw [hv]
    refine ⟨hxWhole, (path_eq_iff hnames hxWhole hwhole).mpr ?_⟩
    rw [Violation.underSite, Violation.underSite, hplace, hembeds.placeOf_eq_append hs]
    exact ⟨_, rfl, hbelow⟩

theorem Enumerates.at_path {V : Violation -> Prop} {errors : List FieldError}
    (h : Enumerates V errors) (path : String) :
    Enumerates (fun v => V v ∧ v.error.path = path) (errors.filter (fun e => e.path == path)) := by
  rcases h with ⟨violations, hsorted, hmem, herrors⟩
  rw [herrors, List.filter_map]
  refine enumerates_congr (fun v => ?_) (Enumerates.filter hsorted hmem _)
  rw [Function.comp_apply, beq_iff_eq]

theorem kinds_of_leaf {a : Attributes} {kind : PrimitiveKind} {constraints : List Constraint}
    {typed : Value} {errors : List FieldError} (hreads : kind.Reads part typed)
    (h : Enumerates (Violates (.primitive a kind constraints) part path) errors) :
    forall e, e ∈ errors -> e.kind = .constraintViolation := by
  intro e he
  rcases h with ⟨violations, _hsorted, hmem, herrors⟩
  rw [herrors, List.mem_map] at he
  rcases he with ⟨v, hv, hve⟩
  rw [← hve]
  cases (hmem v).mp hv with
  | unread hunread =>
      exact absurd hreads (hunread typed)
  | failed _ _ _ =>
      rfl

/-- The errors are those of one leaf that stands at the place and has read the value there, and
all of them are about its constraints. -/
def OfOneLeaf (s : Schema) (raw : Value) (steps : List FieldPath.Step)
    (errors : List FieldError) : Prop :=
  exists a kind constraints part typed site,
    Embeds (.primitive a kind constraints) part site steps s raw ∧ kind.Reads part typed ∧
    Enumerates (Violates (.primitive a kind constraints) part (FieldPath.descend "" steps))
      errors ∧
    forall e, e ∈ errors -> e.kind = .constraintViolation

/-- What is found at the path of a violation. -/
theorem errors_sharing_path {found : Findings} (hs : Everywhere WellFormed s)
    (hnames : Everywhere ReadableNames s) (hfound : s.examine raw "" = .ok found)
    {u : Violation} (hu : Violates s raw "" u) :
    (u.error.kind ≠ .constraintViolation ∧
      found.errors.filter (fun e => e.path == u.error.path) = [u.error]) ∨
    OfOneLeaf s raw (s.placeOf u.site)
      (found.errors.filter (fun e => e.path == u.error.path)) := by
  rcases hu.hasSource hs with ⟨inner, part, site, steps, w, hembeds, huw, hw, hsource⟩
  have hshared : Enumerates
      (fun v => exists x, (Violates inner part (FieldPath.descend "" steps) x ∧
        inner.placeOf x.site = inner.placeOf w.site) ∧ v = x.underSite site)
      (found.errors.filter (fun e => e.path == u.error.path)) := by
    rw [huw]
    exact enumerates_congr (fun _v => violates_at_source hs hnames hembeds hw)
      ((examine_enumerates hs hfound).at_path w.error.path)
  rcases hsource with ⟨hkind, halone⟩ | ⟨a, kind, constraints, typed, hinner, hreads⟩
  · refine Or.inl ⟨by rw [huw]; exact hkind, hshared.unique (enumerates_singleton fun v => ?_)⟩
    constructor
    · intro hv
      rcases hv with ⟨x, ⟨hx, hplace⟩, hv⟩
      rw [hv, halone x hx hplace, huw]
    · intro hv
      exact ⟨w, ⟨hw, rfl⟩, hv.trans huw⟩
  · subst hinner
    have hplace : s.placeOf u.site = steps := by
      rw [huw, Violation.underSite, ← List.append_nil steps, hembeds.placeOf_eq_append hs]
      exact ⟨_, rfl, placeOf_primitive⟩
    rcases examine_embedded hs hembeds hfound with ⟨below, hbelow, _hvalue⟩
    have hown := examine_enumerates (hs.of_occurs hembeds.occurs) hbelow
    have hsame : found.errors.filter (fun e => e.path == u.error.path) = below.errors := by
      refine hshared.unique (enumerates_congr (fun v => ?_) (hown.underSite site))
      simp
    rw [hsame, hplace]
    exact Or.inr ⟨a, kind, constraints, part, typed, site, hembeds, hreads, hown,
      kinds_of_leaf hreads hown⟩

/-- Different places have different paths, as long as all names on the way are readable.  So for
a built schema whose names of fields are readable, the errors of a result are those of violations
by ascending site, each with the path to its place, and two of them have the same path exactly
when they have the same place.  At one place there is either a single error, which is about no
constraint, or there are only constraints that the value of one leaf fails. -/
theorem paths_identify_places :
    (forall steps others : List FieldPath.Step,
      (forall step, step ∈ steps -> step.IsReadable) ->
      (forall step, step ∈ others -> step.IsReadable) ->
      FieldPath.descend "" steps = FieldPath.descend "" others -> steps = others) ∧
    forall {rule : Schema -> Call -> Schema -> Prop} {s : Schema} {raw : Value}
      {result : ValidationResult},
      Built rule s -> Everywhere ReadableNames s -> s.validate raw = .ok result ->
      exists violations : List Violation,
        result.errors = violations.map Violation.error ∧
        violations.Pairwise (fun u v => u.site < v.site) ∧
        (forall u, u ∈ violations -> Violates s raw "" u ∧
          u.error.path = FieldPath.descend "" (s.placeOf u.site)) ∧
        (forall u v, u ∈ violations -> v ∈ violations ->
          (u.error.path = v.error.path <-> s.placeOf u.site = s.placeOf v.site)) ∧
        forall u, u ∈ violations ->
          (u.error.kind ≠ .constraintViolation ∧
            result.errors.filter (fun e => e.path == u.error.path) = [u.error]) ∨
          OfOneLeaf s raw (s.placeOf u.site)
            (result.errors.filter (fun e => e.path == u.error.path)) := by
  refine ⟨fun _steps _others hsteps hothers => FieldPath.descend_inj hsteps hothers, ?_⟩
  intro rule s raw result hbuilt hnames hresult
  have hs := hbuilt.wellFormed
  by_cases hexamined : raw ≠ .null ∨ s.isRequired = true
  · rcases (validate_eq_ok hs.self.isSchema hexamined).mp hresult with ⟨found, hfound, hresultEq⟩
    rw [hresultEq, Findings.result_errors]
    rcases examine_enumerates hs hfound with ⟨violations, hsorted, hmem, herrors⟩
    refine ⟨violations, herrors, hsorted, ?_, ?_, ?_⟩
    · intro u hu
      exact ⟨(hmem u).mp hu, ((hmem u).mp hu).path_eq⟩
    · intro u v hu hv
      exact path_eq_iff hnames ((hmem u).mp hu) ((hmem v).mp hv)
    · intro u hu
      exact errors_sharing_path hs hnames hfound ((hmem u).mp hu)
  · -- null is accepted unseen, and there are no errors
    simp only [ne_eq, not_or, not_not, Bool.not_eq_true] at hexamined
    rw [hexamined.left, validate_null hs.self.isSchema hexamined.right] at hresult
    injection hresult with hresult
    rw [← hresult]
    exact ⟨[], rfl, List.Pairwise.nil, by simp, by simp, by simp⟩

def glossary : Schema :=
  .object .fresh [
    ("title", string),
    ("terms", .array .fresh (some (.primitive .fresh .string [.nonEmpty, .minLength (.int 3)])))]

theorem built_glossary {rule : Schema -> Call -> Schema -> Prop}
    (hrule : forall s call t, rule s call t) : Built rule glossary := by
  have hfilled : Built rule (.primitive .fresh .string [.nonEmpty]) := by
    have happly : Call.apply (.refine .nonEmpty) string =
        .ok (.primitive .fresh .string [.nonEmpty]) := rfl
    exact .plain (.ofKind .string) rfl happly (hrule _ _ _)
  have hterm : Built rule (.primitive .fresh .string [.nonEmpty, .minLength (.int 3)]) := by
    have happly : Call.apply (.min (.int 3)) (.primitive .fresh .string [.nonEmpty]) =
        .ok (.primitive .fresh .string [.nonEmpty, .minLength (.int 3)]) := rfl
    exact .plain hfilled rfl happly (hrule _ _ _)
  have hterms : Built rule
      (.array .fresh (some (.primitive .fresh .string [.nonEmpty, .minLength (.int 3)]))) :=
    .array (fun _ => hterm) rfl
  exact .of_fields (List.forall_mem_cons.mpr ⟨.ofKind .string,
    List.forall_mem_singleton.mpr hterms⟩) rfl

theorem readableNames_glossary : Everywhere ReadableNames glossary := by
  have hnames : forall name, name ∈ ["title", "terms"] ->
      name ≠ "" ∧ '.' ∉ name.toList ∧ '[' ∉ name.toList := by
    decide
  refine Everywhere.object hnames ?_
  intro f hf
  simp only [List.mem_cons, List.not_mem_nil, or_false] at hf
  rcases hf with hf | hf <;> subst hf
  · exact Everywhere.leaf trivial (by simp [string, ofKind]) (by simp [string, ofKind])
  · exact Everywhere.array trivial (Everywhere.leaf trivial (by simp) (by simp))

theorem glossary_paths_identify_places :
    FieldPath.descend "" [.field "terms", .element 1] ≠
      FieldPath.descend "" [.field "terms", .element 11] ∧
    exists raw result, exists violations : List Violation,
      raw = .mapping [(.text "terms", .list [.text "", .null, .text "ab"])] ∧
      Built (fun _ _ _ => True) glossary ∧ Everywhere ReadableNames glossary ∧
      glossary.validate raw = .ok result ∧
      result.errors.map FieldError.text = [
        "title: MissingRequiredField: Missing required field 'title'",
        "terms[0]: ConstraintViolation(nonEmpty): Value must not be empty",
        "terms[0]: ConstraintViolation(minLength): Value must be at least 3 characters long",
        "terms[1]: TypeMismatch: Expected string, got null",
        "terms[2]: ConstraintViolation(minLength): Value must be at least 3 characters long"] ∧
      result.errors = violations.map Violation.error ∧
      (forall u v, u ∈ violations -> v ∈ violations ->
        (u.error.path = v.error.path <-> glossary.placeOf u.site = glossary.placeOf v.site)) ∧
      forall u, u ∈ violations ->
        (u.error.kind ≠ .constraintViolation ∧
          result.errors.filter (fun e => e.path == u.error.path) = [u.error]) ∨
        OfOneLeaf glossary raw (glossary.placeOf u.site)
          (result.errors.filter (fun e => e.path == u.error.path)) := by
  have hreadable (index : Nat) :
      forall step, step ∈ [FieldPath.Step.field "terms", .element index] -> step.IsReadable := by
    have hname : (FieldPath.Step.field "terms").IsReadable := ⟨by decide, by decide, by decide⟩
    exact List.forall_mem_cons.mpr ⟨hname, List.forall_mem_singleton.mpr trivial⟩
  refine ⟨fun h => ?_, ?_⟩
  · cases paths_identify_places.left _ _ (hreadable 1) (hreadable 11) h
  let raw : Value := .mapping [(.text "terms", .list [.text "", .null, .text "ab"])]
  have hbuilt : Built (fun _ _ _ => True) glossary := built_glossary (fun _ _ _ => trivial)
  have hresult : exists result, glossary.validate raw = .ok result ∧
      result.errors.map FieldError.text = [
        "title: MissingRequiredField: Missing required field 'title'",
        "terms[0]: ConstraintViolation(nonEmpty): Value must not be empty",
        "terms[0]: ConstraintViolation(minLength): Value must be at least 3 characters long",
        "terms[1]: TypeMismatch: Expected string, got null",
        "terms[2]: ConstraintViolation(minLength): Value must be at least 3 characters long"] := by
    refine ⟨_, by with_unfolding_all rfl, ?_⟩
    with_unfolding_all rfl
  rcases hresult with ⟨result, hresult, htexts⟩
  rcases paths_identify_places.right hbuilt readableNames_glossary hresult with
    ⟨violations, herrors, _hsorted, _hpaths, hplaces, hshared⟩
  exact ⟨raw, result, violations, rfl, hbuilt, readableNames_glossary, hresult, htexts, herrors,
    hplaces, hshared⟩

end Schema
end ContentSchema
