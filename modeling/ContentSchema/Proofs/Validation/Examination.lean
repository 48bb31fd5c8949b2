import ContentSchema.Proofs.Answer
import ContentSchema.Proofs.Entries
import ContentSchema.Proofs.Schema.Tree
import ContentSchema.Proofs.SideBySide
import ContentSchema.Proofs.Value
import ContentSchema.Validation.Result

/-!
# Examination

What the examination of a value comes to, one fact for each kind of schema.  A leaf reads a
value or does not, an object examines one field after the other, and an array one element
after the other; whatever is found below is put together in order.  Later proofs rest on
these facts and do not open the examination again.
-/

namespace ContentSchema

/-!
## Reading leaves

Truth values are no numbers, and a text is a date when it is written as one.
-/

/-- The raw value is accepted at leaves of the kind, and the typed value is what becomes of
it. -/
inductive PrimitiveKind.Reads : PrimitiveKind -> Value -> Value -> Prop
  | text (s : String) : Reads .string (.text s) (.text s)
  | int (n : Int) : Reads .number (.int n) (.int n)
  | float (x : Binary64) : Reads .number (.float x) (.float x)
  | bool (b : Bool) : Reads .boolean (.bool b) (.bool b)
  | date (d : Date) : Reads .date (.date d) (.date d)
  | moment (t : DateTime) : Reads .date (.dateTime t) (.dateTime t)
  | dateText {s : String} {v : Value} :
      Value.ofDateChars? s.toList = some v -> Reads .date (.text s) v

inductive PrimitiveKind.Holds : PrimitiveKind -> Value -> Prop
  | text (s : String) : Holds .string (.text s)
  | int (n : Int) : Holds .number (.int n)
  | float (x : Binary64) : Holds .number (.float x)
  | bool (b : Bool) : Holds .boolean (.bool b)
  | date (d : Date) : Holds .date (.date d)
  | moment (t : DateTime) : Holds .date (.dateTime t)

theorem Value.ofDateChars?_holds {cs : List Char} {v : Value}
    (h : Value.ofDateChars? cs = some v) : PrimitiveKind.Holds .date v := by
  unfold Value.ofDateChars? at h
  split at h
  · cases h
  · split at h
    · injection h with h
      rw [← h]
      exact .date _
    · rcases Option.map_eq_some_iff.mp h with ⟨t, _ht, hv⟩
      rw [← hv]
      exact .moment t

namespace PrimitiveKind

theorem Reads.holds {kind : PrimitiveKind} {raw typed : Value}
    (h : kind.Reads raw typed) : kind.Holds typed := by
  cases h with
  | text s => exact .text s
  | int n => exact .int n
  | float x => exact .float x
  | bool b => exact .bool b
  | date d => exact .date d
  | moment t => exact .moment t
  | dateText hs => exact Value.ofDateChars?_holds hs

theorem Holds.reads {kind : PrimitiveKind} {v : Value} (h : kind.Holds v) :
    kind.Reads v v := by
  cases h with
  | text s => exact .text s
  | int n => exact .int n
  | float x => exact .float x
  | bool b => exact .bool b
  | date d => exact .date d
  | moment t => exact .moment t

theorem Holds.ne_null {kind : PrimitiveKind} {v : Value} (h : kind.Holds v) :
    v ≠ .null := by
  cases h <;> simp

end PrimitiveKind

namespace Schema

@[simp] theorem coerce?_eq_some_iff {kind : PrimitiveKind} {raw typed : Value} :
    coerce? kind raw = some typed <-> kind.Reads raw typed := by
  constructor
  · intro h
    cases kind with
    | string =>
        cases raw <;> simp [coerce?] at h
        rw [← h]
        exact .text _
    | number =>
        cases raw <;> simp [coerce?] at h
        · rw [← h]
          exact .int _
        · rw [← h]
          exact .float _
    | boolean =>
        cases raw <;> simp [coerce?] at h
        rw [← h]
        exact .bool _
    | date =>
        cases raw <;> simp [coerce?, Value.toDate?] at h
        · exact .dateText h
        · rw [← h]
          exact .date _
        · rw [← h]
          exact .moment _
  · intro h
    cases h with
    | dateText hs => exact hs
    | _ => rfl

theorem reads_unique {kind : PrimitiveKind} {raw v w : Value}
    (hv : kind.Reads raw v) (hw : kind.Reads raw w) : v = w := by
  rw [← coerce?_eq_some_iff] at hv hw
  rw [hv] at hw
  injection hw

@[simp] theorem coerce?_eq_none_iff {kind : PrimitiveKind} {raw : Value} :
    coerce? kind raw = none <-> forall typed, ¬ kind.Reads raw typed := by
  simp only [← coerce?_eq_some_iff]
  cases coerce? kind raw <;> simp

/-!
## Errors

The errors that examination reports, as functions of what they are about.
-/

def mistyped (expected : String) (raw : Value) (path : String) : FieldError :=
  ⟨path, .typeMismatch, "Expected " ++ expected ++ ", got " ++ raw.authorTypeName, none, raw⟩

/-- The error of a raw value that is not of a primitive kind; texts that are no dates have a
message of their own. -/
def unread (kind : PrimitiveKind) (raw : Value) (path : String) : FieldError :=
  match kind, raw with
  | .date, .text s =>
      ⟨path, .typeMismatch, "Invalid date '" ++ s ++ "': use ISO-8601 (e.g. 2024-01-15)",
        none, raw⟩
  | _, _ => mistyped kind.name raw path

def unlisted (values : List Value) (t : String) (path : String) : FieldError :=
  ⟨path, .invalidEnumValue,
    "Invalid value " ++ (Value.text t).literal ++ "; allowed: " ++
      commaSeparated (values.map Value.plain), none, .text t⟩

@[simp] theorem uncoerced_eq {kind : PrimitiveKind} {raw : Value} {path : String} :
    uncoerced kind raw path = .problem (unread kind raw path) := by
  cases kind <;> cases raw <;> rfl

def failure (c : Constraint) (raw : Value) (path : String) : FieldError :=
  ⟨path, .constraintViolation, "Value " ++ c.description, some c.name, raw⟩

/-!
## Constraints

Every constraint is tested, and there is one problem for each that fails.
-/

theorem violations_cons {c : Constraint} {rest : List Constraint} {typed raw : Value}
    {path : String} {errors : List FieldError} :
    violations (c :: rest) typed raw path = .ok errors <->
      exists passed later, c.check typed = .ok passed ∧
        violations rest typed raw path = .ok later ∧
        errors = (if passed then [] else [failure c raw path]) ++ later := by
  simp only [violations, Answer.bind_eq_ok]
  constructor
  · intro h
    rcases h with ⟨passed, hpassed, later, hlater, h⟩
    refine ⟨passed, later, hpassed, hlater, ?_⟩
    cases passed with
    | true =>
        exact (Answer.pure_eq_ok.mp h).symm
    | false =>
        exact (Answer.pure_eq_ok.mp h).symm
  · intro h
    rcases h with ⟨passed, later, hpassed, hlater, herrors⟩
    refine ⟨passed, hpassed, later, hlater, ?_⟩
    rw [herrors]
    cases passed <;> rfl

theorem violations_eq_nil_iff {constraints : List Constraint} {typed raw : Value}
    {path : String} :
    violations constraints typed raw path = .ok [] <->
      forall c, c ∈ constraints -> c.check typed = .ok true := by
  induction constraints with
  | nil =>
      simp [violations]
  | cons c rest ih =>
      rw [violations_cons]
      constructor
      · intro h
        rcases h with ⟨passed, later, hpassed, hlater, herrors⟩
        rcases List.append_eq_nil_iff.mp herrors.symm with ⟨hfirst, hrest⟩
        rw [hrest] at hlater
        intro d hd
        rcases List.mem_cons.mp hd with hd | hd
        · cases passed with
          | true =>
              rw [hd]
              exact hpassed
          | false =>
              cases hfirst
        · exact ih.mp hlater d hd
      · intro h
        exact ⟨true, [], h c List.mem_cons_self,
          ih.mpr (fun d hd => h d (List.mem_cons_of_mem _ hd)), rfl⟩

theorem succeeds_violations_iff {constraints : List Constraint} {typed raw : Value}
    {path : String} :
    Answer.Succeeds (violations constraints typed raw path) <->
      forall c, c ∈ constraints -> Answer.Succeeds (c.check typed) := by
  induction constraints with
  | nil =>
      simp [violations, Answer.Succeeds]
  | cons c rest ih =>
      constructor
      · intro h
        rcases h with ⟨errors, herrors⟩
        rcases violations_cons.mp herrors with ⟨passed, later, hpassed, hlater, _⟩
        intro d hd
        rcases List.mem_cons.mp hd with hd | hd
        · rw [hd]
          exact ⟨passed, hpassed⟩
        · exact ih.mp ⟨later, hlater⟩ d hd
      · intro h
        rcases h c List.mem_cons_self with ⟨passed, hpassed⟩
        rcases ih.mpr (fun d hd => h d (List.mem_cons_of_mem _ hd)) with ⟨later, hlater⟩
        exact ⟨_, violations_cons.mpr ⟨passed, later, hpassed, hlater, rfl⟩⟩

/-!
## Entries of a mapping

A mapping holds a value for a field when the value stands under the name of the field and is
not null; otherwise the field is absent.
-/

def Held (entries : List (Value × Value)) (name : String) (raw : Value) : Prop :=
  Value.field? entries name = some raw ∧ raw ≠ .null

def Absent (entries : List (Value × Value)) (name : String) : Prop :=
  forall raw, ¬ Held entries name raw

@[simp] theorem candidate?_eq_some_iff {entries : List (Value × Value)} {name : String}
    {raw : Value} :
    candidate? entries name = some raw <-> Held entries name raw := by
  unfold candidate? Held
  cases hfound : Value.field? entries name with
  | none =>
      simp
  | some found =>
      cases found <;> simp <;> intro h <;> simp [← h]

@[simp] theorem candidate?_eq_none_iff {entries : List (Value × Value)} {name : String} :
    candidate? entries name = none <-> Absent entries name := by
  unfold Absent
  simp only [← candidate?_eq_some_iff]
  cases candidate? entries name <;> simp

theorem Held.unique {entries : List (Value × Value)} {name : String} {v w : Value}
    (hv : Held entries name v) (hw : Held entries name w) : v = w := by
  have h := hv.left.symm.trans hw.left
  injection h

theorem held_or_absent (entries : List (Value × Value)) (name : String) :
    (exists raw, Held entries name raw) ∨ Absent entries name := by
  cases h : candidate? entries name with
  | none =>
      exact Or.inr (candidate?_eq_none_iff.mp h)
  | some raw =>
      exact Or.inl ⟨raw, candidate?_eq_some_iff.mp h⟩

/-!
In a record with distinct names a field holds what was put under its name.
-/

theorem held_ofMembers {members : List (String × Value)} {m : String × Value}
    (hnames : (members.map Prod.fst).Nodup) (hm : m ∈ members) (hnull : m.2 ≠ .null) :
    Held (members.map (fun m => (.text m.1, m.2))) m.1 m.2 := by
  refine ⟨?_, hnull⟩
  rw [Value.field?_ofMembers]
  exact Entries.get?_of_mem hnames hm

theorem mem_of_held_ofMembers {members : List (String × Value)} {name : String} {v : Value}
    (h : Held (members.map (fun m => (.text m.1, m.2))) name v) : (name, v) ∈ members := by
  have hfield := h.left
  rw [Value.field?_ofMembers] at hfield
  exact Entries.mem_of_get? hfield

theorem absent_ofMembers {members : List (String × Value)} {name : String}
    (h : name ∉ members.map Prod.fst) :
    Absent (members.map (fun m => (.text m.1, m.2))) name := by
  intro v hheld
  exact h (List.mem_map.mpr ⟨_, mem_of_held_ofMembers hheld, rfl⟩)

theorem recordOf_of_nodup {members : List (String × Value)}
    (h : (members.map Prod.fst).Nodup) : recordOf members = .ofMembers members := by
  rw [recordOf, Entries.ofList_of_nodup h]
  rfl

/-!
## Fields

A field gives a part of the record and some problems.  The parts of all fields, in declared
order, make up the findings on the object.
-/

def examineField (entries : List (Value × Value)) (path : String) (f : String × Schema) :
    Answer (List (String × Value) × List FieldError) :=
  match candidate? entries f.1 with
  | some raw => do
      let found ← f.2.examine raw (FieldPath.joinField path f.1)
      return ([(f.1, found.value)], found.errors)
  | none =>
      if f.2.isRequired then
        .ok ([], [missingField (FieldPath.joinField path f.1) f.1])
      else .ok (f.2.fallback?.toList.map (fun v => (f.1, v)), [])

theorem exists_attributes {s : Schema} (h : s.isSchema = true) :
    exists a, s.attributes? = some a := by
  cases s <;> simp [isSchema, attributes?] at h ⊢

theorem examineFields_cons {f : String × Schema} {rest : List (String × Schema)}
    {entries : List (Value × Value)} {path : String} (hf : f.2.isSchema = true) :
    examineFields (f :: rest) entries path =
      (do
        let part ← examineField entries path f
        let later ← examineFields rest entries path
        return (part.1 ++ later.1, part.2 ++ later.2)) := by
  rcases exists_attributes hf with ⟨a, ha⟩
  cases hcandidate : candidate? entries f.1 with
  | some raw =>
      simp only [examineFields, examineField, ha, hcandidate]
      cases f.2.examine raw (FieldPath.joinField path f.1) <;> rfl
  | none =>
      have hisRequired := isRequired_of_attributes ha
      have hfallback? := fallback?_of_attributes ha
      simp only [examineFields, examineField, ha, hcandidate, hisRequired, hfallback?]
      cases a.isRequired <;> cases a.fallback <;> rfl

theorem examineFields_congr {fields : List (String × Schema)}
    {entries others : List (Value × Value)} {path : String}
    (hfields : forall f, f ∈ fields -> f.2.isSchema = true)
    (h : forall f, f ∈ fields -> examineField others path f = examineField entries path f) :
    examineFields fields others path = examineFields fields entries path := by
  induction fields with
  | nil =>
      rfl
  | cons f rest ih =>
      rcases List.forall_mem_cons.mp hfields with ⟨hf, hrest⟩
      rcases List.forall_mem_cons.mp h with ⟨hfield, hothers⟩
      rw [examineFields_cons hf, examineFields_cons hf, hfield, ih hrest hothers]

/-- What the examination of one field comes to. -/
inductive FieldPart (entries : List (Value × Value)) (path : String)
    (f : String × Schema) : List (String × Value) × List FieldError -> Prop
  | held {raw : Value} {found : Findings} :
      Held entries f.1 raw ->
      f.2.examine raw (FieldPath.joinField path f.1) = .ok found ->
      FieldPart entries path f ([(f.1, found.value)], found.errors)
  | missing :
      Absent entries f.1 -> f.2.isRequired = true ->
      FieldPart entries path f ([], [missingField (FieldPath.joinField path f.1) f.1])
  | filled {v : Value} :
      Absent entries f.1 -> f.2.fallback? = some v ->
      FieldPart entries path f ([(f.1, v)], [])
  | leftOut :
      Absent entries f.1 -> f.2.mayBeLeftOut = true ->
      FieldPart entries path f ([], [])

theorem examineField_eq_ok {f : String × Schema} {entries : List (Value × Value)}
    {path : String} {part : List (String × Value) × List FieldError} :
    examineField entries path f = .ok part <-> FieldPart entries path f part := by
  unfold examineField
  constructor
  · intro h
    cases hcandidate : candidate? entries f.1 with
    | some raw =>
        rw [hcandidate] at h
        rcases Answer.bind_eq_ok.mp h with ⟨found, hfound, h⟩
        rw [← Answer.pure_eq_ok.mp h]
        exact .held (candidate?_eq_some_iff.mp hcandidate) hfound
    | none =>
        have habsent := candidate?_eq_none_iff.mp hcandidate
        rw [hcandidate] at h
        by_cases hrequired : f.2.isRequired = true
        · simp only [if_pos hrequired] at h
          injection h with h
          rw [← h]
          exact .missing habsent hrequired
        · simp only [if_neg hrequired] at h
          injection h with h
          rw [← h]
          cases hfallback : f.2.fallback? with
          | none =>
              exact .leftOut habsent (by simp [mayBeLeftOut, hrequired, hfallback])
          | some v =>
              exact .filled habsent hfallback
  · intro h
    cases h with
    | held hheld hfound =>
        rw [candidate?_eq_some_iff.mpr hheld]
        exact Answer.bind_eq_ok.mpr ⟨_, hfound, rfl⟩
    | missing habsent hrequired =>
        simp [candidate?_eq_none_iff.mpr habsent, hrequired]
    | filled habsent hfallback =>
        have hrequired : f.2.isRequired = false := by
          cases hreq : f.2.isRequired with
          | false => rfl
          | true => simp [fallback?_of_required hreq] at hfallback
        simp [candidate?_eq_none_iff.mpr habsent, hrequired, hfallback]
    | leftOut habsent hleft =>
        simp [mayBeLeftOut] at hleft
        simp [candidate?_eq_none_iff.mpr habsent, hleft.left, hleft.right]

theorem FieldPart.of_held {entries : List (Value × Value)} {path : String}
    {f : String × Schema} {part : List (String × Value) × List FieldError} {raw : Value}
    (h : FieldPart entries path f part) (hheld : Held entries f.1 raw) :
    exists found, f.2.examine raw (FieldPath.joinField path f.1) = .ok found ∧
      part = ([(f.1, found.value)], found.errors) := by
  cases h with
  | held hother hfound =>
      rw [hheld.unique hother]
      exact ⟨_, hfound, rfl⟩
  | missing habsent _ =>
      exact absurd hheld (habsent raw)
  | filled habsent _ =>
      exact absurd hheld (habsent raw)
  | leftOut habsent _ =>
      exact absurd hheld (habsent raw)

theorem areSchemas_of_examineFields {fields : List (String × Schema)}
    {entries : List (Value × Value)} {path : String}
    {r : List (String × Value) × List FieldError}
    (h : examineFields fields entries path = .ok r) :
    forall f, f ∈ fields -> f.2.isSchema = true := by
  induction fields generalizing r with
  | nil =>
      exact fun _f hf => absurd hf List.not_mem_nil
  | cons f rest ih =>
      cases hf : f.2.isSchema with
      | false =>
          have hnone : f.2.attributes? = none := by
            cases hs : f.2 <;> simp [hs, isSchema] at hf
            rfl
          simp only [examineFields, hnone] at h
          cases h
      | true =>
          rw [examineFields_cons hf] at h
          rcases Answer.bind_eq_ok.mp h with ⟨part, _hpart, h⟩
          rcases Answer.bind_eq_ok.mp h with ⟨later, hlater, _h⟩
          exact List.forall_mem_cons.mpr ⟨hf, ih hlater⟩

theorem examineFields_eq_ok {fields : List (String × Schema)}
    {entries : List (Value × Value)} {path : String}
    {r : List (String × Value) × List FieldError}
    (hfields : forall f, f ∈ fields -> f.2.isSchema = true) :
    examineFields fields entries path = .ok r <->
      exists parts, List.Forall₂ (FieldPart entries path) fields parts ∧
        r = (parts.flatMap Prod.fst, parts.flatMap Prod.snd) := by
  induction fields generalizing r with
  | nil =>
      simp [examineFields, eq_comm]
  | cons f rest ih =>
      have hrest : forall g, g ∈ rest -> g.2.isSchema = true :=
        fun g hg => hfields g (List.mem_cons_of_mem _ hg)
      rw [examineFields_cons (hfields f List.mem_cons_self)]
      simp only [Answer.bind_eq_ok, Answer.pure_eq_ok, examineField_eq_ok]
      constructor
      · intro h
        rcases h with ⟨part, hpart, later, hlater, hr⟩
        rcases (ih hrest).mp hlater with ⟨parts, hparts, hlaterEq⟩
        refine ⟨part :: parts, List.Forall₂.cons hpart hparts, ?_⟩
        rw [← hr, hlaterEq]
        rfl
      · intro h
        rcases h with ⟨parts, hparts, hr⟩
        cases hparts with
        | cons hpart hparts =>
            exact ⟨_, hpart, _, (ih hrest).mpr ⟨_, hparts, rfl⟩, hr.symm⟩

/-!
## Elements

Elements are examined with their index in the path, which counts from the given number.
-/

theorem examineItems_eq_ok {examine : Value -> String -> Answer Findings} {path : String}
    {index : Nat} {items : List Value} {r : List Value × List FieldError} :
    examineItems examine path index items = .ok r <->
      exists parts : List Findings,
        List.Forall₂ (fun item part =>
          examine item.1 (FieldPath.joinIndex path item.2) = .ok part)
          (items.zipIdx index) parts ∧
        r = (parts.map Findings.value, parts.flatMap Findings.errors) := by
  induction items generalizing index r with
  | nil =>
      simp [examineItems, eq_comm]
  | cons item rest ih =>
      simp only [examineItems, Answer.bind_eq_ok, Answer.pure_eq_ok, ih, List.zipIdx_cons]
      constructor
      · intro h
        rcases h with ⟨found, hfound, later, ⟨parts, hparts, hlater⟩, hr⟩
        refine ⟨found :: parts, List.Forall₂.cons hfound hparts, ?_⟩
        rw [← hr, hlater]
        rfl
      · intro h
        rcases h with ⟨parts, hparts, hr⟩
        cases hparts with
        | cons hpart hparts =>
            exact ⟨_, hpart, _, ⟨_, hparts, rfl⟩, hr.symm⟩

/-!
## Whole schemas

One fact for each kind of schema and each way in which a raw value can meet it.
-/

variable {a : Attributes} {raw : Value} {path : String} {found : Findings}

theorem examine_primitive_read {kind : PrimitiveKind} {constraints : List Constraint}
    {typed : Value} (h : kind.Reads raw typed) :
    examine (.primitive a kind constraints) raw path = .ok found <->
      exists errors, violations constraints typed raw path = .ok errors ∧
        found = ⟨typed, errors⟩ := by
  have hcoerce := coerce?_eq_some_iff.mpr h
  simp [examine, examinePrimitive, hcoerce, eq_comm (a := found)]

theorem examine_primitive_unread {kind : PrimitiveKind} {constraints : List Constraint}
    (h : forall typed, ¬ kind.Reads raw typed) :
    examine (.primitive a kind constraints) raw path =
      .ok (.problem (unread kind raw path)) := by
  have hcoerce := coerce?_eq_none_iff.mpr h
  simp [examine, examinePrimitive, hcoerce]

@[simp] theorem contains_text_iff {values : List Value} {t : String} :
    values.contains (.text t) = true <-> .text t ∈ values := by
  simp [List.contains_iff_exists_mem_beq]

@[simp] theorem listedTexts_eq_ok {values : List Value} {texts : List String} :
    listedTexts values = .ok texts <-> values = texts.map Value.text := by
  unfold listedTexts
  induction values generalizing texts with
  | nil =>
      rw [List.mapM_nil, Answer.pure_eq_ok]
      cases texts <;> simp
  | cons v rest ih =>
      simp only [List.mapM_cons, Answer.bind_eq_ok, Answer.orFault_eq_ok, Answer.pure_eq_ok, ih]
      constructor
      · intro h
        rcases h with ⟨t, hv, others, hothers, htexts⟩
        rw [← htexts, hothers, List.map_cons, Value.text?_eq_some_iff.mp hv]
      · intro h
        cases texts with
        | nil =>
            cases h
        | cons t others =>
            injection h with hv hrest
            exact ⟨t, by rw [hv]; rfl, others, hrest, rfl⟩

theorem listedTexts_eq_error {values : List Value} {fault : Fault}
    (h : listedTexts values = .error fault) :
    fault = .wrongType ∧ exists v, v ∈ values ∧ v.text? = none := by
  unfold listedTexts at h
  induction values with
  | nil =>
      cases h
  | cons v rest ih =>
      rw [List.mapM_cons] at h
      rcases Answer.bind_eq_error.mp h with h | ⟨t, _ht, h⟩
      · rcases Answer.orFault_eq_error.mp h with ⟨hv, hfault⟩
        exact ⟨hfault, v, List.mem_cons_self, hv⟩
      rcases Answer.bind_eq_error.mp h with h | ⟨others, _hothers, h⟩
      · rcases ih h with ⟨hfault, w, hw, hnone⟩
        exact ⟨hfault, w, List.mem_cons_of_mem _ hw, hnone⟩
      · cases h

theorem examine_listed {values : List Value} {t : String} (h : .text t ∈ values) :
    examine (.enumeration a values) (.text t) path = .ok (.clean (.text t)) := by
  simp only [examine, examineEnumeration, if_pos (contains_text_iff.mpr h)]

theorem examine_unlisted {values : List Value} {t : String} (h : .text t ∉ values)
    (hfound : examine (.enumeration a values) (.text t) path = .ok found) :
    (.ok (.problem (unlisted values t path)) : Answer Findings) = .ok found := by
  have hcontains : ¬ values.contains (.text t) = true := by
    rw [contains_text_iff]
    exact h
  simp only [examine, examineEnumeration, if_neg hcontains, Answer.bind_eq_ok,
    Answer.pure_eq_ok] at hfound
  rcases hfound with ⟨texts, htexts, hfound⟩
  have hplain : values.map Value.plain = texts := by
    rw [listedTexts_eq_ok.mp htexts, List.map_map]
    exact List.map_id' texts
  rw [← hfound, unlisted, hplain]

theorem examine_enumeration_other {values : List Value} (h : forall t, raw ≠ .text t) :
    examine (.enumeration a values) raw path =
      .ok (.problem (mistyped "string" raw path)) := by
  cases raw with
  | text t =>
      exact absurd rfl (h t)
  | _ =>
      rfl

theorem examine_mapping {fields : List (String × Schema)} {entries : List (Value × Value)}
    (hfields : forall f, f ∈ fields -> f.2.isSchema = true) :
    examine (.object a fields) (.mapping entries) path = .ok found <->
      exists parts, List.Forall₂ (FieldPart entries path) fields parts ∧
        found = ⟨recordOf (parts.flatMap Prod.fst), parts.flatMap Prod.snd⟩ := by
  simp [examine, examineFields_eq_ok hfields, eq_comm (a := found)]

theorem examine_object_other {fields : List (String × Schema)}
    (h : forall entries, raw ≠ .mapping entries) :
    examine (.object a fields) raw path = .ok (.problem (mistyped "object" raw path)) := by
  cases raw with
  | mapping entries =>
      exact absurd rfl (h entries)
  | _ =>
      simp only [examine]
      rfl

theorem examine_sequence {element : Schema} {items : List Value}
    (h : sequenceItems? raw = some items) :
    examine (.array a (some element)) raw path = .ok found <->
      exists parts : List Findings,
        List.Forall₂ (fun item part =>
          element.examine item.1 (FieldPath.joinIndex path item.2) = .ok part)
          items.zipIdx parts ∧
        found = ⟨.tuple (parts.map Findings.value), parts.flatMap Findings.errors⟩ := by
  simp [examine, h, examineItems_eq_ok, eq_comm (a := found)]

theorem examine_array_other {element : Schema} (h : sequenceItems? raw = none) :
    examine (.array a (some element)) raw path =
      .ok (.problem (mistyped "array" raw path)) := by
  simp only [examine, h]
  rfl

/-!
One fact for all of them: how an examination goes that comes to findings.
-/

inductive Examined : Schema -> Value -> String -> Findings -> Prop
  | read {a : Attributes} {kind : PrimitiveKind} {constraints : List Constraint} {raw typed : Value}
      {path : String} {errors : List FieldError} :
      kind.Reads raw typed -> violations constraints typed raw path = .ok errors ->
      Examined (.primitive a kind constraints) raw path ⟨typed, errors⟩
  | unread {a : Attributes} {kind : PrimitiveKind} {constraints : List Constraint} {raw : Value}
      {path : String} :
      (forall typed, ¬ kind.Reads raw typed) ->
      Examined (.primitive a kind constraints) raw path (.problem (Schema.unread kind raw path))
  | listed {a : Attributes} {values : List Value} {t path : String} :
      .text t ∈ values -> Examined (.enumeration a values) (.text t) path (.clean (.text t))
  | unlisted {a : Attributes} {values : List Value} {t path : String} :
      .text t ∉ values ->
      Examined (.enumeration a values) (.text t) path (.problem (Schema.unlisted values t path))
  | noText {a : Attributes} {values : List Value} {raw : Value} {path : String} :
      (forall t, raw ≠ .text t) ->
      Examined (.enumeration a values) raw path (.problem (mistyped "string" raw path))
  | mapping {a : Attributes} {fields : List (String × Schema)} {entries : List (Value × Value)}
      {path : String} {parts : List (List (String × Value) × List FieldError)} :
      List.Forall₂ (FieldPart entries path) fields parts ->
      Examined (.object a fields) (.mapping entries) path
        ⟨recordOf (parts.flatMap Prod.fst), parts.flatMap Prod.snd⟩
  | noMapping {a : Attributes} {fields : List (String × Schema)} {raw : Value} {path : String} :
      (forall entries, raw ≠ .mapping entries) ->
      Examined (.object a fields) raw path (.problem (mistyped "object" raw path))
  | sequence {a : Attributes} {element : Schema} {raw : Value} {path : String}
      {items : List Value} {parts : List Findings} :
      sequenceItems? raw = some items ->
      List.Forall₂ (fun item part =>
        element.examine item.1 (FieldPath.joinIndex path item.2) = .ok part) items.zipIdx parts ->
      Examined (.array a (some element)) raw path
        ⟨.tuple (parts.map Findings.value), parts.flatMap Findings.errors⟩
  | noSequence {a : Attributes} {element : Schema} {raw : Value} {path : String} :
      sequenceItems? raw = none ->
      Examined (.array a (some element)) raw path (.problem (mistyped "array" raw path))

theorem examined_of_examine {s : Schema} (h : s.examine raw path = .ok found) :
    Examined s raw path found := by
  cases s with
  | primitive a kind constraints =>
      cases hcoerce : coerce? kind raw with
      | none =>
          have hunread := coerce?_eq_none_iff.mp hcoerce
          rw [examine_primitive_unread hunread] at h
          cases h
          exact .unread hunread
      | some typed =>
          have hreads := coerce?_eq_some_iff.mp hcoerce
          rcases (examine_primitive_read hreads).mp h with ⟨errors, herrors, hfound⟩
          rw [hfound]
          exact .read hreads herrors
  | enumeration a values =>
      by_cases htext : exists t, raw = .text t
      · rcases htext with ⟨t, hraw⟩
        subst hraw
        by_cases hlisted : .text t ∈ values
        · rw [examine_listed hlisted] at h
          cases h
          exact .listed hlisted
        · cases examine_unlisted hlisted h
          exact .unlisted hlisted
      · rw [examine_enumeration_other (not_exists.mp htext)] at h
        cases h
        exact .noText (not_exists.mp htext)
  | object a fields =>
      by_cases hmapping : exists entries, raw = .mapping entries
      · rcases hmapping with ⟨entries, hraw⟩
        subst hraw
        rcases Answer.bind_eq_ok.mp h with ⟨r, hr, _h⟩
        rcases (examine_mapping (areSchemas_of_examineFields hr)).mp h with ⟨parts, hparts, hfound⟩
        rw [hfound]
        exact .mapping hparts
      · rw [examine_object_other (not_exists.mp hmapping)] at h
        cases h
        exact .noMapping (not_exists.mp hmapping)
  | array a element =>
      cases element with
      | none =>
          cases h
      | some element =>
          cases hitems : sequenceItems? raw with
          | none =>
              rw [examine_array_other hitems] at h
              cases h
              exact .noSequence hitems
          | some items =>
              rcases (examine_sequence hitems).mp h with ⟨parts, hparts, hfound⟩
              rw [hfound]
              exact .sequence hitems hparts
  | bare a =>
      cases h
  | foreign v =>
      cases h

/-!
## Results

Findings become a result: the value if there are no problems, and the problems alone if
there are some.
-/

end Schema

namespace Findings

def result (found : Findings) : ValidationResult :=
  if found.errors.isEmpty then .accepted found.value else ⟨.null, found.errors⟩

@[simp] theorem result_errors (found : Findings) : found.result.errors = found.errors := by
  cases hempty : found.errors.isEmpty with
  | true =>
      simp [result, ValidationResult.accepted, List.isEmpty_iff.mp hempty]
  | false =>
      simp [result, hempty]

theorem result_of_clean {found : Findings} (h : found.errors = []) :
    found.result = .accepted found.value := by
  simp [result, h]

theorem result_of_problems {found : Findings} (h : found.errors ≠ []) :
    found.result = ⟨.null, found.errors⟩ := by
  simp [result, h]

end Findings

namespace Schema

theorem validate_eq {s : Schema} {raw : Value} (hs : s.isSchema = true)
    (h : raw ≠ .null ∨ s.isRequired = true) :
    s.validate raw = (s.examine raw "").map Findings.result := by
  rcases exists_attributes hs with ⟨a, ha⟩
  have hexamined : (raw.isNull && !a.isRequired) = false := by
    rcases h with h | h
    · cases raw <;> simp [Value.isNull] at h ⊢
    · rw [isRequired_of_attributes ha] at h
      simp [h]
  simp only [validate, ha, hexamined]
  cases s.examine raw "" with
  | error fault =>
      rfl
  | ok found =>
      cases hempty : found.errors.isEmpty with
      | true =>
          simp only [Except.map, Findings.result, hempty]
          simp [bind, Except.bind, hempty, pure, Except.pure]
      | false =>
          simp only [Except.map, Findings.result, hempty]
          simp [bind, Except.bind, hempty, pure, Except.pure]

theorem validate_eq_ok {s : Schema} {raw : Value} {result : ValidationResult}
    (hs : s.isSchema = true) (h : raw ≠ .null ∨ s.isRequired = true) :
    s.validate raw = .ok result <->
      exists found, s.examine raw "" = .ok found ∧ result = found.result := by
  rw [validate_eq hs h]
  cases s.examine raw "" <;> simp [Except.map, eq_comm]

theorem validate_null {s : Schema} (hs : s.isSchema = true) (h : s.isRequired = false) :
    s.validate .null = .ok (.accepted (s.fallback?.getD .null)) := by
  rcases exists_attributes hs with ⟨a, ha⟩
  rw [isRequired_of_attributes ha] at h
  simp [validate, ha, h, Value.isNull, fallback?_of_attributes ha]

end Schema
end ContentSchema
