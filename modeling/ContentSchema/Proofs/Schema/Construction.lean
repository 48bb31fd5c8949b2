import ContentSchema.Proofs.Answer
import ContentSchema.Proofs.Schema.Tree
import ContentSchema.Schema.Builders
import Mathlib.Data.List.Nodup

/-!
# Construction of schemas

Schemas are made by builders and then changed by calls of combinators.  This module names the
calls, says once what a call can do to a schema, and defines the schemas that builders and
calls make.  What is proved about such schemas goes by induction over their construction and
looks at the effects only, never at the combinators themselves.
-/

namespace ContentSchema

theorem Constraint.matching_eq_ok {pattern : String} {c : Constraint} :
    matching pattern = .ok c <->
      exists tree, Pattern.compile pattern = .ok tree ∧
        c = onText "matches" ("must match pattern " ++ Text.quoted pattern)
          (.matching tree) [("pattern", .text pattern)] := by
  simp [Constraint.matching, eq_comm (a := c)]

namespace Schema

/-!
## Calls
-/

/-- A call of a combinator with its arguments. -/
inductive Call
  | optional
  | required
  | withDefault (v : Value)
  | withMetadata (additions : List (Value × Value))
  | editor (hints : List (Value × Value))
  | describe (text : Value)
  | refine (c : Constraint)
  | min (bound : Value)
  | max (bound : Value)
  | length (bound : Value)
  | matching (pattern : String)
  | extend (entries : List FieldEntry)
  | pick (names : List Value)
  | without (names : List Value)
  | getField (name : Value)
  | getElement

namespace Call

def apply (call : Call) (s : Schema) : Answer Schema :=
  match call with
  | optional => s.optional
  | required => s.required
  | withDefault v => s.withDefault v
  | withMetadata additions => s.withMetadata additions
  | editor hints => s.editor hints
  | describe text => s.describe text
  | refine c => s.refine c
  | min bound => s.min bound
  | max bound => s.max bound
  | length bound => s.length bound
  | matching pattern => s.matching pattern
  | extend entries => s.extend entries
  | pick names => s.pick names
  | without names => s.without names
  | getField name => s.getField name
  | getElement => s.getElement

def entries : Call -> List FieldEntry
  | extend entries => entries
  | _ => []

/-- The call yields a schema from below instead of a changed one. -/
def selects : Call -> Bool
  | getField _ => true
  | getElement => true
  | _ => false

end Call

def applyAll (calls : List Call) (s : Schema) : Answer Schema :=
  calls.foldlM (fun t call => call.apply t) s

/-!
## What a call can do

Constraints are only ever added at the end, fields are added behind the others or dropped,
and the fallback value is kept, given up or replaced by a freshly validated one.
-/

/-- The call may attach the constraint.  A bound on the length of texts is a whole number, a
bound on numbers is kept as it is given. -/
inductive Call.Attaches : Call -> Constraint -> Prop
  | refine (c : Constraint) : Attaches (.refine c) c
  | minLength (bound : Value) (n : Int) : Attaches (.min bound) (.minLength (.int n))
  | maxLength (bound : Value) (n : Int) : Attaches (.max bound) (.maxLength (.int n))
  | exactLength (bound : Value) (n : Int) : Attaches (.length bound) (.exactLength (.int n))
  | atLeast (bound : Value) : Attaches (.min bound) (.atLeast bound)
  | atMost (bound : Value) : Attaches (.max bound) (.atMost bound)
  | matching {pattern : String} {c : Constraint} :
      Constraint.matching pattern = .ok c -> Attaches (.matching pattern) c

inductive Effect (call : Call) (s : Schema) : Schema -> Prop
  | annotated {a b : Attributes} :
      s.attributes? = some a -> b.fallback = a.fallback ->
      Effect call s (s.withAttributes b)
  | cleared {a b : Attributes} :
      call = .required -> s.attributes? = some a -> b.fallback = none ->
      Effect call s (s.withAttributes b)
  | defaulted {a : Attributes} {strict : Schema} {v : Value} {result : ValidationResult} :
      call = .withDefault v -> s.attributes? = some a -> s.required = .ok strict ->
      strict.validate v = .ok result -> result.ok = true ->
      Effect call s (s.withAttributes { a with fallback := some result.value })
  | refined {a : Attributes} {kind : PrimitiveKind} {constraints : List Constraint}
      {c : Constraint} :
      s = .primitive a kind constraints -> call.Attaches c ->
      c.appliesTo.contains kind.name = true ->
      Effect call s (.primitive a kind (constraints ++ [c]))
  | extended {a : Attributes} {fields additions : List (String × Schema)} :
      call.selects = false -> s = .object a fields -> fieldsOf call.entries = .ok additions ->
      clash? fields additions = none ->
      Effect call s (.object a (fields ++ additions))
  | narrowed {a : Attributes} {fields : List (String × Schema)}
      {keep : String × Schema -> Bool} :
      call.selects = false -> s = .object a fields ->
      Effect call s (.object a (fields.filter keep))
  | field {a : Attributes} {fields : List (String × Schema)} {f : String × Schema} :
      call.selects = true -> s = .object a fields -> f ∈ fields ->
      Effect call s f.2
  | element {a : Attributes} {element : Schema} :
      call.selects = true -> s = .array a (some element) ->
      Effect call s element

@[simp] theorem mapAttributes_eq_ok {f : Attributes -> Attributes} {s t : Schema} :
    s.mapAttributes f = .ok t <->
      exists a, s.attributes? = some a ∧ t = s.withAttributes (f a) := by
  unfold mapAttributes
  cases ha : s.attributes? with
  | none =>
      simp
  | some a =>
      simp [eq_comm]

theorem withDefault_eq_ok {s t : Schema} {v : Value} :
    s.withDefault v = .ok t <->
      exists a strict result, s.attributes? = some a ∧ s.required = .ok strict ∧
        strict.validate v = .ok result ∧ result.ok = true ∧
        t = s.withAttributes { a with fallback := some result.value } := by
  unfold withDefault
  simp only [Answer.bind_eq_ok]
  constructor
  · intro h
    rcases h with ⟨strict, hstrict, result, hresult, h⟩
    by_cases hok : result.ok = true
    · rw [if_pos hok] at h
      rcases mapAttributes_eq_ok.mp h with ⟨a, ha, ht⟩
      exact ⟨a, strict, result, ha, hstrict, hresult, hok, ht⟩
    · rw [if_neg hok] at h
      exact absurd h Answer.refuse_ne_ok
  · intro h
    rcases h with ⟨a, strict, result, ha, hstrict, hresult, hok, ht⟩
    refine ⟨strict, hstrict, result, hresult, ?_⟩
    rw [if_pos hok]
    exact mapAttributes_eq_ok.mpr ⟨a, ha, ht⟩

theorem refine_eq_ok {s t : Schema} {c : Constraint} :
    s.refine c = .ok t <->
      exists a kind constraints, s = .primitive a kind constraints ∧
        c.appliesTo.contains kind.name = true ∧
        t = .primitive a kind (constraints ++ [c]) := by
  cases s with
  | primitive a kind constraints =>
      simp only [refine, Answer.ite_refuse_eq_ok]
      constructor
      · intro h
        exact ⟨a, kind, constraints, rfl, h⟩
      · intro h
        rcases h with ⟨a', kind', constraints', hs, h⟩
        injection hs with ha hkind hconstraints
        subst ha hkind hconstraints
        exact h
  | _ =>
      simp [refine, refuse]

theorem extend_eq_ok {s t : Schema} {entries : List FieldEntry} :
    s.extend entries = .ok t <->
      exists a fields additions, s = .object a fields ∧ fieldsOf entries = .ok additions ∧
        clash? fields additions = none ∧ t = .object a (fields ++ additions) := by
  cases s with
  | object a fields =>
      simp only [extend, Answer.bind_eq_ok]
      constructor
      · intro h
        rcases h with ⟨additions, hadditions, h⟩
        cases hclash : clash? fields additions with
        | none =>
            rw [hclash] at h
            exact ⟨a, fields, additions, rfl, hadditions, hclash,
              (Answer.pure_eq_ok.mp h).symm⟩
        | some name =>
            rw [hclash] at h
            exact absurd h Answer.refuse_ne_ok
      · intro h
        rcases h with ⟨a', fields', additions, hs, hadditions, hclash, ht⟩
        injection hs with ha hfields
        subst ha hfields ht
        refine ⟨additions, hadditions, ?_⟩
        rw [hclash]
        rfl
  | _ =>
      simp [extend]

theorem pick_eq_ok {s t : Schema} {names : List Value} :
    s.pick names = .ok t <->
      exists a fields, s = .object a fields ∧ (unknownNames fields names).isEmpty = true ∧
        t = .object a (fields.filter (isNamed names)) := by
  cases s with
  | object a fields =>
      simp only [pick, Answer.ite_refuse_eq_ok]
      constructor
      · intro h
        exact ⟨a, fields, rfl, h⟩
      · intro h
        rcases h with ⟨a', fields', hs, h⟩
        injection hs with ha hfields
        subst ha hfields
        exact h
  | _ =>
      simp [pick]

theorem without_eq_ok {s t : Schema} {names : List Value} :
    s.without names = .ok t <->
      exists a fields, s = .object a fields ∧ (unknownNames fields names).isEmpty = true ∧
        t = .object a (fields.filter (fun f => !isNamed names f)) := by
  cases s with
  | object a fields =>
      simp only [without, Answer.ite_refuse_eq_ok]
      constructor
      · intro h
        exact ⟨a, fields, rfl, h⟩
      · intro h
        rcases h with ⟨a', fields', hs, h⟩
        injection hs with ha hfields
        subst ha hfields
        exact h
  | _ =>
      simp [without]

theorem getField_eq_ok {s t : Schema} {name : Value} (h : s.getField name = .ok t) :
    exists a fields f, s = .object a fields ∧ f ∈ fields ∧ t = f.2 := by
  cases s with
  | object a fields =>
      simp only [getField] at h
      cases hfound : fields.find? (fun f => Value.same name (.text f.1)) with
      | none =>
          rw [hfound] at h
          cases h
      | some f =>
          rw [hfound] at h
          injection h with h
          exact ⟨a, fields, f, rfl, List.mem_of_find?_eq_some hfound, h.symm⟩
  | _ =>
      cases h

theorem getElement_eq_ok {s t : Schema} (h : s.getElement = .ok t) :
    exists a, s = .array a (some t) := by
  cases s with
  | array a element =>
      cases element with
      | none =>
          cases h
      | some element =>
          injection h with h
          exact ⟨a, by rw [h]⟩
  | _ =>
      cases h

theorem lengthBound_eq_ok {combinator : String} {bound v : Value}
    (h : lengthBound combinator bound = .ok v) :
    exists n : Int, 0 <= n ∧ v = .int n := by
  cases bound with
  | int n =>
      by_cases hn : n < 0
      · rw [lengthBound, if_pos hn] at h
        exact absurd h Answer.refuse_ne_ok
      · rw [lengthBound, if_neg hn] at h
        injection h with h
        exact ⟨n, by omega, h.symm⟩
  | float x =>
      by_cases hwhole : (!x.isWhole) = true
      · rw [lengthBound, if_pos hwhole] at h
        exact absurd h Answer.refuse_ne_ok
      · rw [lengthBound, if_neg hwhole] at h
        by_cases hn : x.truncate < 0
        · rw [if_pos hn] at h
          exact absurd h Answer.refuse_ne_ok
        · rw [if_neg hn] at h
          injection h with h
          exact ⟨x.truncate, by omega, h.symm⟩
  | _ =>
      cases h

theorem refine_of_min {s t : Schema} {bound : Value} (h : s.min bound = .ok t) :
    exists c, s.refine c = .ok t ∧ Call.Attaches (.min bound) c := by
  cases s with
  | primitive a kind constraints =>
      cases kind with
      | string =>
          rcases Answer.bind_eq_ok.mp h with ⟨v, hv, h⟩
          rcases lengthBound_eq_ok hv with ⟨n, _hn, hvn⟩
          rw [hvn] at h
          exact ⟨_, h, .minLength bound n⟩
      | number =>
          exact ⟨.atLeast bound, h, .atLeast bound⟩
      | _ =>
          cases h
  | _ =>
      cases h

theorem refine_of_max {s t : Schema} {bound : Value} (h : s.max bound = .ok t) :
    exists c, s.refine c = .ok t ∧ Call.Attaches (.max bound) c := by
  cases s with
  | primitive a kind constraints =>
      cases kind with
      | string =>
          rcases Answer.bind_eq_ok.mp h with ⟨v, hv, h⟩
          rcases lengthBound_eq_ok hv with ⟨n, _hn, hvn⟩
          rw [hvn] at h
          exact ⟨_, h, .maxLength bound n⟩
      | number =>
          exact ⟨.atMost bound, h, .atMost bound⟩
      | _ =>
          cases h
  | _ =>
      cases h

theorem refine_of_length {s t : Schema} {bound : Value} (h : s.length bound = .ok t) :
    exists c, s.refine c = .ok t ∧ Call.Attaches (.length bound) c := by
  cases s with
  | foreign v =>
      cases h
  | _ =>
      rcases Answer.bind_eq_ok.mp h with ⟨v, hv, h⟩
      rcases lengthBound_eq_ok hv with ⟨n, _hn, hvn⟩
      rw [hvn] at h
      exact ⟨_, h, .exactLength bound n⟩

theorem refine_of_matching {s t : Schema} {pattern : String} (h : s.matching pattern = .ok t) :
    exists c, s.refine c = .ok t ∧ Call.Attaches (.matching pattern) c := by
  rcases Answer.bind_eq_ok.mp h with ⟨c, hpattern, h⟩
  exact ⟨c, h, .matching hpattern⟩

theorem withMetadata_of_editor {s t : Schema} {hints : List (Value × Value)}
    (h : s.editor hints = .ok t) : exists additions, s.withMetadata additions = .ok t := by
  rcases Answer.bind_eq_ok.mp h with ⟨a, _ha, h⟩
  rcases Answer.bind_eq_ok.mp h with ⟨current, _hcurrent, h⟩
  exact ⟨_, h⟩

/-!
## Effects
-/

theorem apply_effect {call : Call} {s t : Schema} (h : call.apply s = .ok t) :
    Effect call s t := by
  have hrefine {c : Constraint} (hattaches : call.Attaches c) (hc : s.refine c = .ok t) :
      Effect call s t := by
    rcases refine_eq_ok.mp hc with ⟨a, kind, constraints, hs, happlies, ht⟩
    rw [ht]
    exact Effect.refined hs hattaches happlies
  have hannotate {f : Attributes -> Attributes} (ht : s.mapAttributes f = .ok t)
      (hf : forall a, (f a).fallback = a.fallback) : Effect call s t := by
    rcases mapAttributes_eq_ok.mp ht with ⟨a, ha, ht⟩
    rw [ht]
    exact Effect.annotated ha (hf a)
  cases call with
  | optional =>
      exact hannotate h (fun _ => rfl)
  | required =>
      rcases mapAttributes_eq_ok.mp h with ⟨a, ha, ht⟩
      rw [ht]
      exact Effect.cleared rfl ha rfl
  | withDefault v =>
      rcases withDefault_eq_ok.mp h with ⟨a, strict, result, ha, hstrict, hresult, hok, ht⟩
      rw [ht]
      exact Effect.defaulted rfl ha hstrict hresult hok
  | withMetadata additions =>
      exact hannotate h (fun _ => rfl)
  | editor hints =>
      rcases withMetadata_of_editor h with ⟨additions, h⟩
      exact hannotate h (fun _ => rfl)
  | describe text =>
      exact hannotate h (fun _ => rfl)
  | refine c =>
      exact hrefine (.refine c) h
  | min bound =>
      rcases refine_of_min h with ⟨c, hc, hattaches⟩
      exact hrefine hattaches hc
  | max bound =>
      rcases refine_of_max h with ⟨c, hc, hattaches⟩
      exact hrefine hattaches hc
  | length bound =>
      rcases refine_of_length h with ⟨c, hc, hattaches⟩
      exact hrefine hattaches hc
  | matching pattern =>
      rcases refine_of_matching h with ⟨c, hc, hattaches⟩
      exact hrefine hattaches hc
  | extend entries =>
      rcases extend_eq_ok.mp h with ⟨a, fields, additions, hs, hadditions, hclash, ht⟩
      rw [ht]
      exact Effect.extended rfl hs hadditions hclash
  | pick names =>
      rcases pick_eq_ok.mp h with ⟨a, fields, hs, _hknown, ht⟩
      rw [ht]
      exact Effect.narrowed rfl hs
  | without names =>
      rcases without_eq_ok.mp h with ⟨a, fields, hs, _hknown, ht⟩
      rw [ht]
      exact Effect.narrowed rfl hs
  | getField name =>
      rcases getField_eq_ok h with ⟨a, fields, f, hs, hf, ht⟩
      rw [ht]
      exact Effect.field rfl hs hf
  | getElement =>
      rcases getElement_eq_ok h with ⟨a, hs⟩
      exact Effect.element rfl hs

/-!
## Field declarations

The fields that a declaration yields have names that are distinct and not empty, and each of
them was declared with its schema.
-/

theorem checkedFields_eq_ok {entries : List FieldEntry} {seen : List String}
    {fields : List (String × Schema)} (h : checkedFields seen entries = .ok fields) :
    (fieldNames fields).Nodup ∧
      (forall name, name ∈ fieldNames fields -> name ∉ seen ∧ name ≠ "") ∧
      forall f, f ∈ fields -> .pair (.text f.1) f.2 ∈ entries ∧ f.2.isSchema = true := by
  induction entries generalizing seen fields with
  | nil =>
      injection h with h
      subst h
      simp [fieldNames]
  | cons entry rest ih =>
      cases entry with
      | other v =>
          exact absurd h Answer.refuse_ne_ok
      | pair name child =>
          cases name with
          | text s =>
              simp only [checkedFields] at h
              split at h
              · exact absurd h Answer.refuse_ne_ok
              rename_i hempty
              split at h
              · exact absurd h Answer.refuse_ne_ok
              rename_i hchild
              split at h
              · exact absurd h Answer.refuse_ne_ok
              rename_i hseen
              rcases Answer.bind_eq_ok.mp h with ⟨later, hlater, h⟩
              rcases ih hlater with ⟨hnodup, hnames, hdeclared⟩
              rw [← Answer.pure_eq_ok.mp h]
              refine ⟨?_, ?_, ?_⟩
              · have hs : s ∉ fieldNames later := by
                  intro hs
                  exact (hnames s hs).left List.mem_cons_self
                exact List.nodup_cons.mpr ⟨hs, hnodup⟩
              · intro name hname
                rcases List.mem_cons.mp hname with hname | hname
                · subst hname
                  exact ⟨by simpa using hseen, by simpa using hempty⟩
                · have hlaterName := hnames name hname
                  exact ⟨fun hmem => hlaterName.left (List.mem_cons_of_mem _ hmem),
                    hlaterName.right⟩
              · intro f hf
                rcases List.mem_cons.mp hf with hf | hf
                · subst hf
                  exact ⟨List.mem_cons_self, by simpa using hchild⟩
                · exact ⟨List.mem_cons_of_mem _ (hdeclared f hf).left,
                    (hdeclared f hf).right⟩
          | _ =>
              exact absurd h Answer.refuse_ne_ok

theorem clash?_eq_none {fields additions : List (String × Schema)}
    (h : clash? fields additions = none) {name : String}
    (hname : name ∈ fieldNames additions) : name ∉ fieldNames fields := by
  have hnone := List.find?_eq_none.mp h name hname
  simpa using hnone

/-!
## Enumerations

Listed values are distinct texts, and there is at least one.
-/

theorem nodup_of_repeatedTexts {texts : List String}
    (h : (repeatedTexts texts).isEmpty = true) : texts.Nodup := by
  rw [List.nodup_iff_count_le_one]
  intro t
  have hnone : t ∉ repeatedTexts texts := by
    rw [List.isEmpty_iff.mp h]
    exact List.not_mem_nil
  simp only [repeatedTexts, Constraint.orderedNames, List.mem_mergeSort, List.mem_eraseDups,
    List.mem_filter, decide_eq_true_eq, not_and, Nat.not_lt] at hnone
  by_cases ht : t ∈ texts
  · exact hnone ht
  · rw [List.count_eq_zero_of_not_mem ht]
    exact Nat.zero_le 1

theorem map_text_filterMap {values : List Value}
    (h : forall v, v ∈ values -> exists t, v = .text t) :
    (values.filterMap Value.text?).map Value.text = values := by
  induction values with
  | nil =>
      rfl
  | cons v rest ih =>
      rcases h v List.mem_cons_self with ⟨t, hv⟩
      have hrest := ih (fun w hw => h w (List.mem_cons_of_mem _ hw))
      subst hv
      simp [Value.text?, hrest]

theorem enumOf_eq_ok {values : List Value} {s : Schema} (h : enumOf values = .ok s) :
    s = .enumeration .fresh values ∧ values ≠ [] ∧ values.Nodup ∧
      forall v, v ∈ values -> exists t, v = .text t := by
  unfold enumOf at h
  by_cases hempty : values.isEmpty = true
  · rw [if_pos hempty] at h
    exact absurd h Answer.refuse_ne_ok
  · rw [if_neg hempty] at h
    cases hfind : values.find? (fun v => v.text?.isNone) with
    | some v =>
        rw [hfind] at h
        exact absurd h Answer.refuse_ne_ok
    | none =>
        rw [hfind] at h
        rcases Answer.ite_refuse_eq_ok.mp h with ⟨hrepeated, hs⟩
        have htexts : forall v, v ∈ values -> exists t, v = .text t := by
          intro v hv
          have hsome := List.find?_eq_none.mp hfind v hv
          cases v <;> simp [Value.text?] at hsome
          exact ⟨_, rfl⟩
        have hnodup : values.Nodup := by
          rw [← map_text_filterMap htexts]
          exact List.Nodup.map (fun _ _ heq => by injection heq)
            (nodup_of_repeatedTexts hrepeated)
        exact ⟨hs, by simpa using hempty, hnodup, htexts⟩

theorem enum_eq_ok {arguments : List Value} {s : Schema}
    (h : Schema.enum arguments = .ok s) :
    exists values, s = .enumeration .fresh values ∧ values ≠ [] ∧ values.Nodup ∧
      forall v, v ∈ values -> exists t, v = .text t := by
  unfold Schema.enum at h
  split at h
  · exact ⟨_, enumOf_eq_ok h⟩
  · rcases Answer.bind_eq_ok.mp h with ⟨elements, _helements, h⟩
    exact ⟨_, enumOf_eq_ok h⟩
  · exact ⟨_, enumOf_eq_ok h⟩

/-!
## Schemas that builders and calls make

The rule says which calls are allowed: it sees the schema before the call, the call and the
schema after it.  Arguments of calls are arbitrary, save that schemas among them are made in
the same way.
-/

/-- A schema that the builders and allowed calls of combinators make. -/
inductive Built (rule : Schema -> Call -> Schema -> Prop) : Schema -> Prop
  | ofKind (kind : PrimitiveKind) : Built rule (ofKind kind)
  | enum {arguments : List Value} {s : Schema} :
      Schema.enum arguments = .ok s -> Built rule s
  | obj {entries : List FieldEntry} {s : Schema} :
      (forall name child, .pair name child ∈ entries -> child.isSchema = true ->
        Built rule child) ->
      Schema.obj entries = .ok s -> Built rule s
  | array {element s : Schema} :
      (element.isSchema = true -> Built rule element) ->
      arrayOf element = .ok s -> Built rule s
  | call {call : Call} {s t : Schema} :
      Built rule s ->
      (forall name child, .pair name child ∈ call.entries -> child.isSchema = true ->
        Built rule child) ->
      call.apply s = .ok t -> rule s call t -> Built rule t

variable {rule : Schema -> Call -> Schema -> Prop}

theorem Built.plain {call : Call} {s t : Schema} (hs : Built rule s) (hplain : call.entries = [])
    (happly : call.apply s = .ok t) (hrule : rule s call t) : Built rule t := by
  refine .call hs (fun name child hchild _hschema => ?_) happly hrule
  rw [hplain] at hchild
  cases hchild

theorem Built.applyAll {calls : List Call} {s t : Schema} (hs : Built rule s)
    (hplain : forall call, call ∈ calls -> call.entries = [])
    (hrule : forall s call t, rule s call t) (h : applyAll calls s = .ok t) : Built rule t :=
  Answer.invariant_foldlM (P := Built rule)
    (fun _u _w call hcall hu hw => .plain hu (hplain call hcall) hw (hrule _ call _)) hs h

def declarations (fields : List (String × Schema)) : List FieldEntry :=
  fields.map (fun f => .pair (.text f.1) f.2)

theorem Built.of_fields {fields : List (String × Schema)}
    (hfields : forall f, f ∈ fields -> Built rule f.2)
    (hobj : Schema.obj (declarations fields) = .ok (.object .fresh fields)) :
    Built rule (.object .fresh fields) := by
  refine .obj (fun name child hchild _hschema => ?_) hobj
  rcases List.mem_map.mp hchild with ⟨f, hf, heq⟩
  injection heq with _hname hchild
  rw [← hchild]
  exact hfields f hf

variable {P : Schema -> Prop}

theorem Everywhere.withAttributes {s : Schema} {a : Attributes} (h : Everywhere P s)
    (hself : P (s.withAttributes a)) : Everywhere P (s.withAttributes a) := by
  cases s with
  | object b fields =>
      exact Everywhere.object hself (fun f hf => h.field hf)
  | array b element =>
      cases element with
      | none =>
          exact Everywhere.leaf hself (by simp [Schema.withAttributes])
            (by simp [Schema.withAttributes])
      | some element =>
          exact Everywhere.array hself h.element
  | _ =>
      exact Everywhere.leaf hself (by simp [Schema.withAttributes])
        (by simp [Schema.withAttributes])

theorem Effect.everywhere {call : Call} {s t : Schema} (heffect : Effect call s t)
    (hs : Everywhere P s)
    (hentries : forall name child, .pair name child ∈ call.entries ->
      child.isSchema = true -> Everywhere P child)
    (ht : P t) : Everywhere P t := by
  cases heffect with
  | annotated _ _ =>
      exact hs.withAttributes ht
  | cleared _ _ _ =>
      exact hs.withAttributes ht
  | defaulted _ _ _ _ _ =>
      exact hs.withAttributes ht
  | refined _ _ _ =>
      exact Everywhere.leaf ht (by simp) (by simp)
  | extended _ hobject hadditions _ =>
      subst hobject
      apply Everywhere.object ht
      intro f hf
      rcases List.mem_append.mp hf with hf | hf
      · exact hs.field hf
      · have hdeclared := (checkedFields_eq_ok hadditions).right.right f hf
        exact hentries _ _ hdeclared.left hdeclared.right
  | narrowed _ hobject =>
      subst hobject
      apply Everywhere.object ht
      intro f hf
      exact hs.field (List.mem_filter.mp hf).left
  | field _ hobject hf =>
      subst hobject
      exact hs.field hf
  | element _ harray =>
      subst harray
      exact hs.element

/-- What fresh schemas have and calls keep, every schema in a built tree has. -/
theorem Built.everywhere {rule : Schema -> Call -> Schema -> Prop}
    (hkind : forall kind, P (Schema.ofKind kind))
    (henum : forall arguments s, Schema.enum arguments = .ok s -> P s)
    (hobj : forall entries fields, fieldsOf entries = .ok fields -> P (.object .fresh fields))
    (harray : forall element, P (.array .fresh (some element)))
    (hcall : forall call s t, Everywhere P s ->
      (forall name child, .pair name child ∈ call.entries -> child.isSchema = true ->
        Everywhere P child) ->
      Effect call s t -> rule s call t -> P t)
    {s : Schema} (hs : Built rule s) : Everywhere P s := by
  induction hs with
  | ofKind kind =>
      exact Everywhere.leaf (hkind kind) (by simp [Schema.ofKind]) (by simp [Schema.ofKind])
  | enum henum' =>
      rcases enum_eq_ok henum' with ⟨values, hs, _⟩
      exact Everywhere.leaf (henum _ _ henum') (by simp [hs]) (by simp [hs])
  | obj _ hobj' ih =>
      rcases Answer.bind_eq_ok.mp hobj' with ⟨fields, hfields, h⟩
      rw [← Answer.pure_eq_ok.mp h]
      apply Everywhere.object (hobj _ fields hfields)
      intro f hf
      have hdeclared := (checkedFields_eq_ok hfields).right.right f hf
      exact ih _ _ hdeclared.left hdeclared.right
  | array _ harray' ih =>
      rcases Answer.ite_refuse_eq_ok.mp harray' with ⟨hschema, hs⟩
      rw [hs]
      exact Everywhere.array (harray _) (ih hschema)
  | call _ _ happly hrule ih ihentries =>
      have heffect := apply_effect happly
      exact heffect.everywhere ih ihentries (hcall _ _ _ ih ihentries heffect hrule)

/-!
Constraints are attached by calls alone, so what every attached constraint has, every
constraint in a built tree has.
-/

def ownConstraints : Schema -> List Constraint
  | .primitive _ _ constraints => constraints
  | _ => []

@[simp] theorem ownConstraints_withAttributes {s : Schema} {a : Attributes} :
    (s.withAttributes a).ownConstraints = s.ownConstraints := by
  cases s <;> rfl

theorem Built.everywhere_constraints {rule : Schema -> Call -> Schema -> Prop}
    {Q : Constraint -> Prop}
    (hattached : forall s call t c, rule s call t -> call.Attaches c -> Q c)
    {s : Schema} (hs : Built rule s) :
    Everywhere (fun t => forall c, c ∈ t.ownConstraints -> Q c) s := by
  refine Built.everywhere
    (P := fun t => forall c, c ∈ t.ownConstraints -> Q c) ?_ ?_ ?_ ?_ ?_ hs
  · intro kind c hc
    cases hc
  · intro arguments s hs c hc
    rcases enum_eq_ok hs with ⟨values, hs, _⟩
    rw [hs] at hc
    cases hc
  · intro entries fields _hfields c hc
    cases hc
  · intro element c hc
    cases hc
  · intro call s t hs _hentries heffect hrule
    cases heffect with
    | annotated _ _ =>
        rw [ownConstraints_withAttributes]
        exact hs.self
    | cleared _ _ _ =>
        rw [ownConstraints_withAttributes]
        exact hs.self
    | defaulted _ _ _ _ _ =>
        rw [ownConstraints_withAttributes]
        exact hs.self
    | refined hprimitive hattaches _ =>
        subst hprimitive
        intro c hc
        rcases List.mem_append.mp hc with hc | hc
        · exact hs.self c hc
        · rw [List.mem_singleton.mp hc]
          exact hattached _ _ _ _ hrule hattaches
    | extended _ _ _ _ =>
        intro c hc
        cases hc
    | narrowed _ _ =>
        intro c hc
        cases hc
    | field _ hobject hf =>
        subst hobject
        exact (hs.field hf).self
    | element _ harray =>
        subst harray
        exact hs.element.self

end Schema
end ContentSchema
