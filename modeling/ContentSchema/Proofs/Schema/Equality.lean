import ContentSchema.Proofs.Sameness
import ContentSchema.Proofs.Validation.BuiltIns
import ContentSchema.Schema.Equality

/-!
# Schemas that are the same

Constraints count as the same without a look at their tests.  For built-in constraints nothing
is lost by that: the name and the bound of such a constraint determine its test, and bounds that
are the same make the same test.  So schemas that are the same find the same problems in every
value, and make values of it that are the same.
-/

namespace ContentSchema
namespace Constraint

/-!
## Constraints
-/

def bound (c : Constraint) : Value :=
  match c.params with
  | [p] => p.2
  | _ => .null

def testNamed (name : String) (bound : Value) : ConstraintTest :=
  match name with
  | "nonEmpty" => .nonEmpty
  | "minLength" => .minLength bound
  | "maxLength" => .maxLength bound
  | "length" => .exactLength bound
  | "isUrl" => .url
  | "isEmail" => .email
  | "matches" =>
      match bound.text?.map Pattern.compile with
      | some (.ok tree) => .matching tree
      | some (.error _) => .never
      | none => .never
  | "positive" => .positive
  | "nonnegative" => .nonnegative
  | "integer" => .whole
  | "min" => .atLeast bound
  | "max" => .atMost bound
  | _ => .never

theorem BuiltIn.test_eq {c : Constraint} (h : BuiltIn c) : c.test = testNamed c.name c.bound := by
  cases h with
  | matching hpattern =>
      rcases Constraint.matching_eq_ok.mp hpattern with ⟨tree, htree, hc⟩
      rw [hc]
      simp [onText, bound, testNamed, Value.text?, htree]
  | _ => rfl

theorem holds_testNamed {a b : Value} (h : a.same b = true) (name : String) (v : Value) :
    (testNamed name a).holds v = (testNamed name b).holds v := by
  have hquantity := Value.quantity?_of_same h
  have htext := Value.text?_of_same h
  unfold testNamed
  split
  all_goals
    simp only [ConstraintTest.holds, ConstraintTest.measure, Value.same_int, hquantity, htext]

theorem same_bound {c d : Constraint} (h : c.same d = true) : c.bound.same d.bound = true := by
  simp only [same, Bool.and_eq_true, paramValue, Value.same] at h
  have hparams := h.right
  unfold bound
  rcases hc : c.params with _ | ⟨p, _ | ⟨p', rest⟩⟩ <;>
    rcases hd : d.params with _ | ⟨q, _ | ⟨q', rest'⟩⟩ <;>
    simp [hc, hd, Value.sameAll, Value.same] at hparams ⊢
  exact hparams.right

theorem alike_of_same {c d : Constraint} (hc : c.BuiltIn) (hd : d.BuiltIn)
    (h : c.same d = true) :
    c.name = d.name ∧ c.description = d.description ∧ forall v, c.check v = d.check v := by
  have hparts := h
  simp only [same, Bool.and_eq_true, beq_iff_eq] at hparts
  rcases hparts with ⟨⟨⟨hname, hdescription⟩, _happlies⟩, _hparams⟩
  refine ⟨hname, hdescription, fun v => ?_⟩
  rw [check, check, hc.test_eq, hd.test_eq, hname, holds_testNamed (same_bound h)]

end Constraint

/-!
## Findings
-/

namespace Findings

def Same (found other : Findings) : Prop :=
  found.errors = other.errors ∧ found.value.same other.value = true

theorem same_problem (e : FieldError) : Same (problem e) (problem e) :=
  ⟨rfl, Value.same_null⟩

end Findings

namespace Schema

open Answer (Related)

theorem violations_of_same {constraints others : List Constraint}
    (hconstraints : forall c, c ∈ constraints -> c.BuiltIn)
    (hothers : forall c, c ∈ others -> c.BuiltIn)
    (h : sameConstraints constraints others = true) (typed raw : Value) (path : String) :
    violations constraints typed raw path = violations others typed raw path := by
  induction constraints generalizing others with
  | nil =>
      cases others with
      | nil => rfl
      | cons d rest' => cases h
  | cons c rest ih =>
      cases others with
      | nil =>
          cases h
      | cons d rest' =>
          simp only [sameConstraints, Bool.and_eq_true] at h
          rcases List.forall_mem_cons.mp hconstraints with ⟨hc, hrest⟩
          rcases List.forall_mem_cons.mp hothers with ⟨hd, hrest'⟩
          rcases Constraint.alike_of_same hc hd h.left with ⟨hname, hdescription, hcheck⟩
          rw [violations, violations, hname, hdescription, hcheck, ih hrest hrest' h.right]

theorem eq_of_sameAll {values others : List Value}
    (htexts : forall v, v ∈ values -> exists t, v = .text t)
    (h : Value.sameAll values others = true) : values = others := by
  induction values generalizing others with
  | nil =>
      cases others with
      | nil => rfl
      | cons w rest' => simp [Value.sameAll] at h
  | cons v rest ih =>
      cases others with
      | nil =>
          simp [Value.sameAll] at h
      | cons w rest' =>
          rw [Value.sameAll, Bool.and_eq_true] at h
          rcases List.forall_mem_cons.mp htexts with ⟨⟨t, ht⟩, hrest⟩
          rw [ht] at h ⊢
          rw [Value.same_text_iff.mp h.left, ih hrest h.right]

theorem sameAttributes_iff {a b : Attributes} :
    sameAttributes a b = true <->
      a.isOptional = b.isOptional ∧
      ((a.fallback = none ∧ b.fallback = none) ∨
        exists v w, a.fallback = some v ∧ b.fallback = some w ∧ v.same w = true) ∧
      Value.same (.mapping a.metadata) (.mapping b.metadata) = true := by
  rw [sameAttributes, Bool.and_eq_true, Bool.and_eq_true, beq_iff_eq, and_assoc]
  cases a.fallback <;> cases b.fallback <;> simp

theorem exists_sameAttributes {s t : Schema} {a : Attributes} (h : s.same t = true)
    (ha : s.attributes? = some a) :
    exists b, t.attributes? = some b ∧ sameAttributes a b = true := by
  have hfound {c b : Attributes} (ha : some c = some a) (hsame : sameAttributes c b = true) :
      sameAttributes a b = true := by
    injection ha with ha
    rw [← ha]
    exact hsame
  unfold same at h
  split at h
  · simp only [Bool.and_eq_true] at h
    exact ⟨_, rfl, hfound ha h.left.left⟩
  · simp only [Bool.and_eq_true] at h
    exact ⟨_, rfl, hfound ha h.left⟩
  · simp only [Bool.and_eq_true] at h
    exact ⟨_, rfl, hfound ha h.left⟩
  · exact ⟨_, rfl, hfound ha h⟩
  · simp only [Bool.and_eq_true] at h
    exact ⟨_, rfl, hfound ha h.left⟩
  · exact ⟨_, rfl, hfound ha h⟩
  · cases ha
  · cases h

theorem presence_of_same {s t : Schema} (hs : s.isSchema = true) (h : s.same t = true) :
    s.isRequired = t.isRequired ∧
      ((s.fallback? = none ∧ t.fallback? = none) ∨
        exists v w, s.fallback? = some v ∧ t.fallback? = some w ∧ v.same w = true) := by
  rcases exists_attributes hs with ⟨a, ha⟩
  rcases exists_sameAttributes h ha with ⟨b, hb, hsame⟩
  rcases sameAttributes_iff.mp hsame with ⟨hoptional, hfallback, _hmetadata⟩
  rw [isRequired_of_attributes ha, isRequired_of_attributes hb, fallback?_of_attributes ha,
    fallback?_of_attributes hb]
  refine ⟨?_, hfallback⟩
  rw [Attributes.isRequired, Attributes.isRequired, hoptional]
  rcases hfallback with ⟨hnone, hnone'⟩ | ⟨v, w, hv, hw, _hvw⟩
  · rw [hnone, hnone']
  · rw [hv, hw]
    rfl

/-!
## Trees
-/

/-- A well-formed schema with built-in constraints. -/
def IsStandard (s : Schema) : Prop :=
  s.WellFormed ∧ forall c, c ∈ s.ownConstraints -> c.BuiltIn

theorem examinePrimitive_of_same {kind : PrimitiveKind} {constraints others : List Constraint}
    (hconstraints : forall c, c ∈ constraints -> c.BuiltIn)
    (hothers : forall c, c ∈ others -> c.BuiltIn)
    (h : sameConstraints constraints others = true) (raw : Value) (path : String) :
    Related Findings.Same (examinePrimitive kind constraints raw path)
      (examinePrimitive kind others raw path) := by
  unfold examinePrimitive
  cases htyped : coerce? kind raw with
  | none =>
      refine .ok ?_
      unfold uncoerced
      split <;> exact Findings.same_problem _
  | some typed =>
      have hsame := Value.same_of_holds (coerce?_eq_some_iff.mp htyped).holds
      simp only [violations_of_same hconstraints hothers h]
      refine (Related.refl (R := Eq) (fun _ => rfl) _).bind ?_
      intro errors errors' herrors
      exact .ok ⟨herrors, hsame⟩

theorem examineEnumeration_same (values : List Value) (raw : Value) (path : String) :
    Related Findings.Same (examineEnumeration values raw path)
      (examineEnumeration values raw path) := by
  unfold examineEnumeration
  split
  · split
    · exact .ok ⟨rfl, Value.same_text_iff.mpr rfl⟩
    · refine (Related.refl (R := Eq) (fun _ => rfl) _).bind ?_
      intro allowed allowed' hallowed
      rw [hallowed]
      exact .ok (Findings.same_problem _)
  · exact .ok (Findings.same_problem _)

theorem examineItems_of_same {examine examine' : Value -> String -> Answer Findings}
    (h : forall raw path, Related Findings.Same (examine raw path) (examine' raw path))
    (path : String) (index : Nat) (items : List Value) :
    Related (fun r r' => List.Forall₂ (fun v w => v.same w = true) r.1 r'.1 ∧ r.2 = r'.2)
      (examineItems examine path index items) (examineItems examine' path index items) := by
  induction items generalizing index with
  | nil =>
      exact .ok ⟨.nil, rfl⟩
  | cons item rest ih =>
      rw [examineItems, examineItems]
      refine (h item _).bind ?_
      intro found other hfound
      refine (ih (index + 1)).bind ?_
      intro later later' hlater
      refine .ok ⟨.cons hfound.right hlater.left, ?_⟩
      rw [hfound.left, hlater.right]

def SameParts (r r' : List (String × Value) × List FieldError) : Prop :=
  Value.SameMembers r.1 r'.1 ∧ r.2 = r'.2

theorem examineField_of_same {f g : String × Schema} (hname : f.1 = g.1)
    (hf : f.2.isSchema = true) (h : f.2.same g.2 = true)
    (hexamine : forall raw path,
      Related Findings.Same (f.2.examine raw path) (g.2.examine raw path))
    (entries : List (Value × Value)) (path : String) :
    Related SameParts (examineField entries path f) (examineField entries path g) := by
  rcases presence_of_same hf h with ⟨hrequired, hfallback⟩
  unfold examineField
  rw [← hname, ← hrequired]
  split
  · refine (hexamine _ _).bind ?_
    intro found other hfound
    exact .ok ⟨.cons ⟨rfl, hfound.right⟩ .nil, hfound.left⟩
  · split
    · exact .ok ⟨.nil, rfl⟩
    · rcases hfallback with ⟨hnone, hnone'⟩ | ⟨v, w, hv, hw, hvw⟩
      · rw [hnone, hnone']
        exact .ok ⟨.nil, rfl⟩
      · rw [hv, hw]
        exact .ok ⟨.cons ⟨rfl, hvw⟩ .nil, rfl⟩

theorem examineFields_of_same {fields others : List (String × Schema)}
    (hfields : forall f, f ∈ fields -> Everywhere IsStandard f.2)
    (hothers : forall f, f ∈ others -> Everywhere IsStandard f.2)
    (ih : forall f, f ∈ fields -> forall t, Everywhere IsStandard t -> f.2.same t = true ->
      forall raw path, Related Findings.Same (f.2.examine raw path) (t.examine raw path))
    (h : sameFields fields others = true) (entries : List (Value × Value)) (path : String) :
    Related SameParts (examineFields fields entries path) (examineFields others entries path) := by
  induction fields generalizing others with
  | nil =>
      cases others with
      | nil => exact .ok ⟨.nil, rfl⟩
      | cons g rest' => cases h
  | cons f rest later =>
      cases others with
      | nil =>
          cases h
      | cons g rest' =>
          simp only [sameFields, Bool.and_eq_true, beq_iff_eq] at h
          rcases h with ⟨⟨hname, hchild⟩, hrest⟩
          rcases List.forall_mem_cons.mp hfields with ⟨hf, hfields⟩
          rcases List.forall_mem_cons.mp hothers with ⟨hg, hothers⟩
          rcases List.forall_mem_cons.mp ih with ⟨hfirst, ih⟩
          rw [examineFields_cons hf.self.left.isSchema, examineFields_cons hg.self.left.isSchema]
          refine (examineField_of_same hname hf.self.left.isSchema hchild (hfirst g.2 hg hchild)
            entries path).bind ?_
          intro part part' hpart
          refine (later hfields hothers ih hrest).bind ?_
          intro rest rest' hrest
          exact .ok ⟨List.rel_append hpart.left hrest.left, by rw [hpart.right, hrest.right]⟩

/-- Schemas that are the same find the same in every value. -/
theorem examine_of_same {s t : Schema} (hs : Everywhere IsStandard s)
    (ht : Everywhere IsStandard t) (h : s.same t = true) (raw : Value) (path : String) :
    Related Findings.Same (s.examine raw path) (t.examine raw path) := by
  induction s using tree_induction generalizing t raw path with
  | primitive a kind constraints =>
      cases t with
      | primitive b kind' constraints' =>
          simp only [same, Bool.and_eq_true, decide_eq_true_eq] at h
          rcases h with ⟨⟨_hattributes, hkind⟩, hconstraints⟩
          rw [examine, examine, ← hkind]
          exact examinePrimitive_of_same hs.self.right ht.self.right hconstraints raw path
      | _ => cases h
  | enumeration a values =>
      cases t with
      | enumeration b values' =>
          simp only [same, Bool.and_eq_true] at h
          rw [examine, examine, ← eq_of_sameAll hs.self.left.shape.right.right h.right]
          exact examineEnumeration_same values raw path
      | _ => cases h
  | object a fields ih =>
      cases t with
      | object b fields' =>
          simp only [same, Bool.and_eq_true] at h
          cases raw with
          | mapping entries =>
              rw [examine, examine]
              refine (examineFields_of_same (fun f hf => hs.field hf) (fun g hg => ht.field hg)
                (fun f hf t ht h raw path => ih f hf (hs.field hf) ht h raw path)
                h.right entries path).bind ?_
              intro r r' hr
              exact .ok ⟨hr.right, Value.same_recordOf hr.left⟩
          | _ =>
              simp only [examine]
              exact .ok (Findings.same_problem _)
      | _ => cases h
  | missing a =>
      cases hs.self.left.shape
  | array a element ih =>
      cases t with
      | array b element' =>
          cases element' with
          | none =>
              cases h
          | some element' =>
              simp only [same, Bool.and_eq_true] at h
              rw [examine, examine]
              split
              · refine (examineItems_of_same
                  (fun raw path => ih hs.element ht.element h.right raw path) path 0 _).bind ?_
                intro r r' hr
                exact .ok ⟨hr.right, Value.same_tuple hr.left⟩
              · exact .ok (Findings.same_problem _)
      | _ => cases h
  | bare a =>
      exact hs.self.left.shape.elim
  | foreign v =>
      exact hs.self.left.shape.elim

/-- The same problems, and values that are the same, at the end of validation. -/
def SameResult (r r' : ValidationResult) : Prop :=
  r.errors = r'.errors ∧ r.value.same r'.value = true

theorem validate_of_same {s t : Schema} (hs : Everywhere IsStandard s)
    (ht : Everywhere IsStandard t) (h : s.same t = true) (raw : Value) :
    Related SameResult (s.validate raw) (t.validate raw) := by
  rcases exists_attributes hs.self.left.isSchema with ⟨a, ha⟩
  rcases exists_attributes ht.self.left.isSchema with ⟨b, hb⟩
  rcases presence_of_same hs.self.left.isSchema h with ⟨hrequired, hfallback⟩
  rw [isRequired_of_attributes ha, isRequired_of_attributes hb] at hrequired
  rw [fallback?_of_attributes ha, fallback?_of_attributes hb] at hfallback
  unfold validate
  simp only [ha, hb, ← hrequired]
  split
  · refine .ok ⟨rfl, ?_⟩
    rcases hfallback with ⟨hnone, hnone'⟩ | ⟨v, w, hv, hw, hvw⟩
    · rw [hnone, hnone']
      exact Value.same_null
    · rw [hv, hw]
      exact hvw
  · refine (examine_of_same hs ht h raw "").bind ?_
    intro found other hfound
    rw [hfound.left]
    split
    · exact .ok ⟨rfl, hfound.right⟩
    · exact .ok ⟨rfl, Value.same_null⟩

theorem Built.isStandard {s : Schema} (h : Built (fun _ call _ => call.UsesBuiltIns) s) :
    Everywhere IsStandard s :=
  fun t ht => ⟨h.wellFormed t ht, h.constraints_builtIn t ht⟩

/-- With built-in constraints, two schemas that are the same are not told apart by validation.
For every value they report the same errors in the same order, and what they accept it as is
equal, or it is the same occurrence of not a number; or the same fault stops both. -/
theorem same_validate_equal {s t : Schema} (hs : Built (fun _ call _ => call.UsesBuiltIns) s)
    (ht : Built (fun _ call _ => call.UsesBuiltIns) t) (h : s.same t = true) (raw : Value) :
    (exists r r', s.validate raw = .ok r ∧ t.validate raw = .ok r' ∧ r.errors = r'.errors ∧
      (r.value.equals r'.value = true ∨
        exists n, r.value = .float (.notANumber n) ∧ r'.value = .float (.notANumber n))) ∨
    (exists fault, s.validate raw = .error fault ∧ t.validate raw = .error fault) := by
  rcases (validate_of_same hs.isStandard ht.isStandard h raw).outcomes with
    ⟨r, r', hr, hr', herrors, hvalues⟩ | hfault
  · exact Or.inl ⟨r, r', hr, hr', herrors, Value.equals_or_notANumber hvalues⟩
  · exact Or.inr hfault

def grade (fallback : Value) : Schema :=
  .primitive ⟨false, some fallback, []⟩ .number [.atMost (.int 10)]

theorem built_grade {fallback : Value} {q : Quantity}
    (hnumber : coerce? .number fallback = some fallback) (hq : fallback.quantity? = some q)
    (hbound : q.le (.rational 10) = true) :
    Built (fun _ call _ => call.UsesBuiltIns) (grade fallback) := by
  have hmax : Call.apply (.max (.int 10)) number =
      .ok (.primitive .fresh .number [.atMost (.int 10)]) := rfl
  have hcheck : (Constraint.atMost (.int 10)).check fallback = .ok true := by
    rw [Constraint.check_atMost rfl hq]
    exact congrArg Except.ok hbound
  have hvalid : (Schema.primitive .fresh .number [.atMost (.int 10)]).validate fallback =
      .ok (.accepted fallback) := by
    simp only [validate, attributes?, Attributes.isRequired, Attributes.fresh, examine,
      examinePrimitive, hnumber, violations, hcheck]
    simp [bind, Except.bind, pure, Except.pure]
  have hdefault : Call.apply (.withDefault fallback)
      (.primitive .fresh .number [.atMost (.int 10)]) = .ok (grade fallback) :=
    withDefault_eq_ok.mpr ⟨_, _, _, rfl, rfl, hvalid, rfl, rfl⟩
  exact .plain (.plain (.ofKind .number) rfl hmax (int_isNumber 10)) rfl hdefault trivial

theorem grades_alike :
    (grade (.int 3)).same (grade (.float (.finite false 3 0))) = true ∧
    (grade (.int 3)).validate .null = .ok (.accepted (.int 3)) ∧
    exists r, (grade (.float (.finite false 3 0))).validate .null = .ok r ∧ r.errors = [] ∧
      (Value.int 3).equals r.value = true := by
  have hwhole : Built (fun _ call _ => call.UsesBuiltIns) (grade (.int 3)) :=
    built_grade rfl rfl (by decide +kernel)
  have hfloat : Built (fun _ call _ => call.UsesBuiltIns) (grade (.float (.finite false 3 0))) :=
    built_grade rfl rfl (by decide +kernel)
  have hsame : (grade (.int 3)).same (grade (.float (.finite false 3 0))) = true := by
    decide +kernel
  have hleft : (grade (.int 3)).validate .null = .ok (.accepted (.int 3)) := rfl
  refine ⟨hsame, hleft, ?_⟩
  rcases same_validate_equal hwhole hfloat hsame .null with
    ⟨r, r', hr, hr', herrors, hvalues⟩ | ⟨fault, hfault, _hfault⟩
  · rw [hleft] at hr
    injection hr with hr
    rw [← hr] at herrors hvalues
    rcases hvalues with hequal | ⟨n, hn, _hn⟩
    · exact ⟨r', hr', herrors.symm, hequal⟩
    · cases hn
  · rw [hleft] at hfault
    cases hfault

/-- Not a number is accepted as a number, and then the accepted values are not equal. -/
theorem number_accepts_unequal :
    Built (fun _ call _ => call.UsesBuiltIns) number ∧ number.same number = true ∧
    number.validate (.float (.notANumber 0)) = .ok (.accepted (.float (.notANumber 0))) ∧
    (Value.float (.notANumber 0)).equals (.float (.notANumber 0)) = false :=
  ⟨.ofKind .number, by decide +kernel, rfl, rfl⟩

end Schema
end ContentSchema
