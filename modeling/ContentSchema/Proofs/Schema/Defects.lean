import ContentSchema.Proofs.Schema.Consistency
import ContentSchema.Proofs.Sites

/-!
# Defects

What is wrong at the places of a schema tree, said place by place and without reference to how
the check goes about it.  The tree may be assembled by hand in any way.  Where the check comes to
an end it finds exactly these defects, each once and in depth-first order, and no defect keeps it
from going on.  It comes to an end unless an enumeration lists a value that has no hash.
-/

namespace ContentSchema
namespace Schema

/-- At the site of a tree whose root is called by the path there is the defect.  A site gives
positions on the way down: of a constraint in a leaf, of a field in an object.  A field is a pair,
so below its position zero stands for its name and one for its schema. -/
inductive Defective : Schema -> String -> List Nat -> Defect -> Prop
  | misplaced {a : Attributes} {kind : PrimitiveKind} {constraints : List Constraint}
      {c : Constraint} {path : String} {i : Nat} :
      constraints[i]? = some c -> kind.name ∉ c.appliesTo ->
      Defective (.primitive a kind constraints) path [i]
        ⟨path, .misplacedConstraint c.name kind.name⟩
  | emptyEnum {a : Attributes} {path : String} :
      Defective (.enumeration a []) path [] ⟨path, .emptyEnum⟩
  | repeatedValue {a : Attributes} {values : List Value} {v w : Value} {path : String}
      {i j : Nat} :
      i < j -> values[i]? = some v -> values[j]? = some w -> (v == w) = true ->
      Defective (.enumeration a values) path [] ⟨path, .repeatedEnumValue⟩
  | missingElement {a : Attributes} {path : String} :
      Defective (.array a none) path [] ⟨path, .missingElement⟩
  | inElement {a : Attributes} {element : Schema} {path : String} {site : List Nat}
      {d : Defect} :
      Defective element (path ++ "[]") site d ->
      Defective (.array a (some element)) path (0 :: site) d
  | repeatedField {a : Attributes} {fields : List (String × Schema)} {f : String × Schema}
      {path : String} {i : Nat} :
      fields[i]? = some f -> f.1 ∈ fieldNames (fields.take i) ->
      Defective (.object a fields) path [i, 0] ⟨path, .repeatedField f.1⟩
  | inField {a : Attributes} {fields : List (String × Schema)} {f : String × Schema}
      {path : String} {i : Nat} {site : List Nat} {d : Defect} :
      fields[i]? = some f -> Defective f.2 (childPath path f.1) site d ->
      Defective (.object a fields) path (i :: 1 :: site) d
  | notASchema {v : Value} {path : String} :
      Defective (.foreign v) path [] ⟨path, .notASchema v.typeName⟩

variable {a : Attributes} {path : String} {site : List Nat} {d : Defect}

/-!
## Leaves
-/

def Misplaced (kind : PrimitiveKind) (path : String) (c : Constraint) (site : List Nat)
    (d : Defect) : Prop :=
  kind.name ∉ c.appliesTo ∧ site = [] ∧ d = ⟨path, .misplacedConstraint c.name kind.name⟩

theorem defective_primitive {kind : PrimitiveKind} {constraints : List Constraint} :
    Defective (.primitive a kind constraints) path site d <->
      AtBranch (Misplaced kind path) 0 constraints site d := by
  constructor
  · intro h
    cases h with
    | misplaced hc hmisplaced =>
        exact ⟨_, _, hc, _, by rw [Nat.zero_add], hmisplaced, rfl, rfl⟩
  · intro h
    rcases h with ⟨i, c, hc, rest, hsite, hmisplaced, hrest, hd⟩
    rw [hsite, hrest, hd, Nat.zero_add]
    exact .misplaced hc hmisplaced

theorem lists_misplacedConstraints (kind : PrimitiveKind) (constraints : List Constraint) :
    Lists (AtBranch (Misplaced kind path) 0 constraints)
      (misplacedConstraints kind constraints path) := by
  have hflat : misplacedConstraints kind constraints path =
      (constraints.map (fun c => misplacedConstraints kind [c] path)).flatten := by
    induction constraints with
    | nil =>
        rfl
    | cons c rest ih =>
        rw [List.map_cons, List.flatten_cons, ← ih, misplacedConstraints, misplacedConstraints,
          misplacedConstraints, ← List.map_append, ← List.filter_append]
        rfl
  rw [hflat]
  apply lists_branches
  rw [List.forall₂_map_right_iff, List.forall₂_same]
  intro c _hc
  by_cases happlies : kind.name ∈ c.appliesTo
  · have hnone : misplacedConstraints kind [c] path = [] := by
      simp [misplacedConstraints, happlies]
    rw [hnone]
    exact lists_nil (fun site d h => h.left happlies)
  · have hone : misplacedConstraints kind [c] path =
        [⟨path, .misplacedConstraint c.name kind.name⟩] := by
      simp [misplacedConstraints, happlies]
    rw [hone]
    exact lists_singleton (fun site d => and_iff_right happlies)

theorem hasRepetition_iff {values : List Value} :
    hasRepetition values = true <->
      exists (i j : Nat) (v w : Value), i < j ∧ values[i]? = some v ∧ values[j]? = some w ∧
        (v == w) = true := by
  induction values with
  | nil =>
      simp [hasRepetition]
  | cons u rest ih =>
      rw [hasRepetition, Bool.or_eq_true, List.contains_iff_exists_mem_beq, ih]
      constructor
      · intro h
        rcases h with ⟨w, hw, huw⟩ | ⟨i, j, v, w, hij, hv, hw, hvw⟩
        · rcases List.mem_iff_getElem?.mp hw with ⟨j, hj⟩
          exact ⟨0, j + 1, u, w, by omega, rfl, hj, huw⟩
        · exact ⟨i + 1, j + 1, v, w, by omega, hv, hw, hvw⟩
      · intro h
        rcases h with ⟨i, j, v, w, hij, hv, hw, hvw⟩
        cases j with
        | zero =>
            omega
        | succ j =>
            cases i with
            | zero =>
                injection hv with hv
                rw [← hv] at hvw
                exact Or.inl ⟨w, List.mem_of_getElem? hw, hvw⟩
            | succ i =>
                exact Or.inr ⟨i, j, v, w, by omega, hv, hw, hvw⟩

theorem lists_enumeration {values : List Value} {found : List Defect}
    (h : enumerationDefects values path = .ok found) :
    Lists (Defective (.enumeration a values) path) found := by
  rw [enumerationDefects] at h
  cases values with
  | nil =>
      injection h with h
      rw [← h]
      apply lists_singleton
      intro site d
      constructor
      · intro hd
        cases hd with
        | emptyEnum => exact ⟨rfl, rfl⟩
        | repeatedValue _ hv _ _ => cases hv
      · intro hd
        rw [hd.left, hd.right]
        exact .emptyEnum
  | cons v rest =>
      cases hhashable : Value.areHashable (v :: rest) with
      | false =>
          rw [hhashable] at h
          cases h
      | true =>
          simp only [hhashable, List.isEmpty_cons, Bool.false_eq_true, if_false,
            Bool.not_true] at h
          by_cases hrepeated : hasRepetition (v :: rest) = true
          · rw [if_pos hrepeated] at h
            injection h with h
            rw [← h]
            apply lists_singleton
            intro site d
            constructor
            · intro hd
              cases hd with
              | repeatedValue _ _ _ _ => exact ⟨rfl, rfl⟩
            · intro hd
              rcases hasRepetition_iff.mp hrepeated with ⟨i, j, x, y, hij, hx, hy, hxy⟩
              rw [hd.left, hd.right]
              exact .repeatedValue hij hx hy hxy
          · rw [if_neg hrepeated] at h
            injection h with h
            rw [← h]
            apply lists_nil
            intro site d hd
            cases hd with
            | repeatedValue hij hx hy hxy =>
                exact hrepeated (hasRepetition_iff.mpr ⟨_, _, _, _, hij, hx, hy, hxy⟩)

/-!
## Objects

What the name of a field and what its schema have to report stands under the position of the
field, in this order.  The walk carries the names of the fields that it has passed.
-/

def FieldDefective (repeated : Prop) (path : String) (f : String × Schema) (site : List Nat)
    (d : Defect) : Prop :=
  Below 0 (fun rest e => repeated ∧ rest = [] ∧ e = ⟨path, .repeatedField f.1⟩) site d ∨
  Below 1 (Defective f.2 (childPath path f.1)) site d

def FieldsDefective (earlier : List String) (fields : List (String × Schema)) (path : String)
    (start : Nat) (site : List Nat) (d : Defect) : Prop :=
  exists i f, fields[i]? = some f ∧
    Below (start + i)
      (FieldDefective (f.1 ∈ fieldNames (fields.take i) ∨ f.1 ∈ earlier) path f) site d

theorem fieldsDefective_cons {earlier : List String} {f : String × Schema}
    {rest : List (String × Schema)} {start : Nat} :
    FieldsDefective earlier (f :: rest) path start site d <->
      Below start (FieldDefective (f.1 ∈ earlier) path f) site d ∨
        FieldsDefective (f.1 :: earlier) rest path (start + 1) site d := by
  have hfirst : (f.1 ∈ fieldNames ((f :: rest).take 0) ∨ f.1 ∈ earlier) = (f.1 ∈ earlier) := by
    simp [fieldNames]
  have hlater (i : Nat) (g : String × Schema) :
      (g.1 ∈ fieldNames ((f :: rest).take (i + 1)) ∨ g.1 ∈ earlier) =
        (g.1 ∈ fieldNames (rest.take i) ∨ g.1 ∈ f.1 :: earlier) := by
    simp only [fieldNames, List.take_succ_cons, List.map_cons, List.mem_cons, eq_iff_iff]
    tauto
  constructor
  · intro h
    rcases h with ⟨i, g, hg, hbelow⟩
    cases i with
    | zero =>
        injection hg with hg
        rw [← hg, hfirst] at hbelow
        exact Or.inl hbelow
    | succ i =>
        rw [hlater, ← Nat.add_assoc, Nat.add_right_comm] at hbelow
        exact Or.inr ⟨i, g, hg, hbelow⟩
  · intro h
    rcases h with hbelow | ⟨i, g, hg, hbelow⟩
    · exact ⟨0, f, rfl, by rwa [hfirst]⟩
    · exact ⟨i + 1, g, hg, by rwa [hlater, ← Nat.add_assoc, Nat.add_right_comm]⟩

theorem lists_field {repeated : Prop} [Decidable repeated] {f : String × Schema}
    {below : List Defect} (h : Lists (Defective f.2 (childPath path f.1)) below) :
    Lists (FieldDefective repeated path f)
      ((if repeated then [⟨path, .repeatedField f.1⟩] else []) ++ below) := by
  refine lists_append (lists_below 0 ?_) (lists_below 1 h) ?_
  · by_cases hrepeated : repeated
    · rw [if_pos hrepeated]
      exact lists_singleton (fun site d => and_iff_right hrepeated)
    · rw [if_neg hrepeated]
      exact lists_nil (fun site d h => hrepeated h.left)
  · intro site place x y hx hy
    rcases hx with ⟨rest, hsite, _hx⟩
    rcases hy with ⟨rest', hplace, _hy⟩
    rw [hsite, hplace]
    exact List.cons_lt_cons_iff.mpr (Or.inl Nat.zero_lt_one)

theorem lists_fieldDefects {fields : List (String × Schema)}
    (h : forall f, f ∈ fields -> forall place found, f.2.defects place = .ok found ->
      Lists (Defective f.2 place) found)
    {earlier : List String} {start : Nat} {found : List Defect}
    (hfound : fieldDefects earlier fields path = .ok found) :
    Lists (FieldsDefective earlier fields path start) found := by
  induction fields generalizing earlier start found with
  | nil =>
      injection hfound with hfound
      rw [← hfound]
      apply lists_nil
      intro site d hd
      rcases hd with ⟨i, f, hf, _⟩
      cases hf
  | cons f rest ih =>
      rcases List.forall_mem_cons.mp h with ⟨hf, hrest⟩
      rcases fieldDefects_cons_eq_ok.mp hfound with ⟨below, hbelow, later, hlater, hfound⟩
      have hfirst : Lists (Below start (FieldDefective (f.1 ∈ earlier) path f))
          ((if earlier.contains f.1 then [⟨path, .repeatedField f.1⟩] else []) ++ below) := by
        simp only [List.contains_iff_mem]
        exact lists_below start (lists_field (hf _ _ hbelow))
      rw [← hfound]
      refine lists_congr (fun site d => fieldsDefective_cons.symm)
        (lists_append hfirst (ih hrest hlater) ?_)
      intro site place x y hx hy
      rcases hx with ⟨below, hsite, _hx⟩
      rcases hy with ⟨i, g, _hg, below', hplace, _hy⟩
      rw [hsite, hplace]
      exact List.cons_lt_cons_iff.mpr (Or.inl (by omega))

theorem defective_object {fields : List (String × Schema)} :
    Defective (.object a fields) path site d <-> FieldsDefective [] fields path 0 site d := by
  simp only [FieldsDefective, List.not_mem_nil, or_false, Nat.zero_add]
  constructor
  · intro h
    cases h with
    | repeatedField hf hrepeated =>
        exact ⟨_, _, hf, _, rfl, Or.inl ⟨_, rfl, hrepeated, rfl, rfl⟩⟩
    | inField hf hbelow =>
        exact ⟨_, _, hf, _, rfl, Or.inr ⟨_, rfl, hbelow⟩⟩
  · intro h
    rcases h with ⟨i, f, hf, _, hsite, ⟨_, hname, hrepeated, hrest, hd⟩ | ⟨_, hschema, hbelow⟩⟩
    · rw [hsite, hname, hrest, hd]
      exact .repeatedField hf hrepeated
    · rw [hsite, hschema]
      exact .inField hf hbelow

/-!
## Trees
-/

theorem lists_defects {s : Schema} {path : String} {found : List Defect}
    (h : s.defects path = .ok found) : Lists (Defective s path) found := by
  induction s using tree_induction generalizing path found with
  | primitive a kind constraints =>
      injection h with h
      rw [← h]
      exact lists_congr (fun site d => defective_primitive.symm)
        (lists_misplacedConstraints kind constraints)
  | enumeration a values =>
      exact lists_enumeration h
  | object a fields ih =>
      exact lists_congr (fun site d => defective_object.symm)
        (lists_fieldDefects (fun f hf place found => ih f hf) h)
  | missing a =>
      injection h with h
      rw [← h]
      apply lists_singleton
      intro site d
      constructor
      · intro hd
        cases hd with
        | missingElement => exact ⟨rfl, rfl⟩
      · intro hd
        rw [hd.left, hd.right]
        exact .missingElement
  | array a element ih =>
      refine lists_congr (fun site d => ?_) (lists_below 0 (ih h))
      constructor
      · intro hd
        rcases hd with ⟨rest, hsite, hbelow⟩
        rw [hsite]
        exact .inElement hbelow
      · intro hd
        cases hd with
        | inElement hbelow => exact ⟨_, rfl, hbelow⟩
  | bare a =>
      injection h with h
      rw [← h]
      apply lists_nil
      intro site d hd
      cases hd
  | foreign v =>
      injection h with h
      rw [← h]
      apply lists_singleton
      intro site d
      constructor
      · intro hd
        cases hd with
        | notASchema => exact ⟨rfl, rfl⟩
      · intro hd
        rw [hd.left, hd.right]
        exact .notASchema

/-!
## Values without a hash

The walk looks for repetitions with a set.  A list of allowed values that cannot be in one is the
only thing that keeps it from coming to an end.
-/

def ListsHashable : Schema -> Prop
  | .enumeration _ values => forall v, v ∈ values -> v.isHashable = true
  | _ => True

@[simp] theorem areHashable_iff {values : List Value} :
    Value.areHashable values = true <-> forall v, v ∈ values -> v.isHashable = true := by
  induction values with
  | nil =>
      simp [Value.areHashable]
  | cons v rest ih =>
      rw [Value.areHashable, Bool.and_eq_true, ih, List.forall_mem_cons]

/-- How a walk ends: with findings when the condition holds, and otherwise with the fault of a
value that has no hash. -/
inductive Ends (p : Prop) : Answer (List Defect) -> Prop
  | found {found : List Defect} : p -> Ends p (.ok found)
  | stopped : ¬ p -> Ends p (.error .wrongType)

theorem Ends.imp {p q : Prop} {walk : Answer (List Defect)} (h : Ends p walk) (hpq : p <-> q) :
    Ends q walk := by
  cases h with
  | found hp => exact .found (hpq.mp hp)
  | stopped hp => exact .stopped (fun hq => hp (hpq.mpr hq))

theorem Ends.both {p q : Prop} {walk later : Answer (List Defect)}
    {join : List Defect -> List Defect -> List Defect} (h : Ends p walk) (hlater : Ends q later) :
    Ends (p ∧ q) (walk >>= fun found => later >>= fun others => pure (join found others)) := by
  cases h with
  | stopped hp => exact .stopped (fun hpq => hp hpq.left)
  | found hp =>
      cases hlater with
      | stopped hq => exact .stopped (fun hpq => hq hpq.right)
      | found hq => exact .found ⟨hp, hq⟩

theorem enumerationDefects_ends (values : List Value) :
    Ends (forall v, v ∈ values -> v.isHashable = true) (enumerationDefects values path) := by
  refine Ends.imp ?_ areHashable_iff
  rw [enumerationDefects]
  cases values with
  | nil =>
      exact .found rfl
  | cons v rest =>
      cases hhashable : Value.areHashable (v :: rest) with
      | false => exact .stopped (by simp)
      | true => cases hasRepetition (v :: rest) <;> exact .found rfl

theorem fieldDefects_ends {fields : List (String × Schema)}
    (h : forall f, f ∈ fields -> forall place, Ends (Everywhere ListsHashable f.2)
      (f.2.defects place)) (earlier : List String) :
    Ends (forall f, f ∈ fields -> Everywhere ListsHashable f.2)
      (fieldDefects earlier fields path) := by
  induction fields generalizing earlier with
  | nil =>
      exact .found (fun f hf => absurd hf List.not_mem_nil)
  | cons f rest ih =>
      rcases List.forall_mem_cons.mp h with ⟨hf, hrest⟩
      simp only [List.forall_mem_cons, fieldDefects]
      exact Ends.both (hf _) (ih hrest (f.1 :: earlier))

theorem defects_ends (s : Schema) (path : String) :
    Ends (Everywhere ListsHashable s) (s.defects path) := by
  induction s using tree_induction generalizing path with
  | enumeration a values =>
      exact (enumerationDefects_ends values).imp
        ⟨fun h => Everywhere.leaf h (by simp) (by simp), Everywhere.self⟩
  | object a fields ih =>
      exact (fieldDefects_ends ih []).imp
        ⟨Everywhere.object trivial, fun h f hf => h.field hf⟩
  | array a element ih =>
      exact (ih (path ++ "[]")).imp ⟨Everywhere.array trivial, Everywhere.element⟩
  | primitive a kind constraints =>
      exact .found (Everywhere.leaf trivial (by simp) (by simp))
  | missing a =>
      exact .found (Everywhere.leaf trivial (by simp) (by simp))
  | bare a =>
      exact .found (Everywhere.leaf trivial (by simp) (by simp))
  | foreign v =>
      exact .found (Everywhere.leaf trivial (by simp) (by simp))

/-!
## The check
-/

/-- The check of a tree is exact: it gives the tree back when there is no defect at any place of
it, and otherwise there is one error, whose list has the defect of every place, each once and
depth first, and whose message reads them out in this order. -/
def ChecksExactly (s : Schema) (path : String) : Prop :=
  exists found : List Defect,
    Lists (Defective s (if path = "" then "<root>" else path)) found ∧
    (s.check path = .ok s <->
      forall site d, ¬ Defective s (if path = "" then "<root>" else path) site d) ∧
    (s.check path = .error (.definition (.inconsistent found)) <->
      exists site d, Defective s (if path = "" then "<root>" else path) site d) ∧
    (Fault.definition (.inconsistent found)).message =
      "Inconsistent schema: " ++ "; ".intercalate (found.map Defect.text)

theorem checksExactly_of_defectsAt {s : Schema} {path : String} {found : List Defect}
    (h : s.defectsAt path = .ok found) : s.ChecksExactly path := by
  have hlists : Lists (Defective s (if path = "" then "<root>" else path)) found := by
    apply lists_defects
    simpa only [defectsAt, String.isEmpty_iff, rootPath] using h
  have hnone := eq_nil_of_lists hlists
  have hsome : (exists site d, Defective s (if path = "" then "<root>" else path) site d) <->
      found ≠ [] := by
    rw [ne_eq, hnone]
    simp only [not_forall, not_not]
  have hcheck : s.check path =
      if found.isEmpty then .ok s else refuse (.inconsistent found) := by
    rw [check, h]
    rfl
  refine ⟨found, hlists, ?_, ?_, rfl⟩
  · rw [← hnone, hcheck, Answer.ite_refuse_eq_ok, List.isEmpty_iff]
    exact and_iff_left rfl
  · rw [hsome, hcheck]
    cases found with
    | nil => simp
    | cons d rest => simp [refuse]

theorem not_checksExactly_of_stopped {s : Schema} {path : String} {fault : Fault}
    (hcheck : s.check path = .error fault)
    (hfault : forall found, fault ≠ .definition (.inconsistent found)) :
    ¬ s.ChecksExactly path := by
  intro hexact
  rcases hexact with ⟨found, _hlists, haccepted, hrefused, _hmessage⟩
  rw [hcheck] at haccepted hrefused
  have hsome : ¬ forall site d,
      ¬ Defective s (if path = "" then "<root>" else path) site d := by
    intro hnone
    cases haccepted.mpr hnone
  simp only [not_forall, not_not] at hsome
  injection hrefused.mpr hsome with hsame
  exact hfault found hsame

/-- The check is exact for just those trees whose enumerations list values that have a hash.  For
every other tree it ends with the fault of a value that has none, whatever its defects are. -/
theorem checksExactly_iff (s : Schema) (path : String) :
    (s.ChecksExactly path <-> Everywhere ListsHashable s) ∧
      (s.check path = .error .wrongType <-> ¬ Everywhere ListsHashable s) := by
  have hends := defects_ends s (if path.isEmpty then rootPath else path)
  rw [← defectsAt] at hends
  cases hwalk : s.defectsAt path with
  | ok found =>
      rw [hwalk] at hends
      cases hends with
      | found hhashable =>
          refine ⟨iff_of_true (checksExactly_of_defectsAt hwalk) hhashable,
            iff_of_false ?_ (not_not.mpr hhashable)⟩
          rw [check, hwalk]
          cases found <;> intro h <;> cases h
  | error fault =>
      rw [hwalk] at hends
      cases hends with
      | stopped hnot =>
          have hcheck : s.check path = .error .wrongType := by
            rw [check, hwalk]
            rfl
          refine ⟨iff_of_false ?_ hnot, iff_of_true hcheck hnot⟩
          exact not_checksExactly_of_stopped hcheck (fun found h => by cases h)

def draft : Schema :=
  .object .fresh [("tags", string), ("tags", .array .fresh none),
    ("state", .enumeration .fresh [.int 1, .bool true]), ("author", .foreign (.int 1))]

theorem draft_checksExactly :
    Everywhere ListsHashable draft ∧ draft.ChecksExactly "" ∧
      (draft.defectsAt "").map (List.map Defect.text) =
        .ok ["<root>: duplicate field 'tags'", "tags: array has no element schema",
          "state: enum has duplicate values", "author: expected a schema node, got int"] := by
  have hhashable : Everywhere ListsHashable draft := by
    refine Everywhere.object trivial ?_
    simp only [List.forall_mem_cons]
    refine ⟨?_, ?_, ?_, ?_, fun f hf => absurd hf List.not_mem_nil⟩
    · exact Everywhere.leaf trivial (by simp [string, ofKind]) (by simp [string, ofKind])
    · exact Everywhere.leaf trivial (by simp) (by simp)
    · exact Everywhere.leaf (areHashable_iff.mp rfl) (by simp) (by simp)
    · exact Everywhere.leaf trivial (by simp) (by simp)
  exact ⟨hhashable, (checksExactly_iff draft "").left.mpr hhashable, by with_unfolding_all rfl⟩

/-- Lists have no hash, so one that comes again is not reported. -/
theorem repeatedList_unreported :
    Defective (.enumeration .fresh [.list [], .list []]) "<root>" []
        ⟨"<root>", .repeatedEnumValue⟩ ∧
      check (.enumeration .fresh [.list [], .list []]) "" = .error .wrongType ∧
      ¬ ChecksExactly (.enumeration .fresh [.list [], .list []]) "" := by
  have hcheck : check (.enumeration .fresh [.list [], .list []]) "" = .error .wrongType := by
    with_unfolding_all rfl
  refine ⟨?_, hcheck, not_checksExactly_of_stopped hcheck (fun found h => by cases h)⟩
  exact .repeatedValue Nat.zero_lt_one rfl rfl (by with_unfolding_all rfl)

end Schema
end ContentSchema
