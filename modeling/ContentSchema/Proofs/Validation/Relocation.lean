import ContentSchema.Proofs.Schema.Shape
import ContentSchema.Proofs.Validation.Places

/-!
# Relocation

Validation threads the path of the current place through every call.  Nothing but the paths of
errors depends on it: what is found at a place further down is what is found at the document
itself, with every path moved below the place.  A path that starts with an index follows the
place at once and any other path after a point, so that names of fields must not look like an
index.
-/

namespace ContentSchema

/-!
## Paths below a place
-/

namespace FieldPath

/-- The path starts with an index. -/
def StartsWithIndex (path : String) : Prop :=
  path.toList.head? = some '['

instance (path : String) : Decidable (StartsWithIndex path) :=
  inferInstanceAs (Decidable (_ = _))

/-- The path as it reads below the given place. -/
def under (place path : String) : String :=
  if path = "" then place
  else if place = "" ∨ StartsWithIndex path then place ++ path
  else place ++ "." ++ path

@[simp] theorem under_empty {place : String} : under place "" = place := by
  rw [under, if_pos rfl]

@[simp] theorem joinField_document {name : String} : joinField "" name = name :=
  rfl

theorem joinField_below {parent name : String} (h : parent ≠ "") :
    joinField parent name = parent ++ ("." ++ name) := by
  have hfilled : ¬ parent.isEmpty = true := by
    rw [String.isEmpty_iff]
    exact h
  rw [joinField, if_neg hfilled, String.append_assoc]

theorem joinIndex_eq_append (parent : String) (index : Int) :
    joinIndex parent index = parent ++ joinIndex "" index := by
  rw [joinIndex, joinIndex, String.empty_append, String.append_assoc, String.append_assoc,
    String.append_assoc]

theorem startsWithIndex_append {path rest : String} (h : path ≠ "") :
    StartsWithIndex (path ++ rest) <-> StartsWithIndex path := by
  have hchars : path.toList ≠ [] := by
    rw [ne_eq, String.toList_eq_nil_iff]
    exact h
  rw [StartsWithIndex, StartsWithIndex, String.toList_append, List.head?_append_of_ne_nil _ hchars]

theorem startsWithIndex_joinIndex {index : Int} : StartsWithIndex (joinIndex "" index) := by
  rw [joinIndex, String.empty_append, StartsWithIndex, String.toList_append, String.toList_append]
  rfl

theorem ne_empty_of_startsWithIndex {path : String} (h : StartsWithIndex path) : path ≠ "" := by
  intro hpath
  rw [hpath] at h
  cases h

theorem under_append {place path rest : String} (h : path ≠ "") :
    under place (path ++ rest) = under place path ++ rest := by
  have hmore : path ++ rest ≠ "" := by
    intro heq
    exact h (String.append_eq_empty_iff.mp heq).left
  simp only [under, if_neg h, if_neg hmore, startsWithIndex_append h]
  split
  · rw [String.append_assoc]
  · rw [← String.append_assoc]

theorem under_ne_empty {place path : String} (h : path ≠ "") : under place path ≠ "" := by
  intro heq
  rw [under, if_neg h] at heq
  split at heq
  · exact h (String.append_eq_empty_iff.mp heq).right
  · exact h (String.append_eq_empty_iff.mp heq).right

theorem joinField_under {place path name : String} (hfilled : name ≠ "")
    (hplain : ¬ StartsWithIndex name) :
    joinField (under place path) name = under place (joinField path name) := by
  by_cases hpath : path = ""
  · rw [hpath, under_empty, joinField_document, under, if_neg hfilled]
    by_cases hplace : place = ""
    · rw [if_pos (Or.inl hplace), hplace, joinField_document, String.empty_append]
    · rw [if_neg (not_or.mpr ⟨hplace, hplain⟩), joinField_below hplace, String.append_assoc]
  · rw [joinField_below (under_ne_empty hpath), joinField_below hpath, under_append hpath]

theorem joinIndex_under {place path : String} {index : Int} :
    joinIndex (under place path) index = under place (joinIndex path index) := by
  by_cases hpath : path = ""
  · rw [hpath, under_empty, under, if_neg (ne_empty_of_startsWithIndex startsWithIndex_joinIndex),
      if_pos (Or.inr startsWithIndex_joinIndex), joinIndex_eq_append place]
  · rw [joinIndex_eq_append (under place path), joinIndex_eq_append path, under_append hpath]

end FieldPath

/-!
## Findings below a place

Only the paths of errors are moved; category, message, constraint and offending value stay.
-/

def FieldError.under (place : String) (e : FieldError) : FieldError :=
  { e with path := FieldPath.under place e.path }

def Findings.under (place : String) (found : Findings) : Findings :=
  ⟨found.value, found.errors.map (FieldError.under place)⟩

def partUnder {α : Type} (place : String) (part : α × List FieldError) : α × List FieldError :=
  (part.1, part.2.map (FieldError.under place))

namespace Schema

variable {place path : String}

theorem violations_under {constraints : List Constraint} {typed raw : Value} :
    violations constraints typed raw (FieldPath.under place path) =
      (violations constraints typed raw path).map (List.map (FieldError.under place)) := by
  induction constraints with
  | nil =>
      rfl
  | cons c rest ih =>
      simp only [violations, ih]
      cases c.check typed with
      | error fault =>
          rfl
      | ok passed =>
          cases violations rest typed raw path with
          | error fault =>
              rfl
          | ok later =>
              cases passed <;> rfl

@[simp] theorem uncoerced_under {kind : PrimitiveKind} {raw : Value} :
    uncoerced kind raw (FieldPath.under place path) =
      (uncoerced kind raw path).under place := by
  cases kind <;> cases raw <;> rfl

theorem examinePrimitive_under {kind : PrimitiveKind} {constraints : List Constraint}
    {raw : Value} :
    examinePrimitive kind constraints raw (FieldPath.under place path) =
      (examinePrimitive kind constraints raw path).map (Findings.under place) := by
  simp only [examinePrimitive]
  cases coerce? kind raw with
  | none =>
      exact congrArg Except.ok uncoerced_under
  | some typed =>
      simp only [violations_under]
      cases violations constraints typed raw path <;> rfl

theorem examineEnumeration_under {values : List Value} {raw : Value} :
    examineEnumeration values raw (FieldPath.under place path) =
      (examineEnumeration values raw path).map (Findings.under place) := by
  cases raw with
  | text t =>
      simp only [examineEnumeration]
      split
      · rfl
      · cases listedTexts values <;> rfl
  | _ =>
      rfl

/-- The names of the fields of an object do not look like an index. -/
def PlainNames : Schema -> Prop
  | .object _ fields => forall name, name ∈ fieldNames fields -> ¬ FieldPath.StartsWithIndex name
  | _ => True

theorem examineField_under {entries : List (Value × Value)} {f : String × Schema}
    (hfilled : f.1 ≠ "") (hplain : ¬ FieldPath.StartsWithIndex f.1)
    (h : forall raw path, f.2.examine raw (FieldPath.under place path) =
      (f.2.examine raw path).map (Findings.under place)) :
    examineField entries (FieldPath.under place path) f =
      (examineField entries path f).map (partUnder place) := by
  simp only [examineField, FieldPath.joinField_under hfilled hplain]
  cases candidate? entries f.1 with
  | some raw =>
      simp only [h]
      cases f.2.examine raw (FieldPath.joinField path f.1) <;> rfl
  | none =>
      simp only
      split <;> rfl

theorem examineFields_under {fields : List (String × Schema)} {entries : List (Value × Value)}
    (hfields : forall f, f ∈ fields -> f.2.isSchema = true)
    (h : forall f, f ∈ fields -> examineField entries (FieldPath.under place path) f =
      (examineField entries path f).map (partUnder place)) :
    examineFields fields entries (FieldPath.under place path) =
      (examineFields fields entries path).map (partUnder place) := by
  induction fields with
  | nil =>
      rfl
  | cons f rest ih =>
      rcases List.forall_mem_cons.mp hfields with ⟨hf, hrest⟩
      rcases List.forall_mem_cons.mp h with ⟨hfield, hothers⟩
      rw [examineFields_cons hf, examineFields_cons hf, hfield, ih hrest hothers]
      cases examineField entries path f with
      | error fault =>
          rfl
      | ok part =>
          cases examineFields rest entries path with
          | error fault =>
              rfl
          | ok later =>
              exact congrArg Except.ok (Prod.ext rfl List.map_append.symm)

theorem examineItems_under {examine : Value -> String -> Answer Findings}
    (h : forall item path, examine item (FieldPath.under place path) =
      (examine item path).map (Findings.under place)) {index : Nat} {items : List Value} :
    examineItems examine (FieldPath.under place path) index items =
      (examineItems examine path index items).map (partUnder place) := by
  induction items generalizing index with
  | nil =>
      rfl
  | cons item rest ih =>
      simp only [examineItems, FieldPath.joinIndex_under, h, ih]
      cases examine item (FieldPath.joinIndex path index) with
      | error fault =>
          rfl
      | ok found =>
          cases examineItems examine path (index + 1) rest with
          | error fault =>
              rfl
          | ok later =>
              exact congrArg Except.ok (Prod.ext rfl List.map_append.symm)

/-- What examination finds at a place is what it finds at the document, moved below it. -/
theorem examine_under {s : Schema} {raw : Value} (hs : Everywhere WellFormed s)
    (hplain : Everywhere PlainNames s) :
    s.examine raw (FieldPath.under place path) =
      (s.examine raw path).map (Findings.under place) := by
  induction s using tree_induction generalizing raw path with
  | primitive a kind constraints =>
      exact examinePrimitive_under
  | enumeration a values =>
      exact examineEnumeration_under
  | object a fields ih =>
      cases raw with
      | mapping entries =>
          have hfields : forall f, f ∈ fields ->
              examineField entries (FieldPath.under place path) f =
                (examineField entries path f).map (partUnder place) := by
            intro f hf
            exact examineField_under (hs.self.shape.right _ (name_mem hf))
              (hplain.self _ (name_mem hf))
              (fun _ _ => ih f hf (hs.field hf) (hplain.field hf))
          simp only [examine, examineFields_under (fields_areSchemas hs) hfields]
          cases examineFields fields entries path <;> rfl
      | _ =>
          simp only [examine]
          rfl
  | missing a =>
      cases hs.self.shape
  | array a element ih =>
      have helement : forall item path, element.examine item (FieldPath.under place path) =
          (element.examine item path).map (Findings.under place) :=
        fun _ _ => ih hs.element hplain.element
      cases hitems : sequenceItems? raw with
      | none =>
          simp only [examine, hitems]
          rfl
      | some items =>
          simp only [examine, hitems, examineItems_under helement]
          cases examineItems (fun v p => element.examine v p) path 0 items <;> rfl
  | bare a =>
      exact hs.self.shape.elim
  | foreign v =>
      exact hs.self.shape.elim

theorem examine_at_eq_ok {s : Schema} {raw : Value} {found : Findings}
    (hs : Everywhere WellFormed s) (hplain : Everywhere PlainNames s) :
    s.examine raw place = .ok found <->
      exists own, s.examine raw "" = .ok own ∧ found = own.under place := by
  have hmoved : s.examine raw place = (s.examine raw "").map (Findings.under place) := by
    rw [← examine_under hs hplain, FieldPath.under_empty]
  rw [hmoved]
  cases s.examine raw "" <;> simp [Except.map, eq_comm]

end Schema
end ContentSchema
