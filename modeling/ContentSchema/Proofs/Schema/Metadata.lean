import ContentSchema.Proofs.Schema.Tree
import ContentSchema.Schema.Consistency
import ContentSchema.Validation.Result

/-!
# Schemas without their metadata

Metadata stands beside a schema and is looked at neither by validation nor by the check of a
tree.  So a schema and what is left of it without the metadata at any place have the same
outcomes and the same defects, and so have two schemas that differ in nothing but metadata.
-/

namespace ContentSchema

def Attributes.withoutMetadata (a : Attributes) : Attributes :=
  { a with metadata := [] }

namespace Schema

mutual

def withoutMetadata : Schema -> Schema
  | .primitive a kind constraints => .primitive a.withoutMetadata kind constraints
  | .enumeration a values => .enumeration a.withoutMetadata values
  | .object a fields => .object a.withoutMetadata (fieldsWithoutMetadata fields)
  | .array a none => .array a.withoutMetadata none
  | .array a (some element) => .array a.withoutMetadata (some element.withoutMetadata)
  | .bare a => .bare a.withoutMetadata
  | .foreign v => .foreign v

def fieldsWithoutMetadata : List (String × Schema) -> List (String × Schema)
  | [] => []
  | (name, child) :: rest => (name, child.withoutMetadata) :: fieldsWithoutMetadata rest

end

/-- The two trees have the same schemas at the same places, with the same attributes except for
metadata. -/
def SameButMetadata (s t : Schema) : Prop :=
  s.withoutMetadata = t.withoutMetadata

@[simp] theorem attributes?_withoutMetadata (s : Schema) :
    s.withoutMetadata.attributes? = s.attributes?.map Attributes.withoutMetadata := by
  cases s with
  | array a element =>
      cases element <;> simp [withoutMetadata, attributes?]
  | _ =>
      simp [withoutMetadata, attributes?]

/-!
## Validation
-/

theorem examineFields_withoutMetadata {fields : List (String × Schema)}
    (h : forall f, f ∈ fields -> forall raw path,
      f.2.withoutMetadata.examine raw path = f.2.examine raw path)
    (entries : List (Value × Value)) (path : String) :
    examineFields (fieldsWithoutMetadata fields) entries path =
      examineFields fields entries path := by
  induction fields with
  | nil =>
      rw [fieldsWithoutMetadata]
  | cons f rest ih =>
      rcases List.forall_mem_cons.mp h with ⟨hfirst, hrest⟩
      rw [fieldsWithoutMetadata, examineFields, examineFields, attributes?_withoutMetadata,
        ih hrest]
      cases f.2.attributes? with
      | none =>
          rfl
      | some a =>
          simp only [Option.map_some, hfirst]
          rfl

@[simp] theorem examine_withoutMetadata (s : Schema) (raw : Value) (path : String) :
    s.withoutMetadata.examine raw path = s.examine raw path := by
  induction s using tree_induction generalizing raw path with
  | primitive a kind constraints =>
      simp only [withoutMetadata, examine]
  | enumeration a values =>
      simp only [withoutMetadata, examine]
  | object a fields ih =>
      simp only [withoutMetadata, examine, examineFields_withoutMetadata ih]
  | missing a =>
      simp only [withoutMetadata, examine]
  | array a element ih =>
      simp only [withoutMetadata, examine, ih]
  | bare a =>
      simp only [withoutMetadata, examine]
  | foreign v =>
      simp only [withoutMetadata]

@[simp] theorem validate_withoutMetadata (s : Schema) (raw : Value) :
    s.withoutMetadata.validate raw = s.validate raw := by
  rw [validate, validate, attributes?_withoutMetadata, examine_withoutMetadata]
  cases s.attributes? <;> rfl

/-!
## Defects
-/

theorem fieldDefects_withoutMetadata {fields : List (String × Schema)}
    (h : forall f, f ∈ fields -> forall path, f.2.withoutMetadata.defects path = f.2.defects path)
    (seen : List String) (path : String) :
    fieldDefects seen (fieldsWithoutMetadata fields) path = fieldDefects seen fields path := by
  induction fields generalizing seen with
  | nil =>
      rw [fieldsWithoutMetadata]
  | cons f rest ih =>
      rcases List.forall_mem_cons.mp h with ⟨hfirst, hrest⟩
      rw [fieldsWithoutMetadata, fieldDefects, fieldDefects, hfirst, ih hrest]

@[simp] theorem defects_withoutMetadata (s : Schema) (path : String) :
    s.withoutMetadata.defects path = s.defects path := by
  induction s using tree_induction generalizing path with
  | primitive a kind constraints =>
      simp only [withoutMetadata, defects]
  | enumeration a values =>
      simp only [withoutMetadata, defects]
  | object a fields ih =>
      simp only [withoutMetadata, defects, fieldDefects_withoutMetadata ih]
  | missing a =>
      simp only [withoutMetadata, defects]
  | array a element ih =>
      simp only [withoutMetadata, defects, ih]
  | bare a =>
      simp only [withoutMetadata, defects]
  | foreign v =>
      simp only [withoutMetadata]

namespace SameButMetadata

variable {s t : Schema}

theorem validate_eq (h : s.SameButMetadata t) (raw : Value) : s.validate raw = t.validate raw := by
  rw [← validate_withoutMetadata s, h, validate_withoutMetadata]

theorem defectsAt_eq (h : s.SameButMetadata t) (path : String) :
    s.defectsAt path = t.defectsAt path := by
  rw [defectsAt, ← defects_withoutMetadata, h, defects_withoutMetadata, defectsAt]

theorem check_eq (h : s.SameButMetadata t) (path : String) :
    (s.check path).map (fun _ => ()) = (t.check path).map (fun _ => ()) := by
  rw [check, check, h.defectsAt_eq]
  cases t.defectsAt path with
  | error fault =>
      rfl
  | ok found =>
      cases found <;> rfl

end SameButMetadata
end Schema
end ContentSchema
