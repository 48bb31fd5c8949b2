import ContentSchema.Proofs.Content.Harvest

/-!
# Files that stop the reading

Of a file that is no raw record there is a reason why it is none, with one exception.  A scalar
that has the form of a date or of a number but denotes none, or an escape that stands for no
character, stops the reading of YAML with a fault that is no complaint about the document.  This
fault is passed on.
-/

namespace ContentSchema

/-- There is an answer, or a complaint about a document. -/
def Answer.Settles {α : Type} (x : Answer α) : Prop :=
  Succeeds x ∨ exists path cause, x = .error (.unreadable path cause)

theorem Answer.settles_bind_pure {α β : Type} {x : Answer α} {f : α -> β} :
    Settles (x >>= fun a => pure (f a)) <-> Settles x := by
  refine or_congr succeeds_bind_pure ?_
  cases x with
  | error fault =>
      show (exists path cause, Except.error fault = _) <-> _
      simp only [Except.error.injEq]
  | ok a =>
      constructor <;> (intro h; rcases h with ⟨path, cause, h⟩; cases h)

namespace RawDocument

theorem textOf_file {l : Location} (hplain : Char.ofNat 0 ∉ l.text.toList)
    (contents : List UInt8) :
    textOf l (some (.file contents)) =
      match String.fromUTF8? ⟨contents.toArray⟩ with
      | some s => .ok (Text.normalizeNewlines s.toList)
      | none =>
          .error (.unreadable l.text (.unavailable "the text is not encoded in UTF-8")) := by
  have hcontains : ¬ l.text.toList.contains (Char.ofNat 0) = true := by
    simpa using hplain
  exact if_neg hcontains

variable [YamlReader]

/-- Reading the text is stopped by a fault that is no complaint about the document. -/
def Halts (text : List Char) : Prop :=
  exists fault, YamlReader.read text = .error (.stopped fault) ∧
    forall path cause, fault ≠ .unreadable path cause

theorem settles_entriesOf_iff (l : Location) (text : List Char) :
    Answer.Settles (entriesOf l text) <-> ¬ Halts text := by
  unfold entriesOf
  cases hread : YamlReader.read text with
  | ok value =>
      refine iff_of_true ?_ ?_
      · cases value with
        | null => exact Or.inl ⟨_, rfl⟩
        | mapping entries => exact Or.inl ⟨_, rfl⟩
        | _ => exact Or.inr ⟨_, _, rfl⟩
      · intro h
        rcases h with ⟨fault, hfault, _hother⟩
        rw [hread] at hfault
        cases hfault
  | error failure =>
      cases failure with
      | malformed =>
          refine iff_of_true (Or.inr ⟨_, _, rfl⟩) ?_
          intro h
          rcases h with ⟨fault, hfault, _hother⟩
          rw [hread] at hfault
          cases hfault
      | stopped fault =>
          constructor
          · intro h hhalts
            rcases hhalts with ⟨other, hother, hnot⟩
            rw [hread] at hother
            injection hother with hother
            injection hother with hother
            rcases h with ⟨entries, h⟩ | ⟨path, cause, h⟩
            · cases h
            · injection h with h
              rw [← hother, h] at hnot
              exact hnot path cause rfl
          · intro h
            by_cases hcomplaint : exists path cause, fault = .unreadable path cause
            · rcases hcomplaint with ⟨path, cause, hcomplaint⟩
              rw [hcomplaint]
              exact Or.inr ⟨path, cause, rfl⟩
            · refine absurd ⟨fault, hread, ?_⟩ h
              intro path cause hfault
              exact hcomplaint ⟨path, cause, hfault⟩

/-- What of a text is read as YAML: the whole text, or the frontmatter if there is one. -/
def yamlIn? (l : Location) (text : List Char) : Option (List Char) :=
  match Format.ofSuffix? l.suffix with
  | some .yaml => some text
  | some .markdown =>
      let frontmatter := (Frontmatter.split text).frontmatter
      if frontmatter.isEmpty then none else some frontmatter
  | none => none

def yamlOf? (l : Location) (contents : List UInt8) : Option (List Char) :=
  (String.fromUTF8? ⟨contents.toArray⟩).bind (fun s => yamlIn? l (Text.normalizeNewlines s.toList))

def recordOf (l : Location) (text : List Char) (kind : CollectionKind) : Answer RawDocument :=
  match Format.ofSuffix? l.suffix with
  | some .yaml => return ⟨l, ← entriesOf l text, none⟩
  | some .markdown =>
      let sections := Frontmatter.split text
      let entries :=
        if sections.frontmatter.isEmpty then pure [] else entriesOf l sections.frontmatter
      entries >>= fun entries => return ⟨l,
        if kind = .page then withBody entries sections.body else entries,
        some (String.ofList sections.body)⟩
  | none => .error (.unreadable l.text .unsupportedSuffix)

theorem read_file {l : Location} (hplain : Char.ofNat 0 ∉ l.text.toList)
    (contents : List UInt8) (kind : CollectionKind) :
    read l (some (.file contents)) (.ok kind) =
      match String.fromUTF8? ⟨contents.toArray⟩ with
      | some s => recordOf l (Text.normalizeNewlines s.toList) kind
      | none =>
          .error (.unreadable l.text (.unavailable "the text is not encoded in UTF-8")) := by
  rw [read, textOf_file hplain]
  cases String.fromUTF8? ⟨contents.toArray⟩ with
  | none =>
      rfl
  | some s =>
      unfold recordOf
      simp only [bind, Except.bind]
      generalize Text.normalizeNewlines s.toList = text
      cases Format.ofSuffix? l.suffix with
      | none =>
          rfl
      | some format =>
          cases format with
          | yaml =>
              rfl
          | markdown =>
              generalize Frontmatter.split text = sections
              cases hempty : sections.frontmatter.isEmpty <;> rfl

theorem settles_recordOf_iff (l : Location) (text : List Char) (kind : CollectionKind) :
    Answer.Settles (recordOf l text kind) <->
      ¬ exists yaml, yamlIn? l text = some yaml ∧ Halts yaml := by
  unfold recordOf yamlIn?
  cases Format.ofSuffix? l.suffix with
  | none =>
      exact iff_of_true (Or.inr ⟨l.text, .unsupportedSuffix, rfl⟩) (by simp)
  | some format =>
      cases format with
      | yaml =>
          simp only [Option.some.injEq, exists_eq_left']
          exact Answer.settles_bind_pure.trans (settles_entriesOf_iff l text)
      | markdown =>
          generalize Frontmatter.split text = sections
          simp only [Answer.settles_bind_pure]
          by_cases hempty : sections.frontmatter.isEmpty = true
          · simp only [hempty, if_true]
            exact iff_of_true (Or.inl ⟨[], rfl⟩) (by simp)
          · simp only [hempty, Bool.false_eq_true, if_false, Option.some.injEq, exists_eq_left']
            exact settles_entriesOf_iff l _

theorem settles_read_iff {l : Location} (hplain : Char.ofNat 0 ∉ l.text.toList)
    (contents : List UInt8) (kind : CollectionKind) :
    Answer.Settles (read l (some (.file contents)) (.ok kind)) <->
      ¬ exists yaml, yamlOf? l contents = some yaml ∧ Halts yaml := by
  rw [read_file hplain, yamlOf?]
  cases String.fromUTF8? ⟨contents.toArray⟩ with
  | none =>
      exact iff_of_true (Or.inr ⟨l.text, _, rfl⟩) (by simp)
  | some s =>
      rw [Option.bind_some]
      exact settles_recordOf_iff l _ kind

end RawDocument

/-!
## Found files
-/

namespace ContentFolder

variable [YamlReader]

/-- What is read as YAML of the found file halts the reading. -/
def Stalls (folder : ContentFolder) (f : Found) : Prop :=
  exists yaml, RawDocument.yamlOf? (folder.locationOf f) f.file.contents = some yaml ∧
    RawDocument.Halts yaml

theorem succeeds_reading_iff {folder : ContentFolder} {r : Registry} {f : Found} {d : Descriptor}
    (hd : r.resolve f.owner = .ok d)
    (hplain : Char.ofNat 0 ∉ (folder.locationOf f).text.toList) :
    Answer.Succeeds (folder.reading r f) <-> ¬ folder.Stalls f := by
  rw [Stalls, ← RawDocument.settles_read_iff hplain f.file.contents d.kind, reading, hd]
  cases hread : RawDocument.read (folder.locationOf f) (some (.file f.file.contents))
      (.ok d.kind) with
  | ok raw =>
      simp only [bind, Except.bind, hread]
      exact iff_of_true ⟨_, rfl⟩ (Or.inl ⟨_, rfl⟩)
  | error fault =>
      simp only [bind, Except.bind, hread]
      cases fault with
      | unreadable path cause =>
          exact iff_of_true ⟨_, rfl⟩ (Or.inr ⟨path, cause, rfl⟩)
      | _ =>
          refine iff_of_false (Answer.not_succeeds_error _) ?_
          intro h
          rcases h with ⟨_raw, h⟩ | ⟨path, cause, h⟩ <;> cases h

end ContentFolder
end ContentSchema
