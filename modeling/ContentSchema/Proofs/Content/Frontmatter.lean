import ContentSchema.Content.Frontmatter
import ContentSchema.Proofs.Text.Lines
import Mathlib.Data.List.TakeWhile

/-!
# Frontmatter and body

Splitting a text with a block is the inverse of putting the text together from the lines of the
block and of the body, and a text without a complete block is all body.  The two parts are
stretches of the text, but with a line feed for each boundary in them: a part is copied
character for character exactly when its stretch has no other boundary.
-/

namespace ContentSchema
namespace Frontmatter

open Text (IsLine Spells OnlyLineFeeds joinLines splitLines trimBlanks withLineFeeds extent)

/-!
## Layouts
-/

def IsFenceLine (line : List Char) : Prop :=
  trimBlanks line = ['-', '-', '-']

instance (line : List Char) : Decidable (IsFenceLine line) :=
  inferInstanceAs (Decidable (trimBlanks line = ['-', '-', '-']))

/-- The lines of a text with a block: the first fence, the lines of the frontmatter, the second
fence, blank lines, and the lines of the body. -/
structure Layout where
  opening : List Char
  frontmatter : List (List Char)
  closing : List Char
  gap : List (List Char)
  body : List (List Char)
  opens : IsFenceLine opening
  inside : forall line, line ∈ frontmatter -> ¬ IsFenceLine line
  closes : IsFenceLine closing
  blank : forall line, line ∈ gap -> forall c, c ∈ line -> Text.isBlank c = true
  filled : forall line, body.head? = some line -> exists c, c ∈ line ∧ Text.isBlank c = false

namespace Layout

def lines (l : Layout) : List (List Char) :=
  l.opening :: (l.frontmatter ++ l.closing :: (l.gap ++ l.body))

def frontmatterPlace (l : Layout) : Nat :=
  extent [l.opening]

def bodyPlace (l : Layout) : Nat :=
  extent (l.opening :: (l.frontmatter ++ l.closing :: l.gap))

/-- What stands in a text at the place of the frontmatter, as long as the frontmatter is. -/
def frontmatterStretch (l : Layout) (content : List Char) : List Char :=
  (content.drop l.frontmatterPlace).take (joinLines l.frontmatter).length

def bodyStretch (l : Layout) (content : List Char) : List Char :=
  (content.drop l.bodyPlace).take (joinLines l.body).length

end Layout

@[simp] theorem isFence_iff {line : List Char} : isFence line = true <-> IsFenceLine line :=
  decide_eq_true_iff

@[simp] theorem isFence_eq_false_iff {line : List Char} :
    isFence line = false <-> ¬ IsFenceLine line := by
  rw [← Bool.not_eq_true, isFence_iff]

theorem IsFenceLine.ne_nil {line : List Char} (h : IsFenceLine line) : line ≠ [] := by
  intro hnil
  rw [hnil] at h
  cases h

/-!
## Splitting
-/

theorem takeWhile_not_fence {inner outer : List (List Char)} {closing : List Char}
    (hinside : forall line, line ∈ inner -> ¬ IsFenceLine line) (hcloses : IsFenceLine closing) :
    (inner ++ closing :: outer).takeWhile (fun line => !isFence line) = inner := by
  rw [List.takeWhile_append_of_pos, List.takeWhile_cons_of_neg, List.append_nil]
  · rw [isFence_iff.mpr hcloses]
    exact Bool.false_ne_true
  · intro line hline
    rw [Bool.not_eq_true', isFence_eq_false_iff]
    exact hinside line hline

theorem withoutLeadingBlanks_append {gap body : List (List Char)}
    (hblank : forall line, line ∈ gap -> forall c, c ∈ line -> Text.isBlank c = true)
    (hfilled : forall line, body.head? = some line ->
      exists c, c ∈ line ∧ Text.isBlank c = false) :
    withoutLeadingBlanks (gap ++ body) = body := by
  rw [withoutLeadingBlanks, List.dropWhile_append_of_pos]
  · cases body with
    | nil =>
        rfl
    | cons line rest =>
        rcases hfilled line rfl with ⟨c, hc, hfilled⟩
        refine List.dropWhile_cons_of_neg (fun hall => ?_)
        rw [List.all_eq_true.mp hall c hc] at hfilled
        cases hfilled
  · intro line hline
    exact List.all_eq_true.mpr (hblank line hline)

theorem sectionsOf?_eq_some {inner gap body : List (List Char)} {closing : List Char}
    (hinside : forall line, line ∈ inner -> ¬ IsFenceLine line) (hcloses : IsFenceLine closing)
    (hblank : forall line, line ∈ gap -> forall c, c ∈ line -> Text.isBlank c = true)
    (hfilled : forall line, body.head? = some line ->
      exists c, c ∈ line ∧ Text.isBlank c = false) :
    sectionsOf? (inner ++ closing :: (gap ++ body)) = some ⟨joinLines inner, joinLines body⟩ := by
  simp only [sectionsOf?, takeWhile_not_fence hinside hcloses, List.drop_left,
    withoutLeadingBlanks_append hblank hfilled]

theorem split_of_layout {content : List Char} (l : Layout) (h : splitLines content = l.lines) :
    split content = ⟨joinLines l.frontmatter, joinLines l.body⟩ := by
  simp only [split, h, Layout.lines, isFence_iff.mpr l.opens, if_true,
    sectionsOf?_eq_some l.inside l.closes l.blank l.filled, Option.getD_some]

/-- A text is fenced when its first line is a fence and a later one is. -/
def IsFenced (content : List Char) : Prop :=
  exists first rest, splitLines content = first :: rest ∧ IsFenceLine first ∧
    exists line, line ∈ rest ∧ IsFenceLine line

theorem split_of_not_fenced {content : List Char} (h : ¬ IsFenced content) :
    split content = ⟨[], content⟩ := by
  unfold split
  split
  · rename_i first rest hlines
    split
    · rename_i hfirst
      have hnone : sectionsOf? rest = none := by
        have hall : rest.takeWhile (fun line => !isFence line) = rest := by
          refine List.takeWhile_eq_self_iff.mpr (fun line hline => ?_)
          rw [Bool.not_eq_true', isFence_eq_false_iff]
          exact fun hfence => h ⟨first, rest, hlines, isFence_iff.mp hfirst, line, hline, hfence⟩
        simp only [sectionsOf?, hall, List.drop_length]
      rw [hnone]
      rfl
    · rfl
  · rfl

/-- A fenced text is cut into the lines of a layout: the second fence is the first one behind the
opening fence, and the body begins with the first line behind it that is not blank. -/
theorem IsFenced.exists_layout {content : List Char} (h : IsFenced content) :
    exists l : Layout, splitLines content = l.lines := by
  rcases h with ⟨opening, rest, hlines, hopens, fence, hmem, hfence⟩
  cases hbehind : rest.dropWhile (fun line => !isFence line) with
  | nil =>
      have hnone := List.dropWhile_eq_nil_iff.mp hbehind fence hmem
      rw [isFence_iff.mpr hfence] at hnone
      cases hnone
  | cons closing outer =>
      have hcloses : isFence closing = true := by
        have hstop := List.head?_dropWhile_not (fun line => !isFence line) rest
        rw [hbehind] at hstop
        simpa using hstop
      refine ⟨⟨opening, rest.takeWhile (fun line => !isFence line), closing,
        outer.takeWhile (fun line => line.all Text.isBlank),
        outer.dropWhile (fun line => line.all Text.isBlank), hopens, ?_,
        isFence_iff.mp hcloses, ?_, ?_⟩, ?_⟩
      · intro line hline
        have hopen := List.mem_takeWhile_imp hline
        rw [Bool.not_eq_true', isFence_eq_false_iff] at hopen
        exact hopen
      · intro line hline
        have hblank := List.mem_takeWhile_imp hline
        exact List.all_eq_true.mp hblank
      · intro line hhead
        have hstop := List.head?_dropWhile_not (fun line => line.all Text.isBlank) outer
        rw [hhead] at hstop
        rcases List.all_eq_false.mp hstop with ⟨c, hc, hblank⟩
        exact ⟨c, hc, (Bool.not_eq_true _).mp hblank⟩
      · rw [hlines, Layout.lines, List.takeWhile_append_dropWhile, ← hbehind,
          List.takeWhile_append_dropWhile]

/-!
## Putting a text together
-/

theorem Layout.getLast?_lines (l : Layout) :
    l.lines.getLast? = some ((l.gap ++ l.body).getLast?.getD l.closing) := by
  rw [lines, List.getLast?_cons, List.getLast?_append, List.getLast?_cons]
  rfl

/-- Without a body, an empty last line is the last of the blank lines, and the text that is joined
from the lines does not show it. -/
theorem Layout.exists_shorter (l : Layout) (hbody : l.body = [])
    (hlast : l.lines.getLast? = some []) :
    exists shorter : Layout, l.lines = shorter.lines ++ [[]] ∧
      shorter.frontmatter = l.frontmatter ∧ shorter.body = l.body := by
  rw [l.getLast?_lines, hbody, List.append_nil, Option.some.injEq] at hlast
  cases hgap : l.gap.getLast? with
  | none =>
      rw [hgap] at hlast
      exact absurd hlast l.closes.ne_nil
  | some line =>
      rw [hgap, Option.getD_some] at hlast
      rw [hlast] at hgap
      rcases List.getLast?_eq_some_iff.mp hgap with ⟨front, hfront⟩
      have hblank : forall line, line ∈ front -> forall c, c ∈ line -> Text.isBlank c = true := by
        intro line hline
        exact l.blank line (by rw [hfront]; exact List.mem_append_left _ hline)
      refine ⟨{ l with gap := front, blank := hblank }, ?_, rfl, rfl⟩
      simp only [lines, hfront, hbody, List.append_nil, List.cons_append, List.append_assoc]

/-- A text that is joined from the lines of a layout is split into the frontmatter and the body.
The lines have no boundary in them, and the last line of the body, if there is a body, is not
empty.  A text whose first line is no fence, or that has no fence behind its first line, is all
body. -/
theorem split_joined :
    (forall l : Layout, (forall line, line ∈ l.lines -> IsLine line) ->
      (forall line, l.body.getLast? = some line -> line ≠ []) ->
      split (joinLines l.lines) = ⟨joinLines l.frontmatter, joinLines l.body⟩) ∧
    (forall content, ¬ IsFenced content -> split content = ⟨[], content⟩) := by
  refine ⟨?_, fun content => split_of_not_fenced⟩
  intro l hlines hend
  by_cases hlast : l.lines.getLast? = some []
  · have hbody : l.body = [] := by
      refine List.getLast?_eq_none_iff.mp (Option.eq_none_iff_forall_ne_some.mpr ?_)
      intro line hline
      rw [l.getLast?_lines, List.getLast?_append, hline] at hlast
      injection hlast with hlast
      exact hend line hline hlast
    rcases l.exists_shorter hbody hlast with ⟨shorter, hshorter, hfrontmatter, hsame⟩
    rw [hshorter] at hlines ⊢
    have hspells := Text.spells_joinLines_concat_nil (fun line hline =>
      hlines line (List.mem_append_left _ hline))
    rw [split_of_layout shorter hspells.splitLines_eq, hfrontmatter, hsame]
  · exact split_of_layout l (Text.spells_joinLines hlines hlast).splitLines_eq

def fencedNote : Layout where
  opening := [' ', '-', '-', '-']
  frontmatter := [['a', ':', ' ', 'b'], []]
  closing := ['-', '-', '-', '\t']
  gap := [[], [' ']]
  body := [['x'], ['-', '-', '-'], [], ['y']]
  opens := by decide
  inside := by decide
  closes := by decide
  blank := by simp [show Text.isBlank ' ' = true by decide]
  filled := by
    intro line hline
    injection hline with hline
    rw [← hline]
    exact ⟨'x', by decide, by decide⟩

theorem fencedNote_split_joined :
    (forall line, line ∈ fencedNote.lines -> IsLine line) ∧
    (forall line, fencedNote.body.getLast? = some line -> line ≠ []) ∧
    joinLines fencedNote.lines = " ---\na: b\n\n---\t\n\n \nx\n---\n\ny".toList ∧
    split (joinLines fencedNote.lines) = ⟨"a: b\n".toList, "x\n---\n\ny".toList⟩ ∧
    ¬ IsFenced "a: b\n\n---\nx".toList ∧
    split "a: b\n\n---\nx".toList = ⟨[], "a: b\n\n---\nx".toList⟩ := by
  have hlines : forall line, line ∈ fencedNote.lines -> IsLine line := by
    decide
  have hend : forall line, fencedNote.body.getLast? = some line -> line ≠ [] := by
    intro line hline
    injection hline with hline
    rw [← hline]
    decide
  have hunfenced : ¬ IsFenced "a: b\n\n---\nx".toList := by
    intro h
    rcases h with ⟨first, rest, hcut, hfirst, _hlater⟩
    have hfirstLine : splitLines "a: b\n\n---\nx".toList =
        [['a', ':', ' ', 'b'], [], ['-', '-', '-'], ['x']] := by decide
    rw [hfirstLine] at hcut
    injection hcut with hcut
    rw [← hcut] at hfirst
    exact absurd hfirst (by decide)
  rcases split_joined with ⟨hjoined, hwhole⟩
  exact ⟨hlines, hend, by decide, hjoined fencedNote hlines hend, hunfenced, hwhole _ hunfenced⟩

/-!
## What is copied
-/

namespace Layout

variable {content : List Char}

theorem frontmatterStretch_infix (l : Layout) : l.frontmatterStretch content <:+: content :=
  (List.take_prefix _ _).isInfix.trans (List.drop_suffix _ _).isInfix

theorem bodyStretch_infix (l : Layout) : l.bodyStretch content <:+: content :=
  (List.take_prefix _ _).isInfix.trans (List.drop_suffix _ _).isInfix

theorem joinLines_frontmatter (l : Layout) (h : Spells content l.lines) :
    joinLines l.frontmatter = withLineFeeds (l.frontmatterStretch content) := by
  have hlines : Spells content ([l.opening] ++ (l.frontmatter ++ l.closing :: (l.gap ++ l.body))) :=
    h
  have hbehind : Spells (content.drop l.frontmatterPlace)
      (l.frontmatter ++ l.closing :: (l.gap ++ l.body)) :=
    hlines.drop_extent
  exact hbehind.joinLines_eq

theorem joinLines_body (l : Layout) (h : Spells content l.lines) :
    joinLines l.body = withLineFeeds (l.bodyStretch content) := by
  have hlines : l.lines = l.opening :: (l.frontmatter ++ l.closing :: l.gap) ++ l.body := by
    simp only [lines, List.cons_append, List.append_assoc]
  rw [hlines] at h
  have hbehind : Spells (content.drop l.bodyPlace) (l.body ++ []) := by
    rw [List.append_nil]
    exact h.drop_extent
  exact hbehind.joinLines_eq

end Layout

/-- A text without carriage returns that has no complete block is all body.  Otherwise the two
parts are the stretches at their places, with a line feed for each boundary; a part is what stands
at its place exactly when this has no boundary but line feeds, and then it occurs in the text. -/
theorem split_copies_iff {content : List Char} (hreturn : '\r' ∉ content) :
    (¬ IsFenced content -> split content = ⟨[], content⟩) ∧
    (IsFenced content -> exists l : Layout, splitLines content = l.lines) ∧
    (forall l : Layout, splitLines content = l.lines ->
      split content = ⟨withLineFeeds (l.frontmatterStretch content),
        withLineFeeds (l.bodyStretch content)⟩ ∧
      ((split content).frontmatter = l.frontmatterStretch content <->
        OnlyLineFeeds (l.frontmatterStretch content)) ∧
      ((split content).body = l.bodyStretch content <->
        OnlyLineFeeds (l.bodyStretch content))) ∧
    ((forall l : Layout, splitLines content = l.lines ->
        OnlyLineFeeds (l.frontmatterStretch content)) ->
      (split content).frontmatter <:+: content) ∧
    ((forall l : Layout, splitLines content = l.lines ->
        OnlyLineFeeds (l.bodyStretch content)) ->
      (split content).body <:+: content) := by
  have hparts : forall l : Layout, splitLines content = l.lines ->
      split content = ⟨withLineFeeds (l.frontmatterStretch content),
        withLineFeeds (l.bodyStretch content)⟩ := by
    intro l hl
    have hspells := Text.spells_splitLines hreturn
    rw [hl] at hspells
    rw [split_of_layout l hl, ← l.joinLines_frontmatter hspells, ← l.joinLines_body hspells]
  refine ⟨split_of_not_fenced, IsFenced.exists_layout, ?_, ?_, ?_⟩
  · intro l hl
    rw [hparts l hl]
    exact ⟨rfl, Text.withLineFeeds_eq_self_iff, Text.withLineFeeds_eq_self_iff⟩
  · intro honly
    by_cases hfenced : IsFenced content
    · rcases hfenced.exists_layout with ⟨l, hl⟩
      rw [hparts l hl, Text.withLineFeeds_eq_self_iff.mpr (honly l hl)]
      exact l.frontmatterStretch_infix
    · rw [split_of_not_fenced hfenced]
      exact List.nil_infix
  · intro honly
    by_cases hfenced : IsFenced content
    · rcases hfenced.exists_layout with ⟨l, hl⟩
      rw [hparts l hl, Text.withLineFeeds_eq_self_iff.mpr (honly l hl)]
      exact l.bodyStretch_infix
    · have hwhole : (split content).body = content := by
        rw [split_of_not_fenced hfenced]
      exact hwhole.symm ▸ List.infix_rfl

theorem plainNote_copied :
    '\r' ∉ "---\na: b\n---\n\nx\n\ny\n".toList ∧
    (forall l : Layout, splitLines "---\na: b\n---\n\nx\n\ny\n".toList = l.lines ->
      OnlyLineFeeds (l.bodyStretch "---\na: b\n---\n\nx\n\ny\n".toList)) ∧
    (split "---\na: b\n---\n\nx\n\ny\n".toList).body = "x\n\ny".toList ∧
    (split "---\na: b\n---\n\nx\n\ny\n".toList).body <:+:
      "---\na: b\n---\n\nx\n\ny\n".toList := by
  have hreturn : '\r' ∉ "---\na: b\n---\n\nx\n\ny\n".toList := by
    decide
  have honly : OnlyLineFeeds "---\na: b\n---\n\nx\n\ny\n".toList :=
    Text.withLineFeeds_eq_self_iff.mp (by decide)
  have hbody : forall l : Layout, splitLines "---\na: b\n---\n\nx\n\ny\n".toList = l.lines ->
      OnlyLineFeeds (l.bodyStretch "---\na: b\n---\n\nx\n\ny\n".toList) :=
    fun l _ => honly.of_infix l.bodyStretch_infix
  rcases split_copies_iff hreturn with ⟨_hwhole, _hlayout, _hparts, _hfrontmatter, hcopied⟩
  exact ⟨hreturn, hbody, by decide, hcopied hbody⟩

/-- A line separator in the frontmatter becomes a line feed, and the frontmatter does not occur in
the text. -/
theorem lineSeparator_not_copied :
    '\r' ∉ "---\ntitle: a\u2028b\n---\nText".toList ∧
    split "---\ntitle: a\u2028b\n---\nText".toList = ⟨"title: a\nb".toList, "Text".toList⟩ ∧
    ¬ (split "---\ntitle: a\u2028b\n---\nText".toList).frontmatter <:+:
      "---\ntitle: a\u2028b\n---\nText".toList := by
  decide +kernel

end Frontmatter
end ContentSchema
