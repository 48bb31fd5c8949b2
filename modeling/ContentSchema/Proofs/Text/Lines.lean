import ContentSchema.Text.Lines
import Mathlib.Algebra.GroupWithZero.Nat

/-!
# Texts and their lines

A text without carriage returns is its lines, each but perhaps the last with one boundary
character behind it.  Cutting such a text gives these lines, and joining them again gives the
text with a line feed for each boundary.  Cutting a text that was joined from lines gives them
back, up to an empty last line.
-/

namespace ContentSchema
namespace Text

def IsLine (cs : List Char) : Prop :=
  forall c, c ∈ cs -> isLineBoundary c = false

instance (cs : List Char) : Decidable (IsLine cs) :=
  List.decidableBAll (fun c => isLineBoundary c = false) cs

theorem isLine_nil : IsLine [] := by
  intro c hc
  cases hc

theorem IsLine.cons {c : Char} {line : List Char} (hc : isLineBoundary c = false)
    (hline : IsLine line) : IsLine (c :: line) :=
  List.forall_mem_cons.mpr ⟨hc, hline⟩

/-- The text consists of the lines.  A boundary behind the last line may be missing, unless this
line is empty. -/
inductive Spells : List Char -> List (List Char) -> Prop
  | nil : Spells [] []
  | last {line : List Char} : IsLine line -> line ≠ [] -> Spells line [line]
  | cons {line cs : List Char} {c : Char} {lines : List (List Char)} :
      IsLine line -> isLineBoundary c = true -> c ≠ '\r' -> Spells cs lines ->
      Spells (line ++ c :: cs) (line :: lines)

/-!
## Cutting
-/

theorem splitLines_boundary {c : Char} (hc : isLineBoundary c = true) (hreturn : c ≠ '\r')
    (cs : List Char) : splitLines (c :: cs) = [] :: splitLines cs := by
  rw [splitLines.eq_3 c cs (fun rest h _ => hreturn h), if_pos hc]

theorem splitLines_other {c : Char} (hc : isLineBoundary c = false) (cs : List Char) :
    splitLines (c :: cs) = consFirstLine c (splitLines cs) := by
  have hreturn : c ≠ '\r' := by
    intro h
    rw [h] at hc
    exact absurd hc (by decide)
  rw [splitLines.eq_3 c cs (fun rest h _ => hreturn h), hc]
  rfl

/-- The lines that a text consists of are those that it is cut into. -/
theorem Spells.splitLines_eq {cs : List Char} {lines : List (List Char)} (h : Spells cs lines) :
    splitLines cs = lines := by
  induction h with
  | nil =>
      rfl
  | @last line hline hfilled =>
      induction line with
      | nil =>
          exact absurd rfl hfilled
      | cons c rest ih =>
          rcases List.forall_mem_cons.mp hline with ⟨hc, hrest⟩
          rw [splitLines_other hc]
          cases rest with
          | nil =>
              rfl
          | cons d others =>
              rw [ih hrest (List.cons_ne_nil d others)]
              rfl
  | @cons line cs c lines hline hc hreturn _h ih =>
      induction line with
      | nil =>
          rw [List.nil_append, splitLines_boundary hc hreturn, ih]
      | cons d rest ihline =>
          rcases List.forall_mem_cons.mp hline with ⟨hd, hrest⟩
          rw [List.cons_append, splitLines_other hd, ihline hrest]
          rfl

theorem spells_splitLines {cs : List Char} (h : '\r' ∉ cs) : Spells cs (splitLines cs) := by
  induction cs with
  | nil =>
      exact .nil
  | cons c rest ih =>
      have hreturn : c ≠ '\r' := fun hc => h (hc ▸ List.mem_cons_self)
      have hrest := ih (fun hmem => h (List.mem_cons_of_mem c hmem))
      cases hc : isLineBoundary c with
      | true =>
          rw [splitLines_boundary hc hreturn]
          exact .cons isLine_nil hc hreturn hrest
      | false =>
          rw [splitLines_other hc]
          generalize splitLines rest = lines at hrest
          cases hrest with
          | nil =>
              exact .last (isLine_nil.cons hc) (List.cons_ne_nil c [])
          | last hline hfilled =>
              exact .last (hline.cons hc) (List.cons_ne_nil c rest)
          | cons hline hboundary hnoReturn htail =>
              exact .cons (hline.cons hc) hboundary hnoReturn htail

/-!
## Joining
-/

theorem joinLines_cons {line : List Char} {rest : List (List Char)} (hrest : rest ≠ []) :
    joinLines (line :: rest) = line ++ '\n' :: joinLines rest := by
  cases rest with
  | nil =>
      exact absurd rfl hrest
  | cons next others =>
      rfl

theorem spells_joinLines {lines : List (List Char)} (hlines : forall l, l ∈ lines -> IsLine l)
    (hlast : lines.getLast? ≠ some []) : Spells (joinLines lines) lines := by
  induction lines with
  | nil =>
      exact .nil
  | cons line rest ih =>
      rcases List.forall_mem_cons.mp hlines with ⟨hline, hrest⟩
      cases rest with
      | nil =>
          exact .last hline (fun h => hlast (congrArg some h))
      | cons next others =>
          rw [joinLines_cons (List.cons_ne_nil next others)]
          refine .cons hline rfl (by decide) (ih hrest (fun h => hlast ?_))
          rw [List.getLast?_cons_cons]
          exact h

theorem spells_joinLines_concat_nil {lines : List (List Char)}
    (hlines : forall l, l ∈ lines -> IsLine l) : Spells (joinLines (lines ++ [[]])) lines := by
  induction lines with
  | nil =>
      exact .nil
  | cons line rest ih =>
      rcases List.forall_mem_cons.mp hlines with ⟨hline, hrest⟩
      rw [List.cons_append, joinLines_cons (List.concat_ne_nil _ _)]
      exact .cons hline rfl (by decide) (ih hrest)

/-!
## Stretches of a text

Some lines in the middle stand in the text as one stretch, behind the lines in front of them.
-/

def withLineFeeds (cs : List Char) : List Char :=
  cs.map (fun c => if isLineBoundary c then '\n' else c)

/-- Every boundary in the text is a line feed. -/
def OnlyLineFeeds (cs : List Char) : Prop :=
  forall c, c ∈ cs -> isLineBoundary c = true -> c = '\n'

theorem withLineFeeds_eq_self_iff {cs : List Char} :
    withLineFeeds cs = cs <-> OnlyLineFeeds cs := by
  induction cs with
  | nil =>
      exact iff_of_true rfl (fun c hc => absurd hc List.not_mem_nil)
  | cons c rest ih =>
      have hhead : (if isLineBoundary c then '\n' else c) = c <->
          (isLineBoundary c = true -> c = '\n') := by
        cases isLineBoundary c with
        | true =>
            rw [if_pos rfl, eq_comm]
            exact ⟨fun h _ => h, fun h => h rfl⟩
        | false =>
            exact iff_of_true rfl (fun h => absurd h Bool.false_ne_true)
      rw [OnlyLineFeeds, List.forall_mem_cons, ← hhead]
      exact List.cons_eq_cons.trans (and_congr_right (fun _ => ih))

theorem OnlyLineFeeds.of_infix {part cs : List Char} (h : OnlyLineFeeds cs)
    (hpart : part <:+: cs) : OnlyLineFeeds part :=
  fun c hc => h c (hpart.subset hc)

theorem IsLine.withLineFeeds_eq {line : List Char} (h : IsLine line) :
    withLineFeeds line = line := by
  refine withLineFeeds_eq_self_iff.mpr (fun c hc hboundary => ?_)
  rw [h c hc] at hboundary
  exact absurd hboundary Bool.false_ne_true

def extent (lines : List (List Char)) : Nat :=
  (lines.map (fun line => line.length + 1)).sum

theorem Spells.drop_extent {cs : List Char} {front back : List (List Char)}
    (h : Spells cs (front ++ back)) : Spells (cs.drop (extent front)) back := by
  induction front generalizing cs with
  | nil =>
      exact h
  | cons line rest ih =>
      have hextent : extent (line :: rest) = line.length + 1 + extent rest := rfl
      generalize hlines : line :: rest ++ back = lines at h
      cases h with
      | nil =>
          cases hlines
      | last hline hfilled =>
          injection hlines with hline hrest
          rcases List.append_eq_nil_iff.mp hrest with ⟨hrest, hback⟩
          rw [hback, List.drop_eq_nil_of_le (by rw [hextent, hline]; omega)]
          exact .nil
      | @cons first cs c later hline hc hreturn htail =>
          injection hlines with hline hrest
          rw [← hrest] at htail
          rw [hextent, hline, ← List.drop_drop, List.drop_length_add_append]
          exact ih htail

theorem Spells.joinLines_eq {cs : List Char} {front back : List (List Char)}
    (h : Spells cs (front ++ back)) :
    joinLines front = withLineFeeds (cs.take (joinLines front).length) := by
  induction front generalizing cs with
  | nil =>
      rfl
  | cons line rest ih =>
      generalize hlines : line :: rest ++ back = lines at h
      cases h with
      | nil =>
          cases hlines
      | last hline hfilled =>
          injection hlines with hsame hrest
          rw [(List.append_eq_nil_iff.mp hrest).left, joinLines, hsame, List.take_length,
            hline.withLineFeeds_eq]
      | @cons first cs c later hline hc hreturn htail =>
          injection hlines with hsame hrest
          rw [← hrest] at htail
          cases rest with
          | nil =>
              rw [joinLines, hsame, List.take_left, hline.withLineFeeds_eq]
          | cons next others =>
              have hjoined : joinLines (line :: next :: others) =
                  line ++ '\n' :: joinLines (next :: others) :=
                joinLines_cons (List.cons_ne_nil next others)
              have hboundary : withLineFeeds (c :: cs.take (joinLines (next :: others)).length) =
                  '\n' :: joinLines (next :: others) := by
                rw [withLineFeeds, List.map_cons, if_pos hc, ← withLineFeeds, ← ih htail]
              rw [hjoined, hsame, List.length_append, List.length_cons,
                List.take_length_add_append, List.take_succ_cons, withLineFeeds,
                List.map_append, ← withLineFeeds, ← withLineFeeds, hline.withLineFeeds_eq,
                hboundary]

end Text
end ContentSchema
