import ContentSchema.Proofs.Validation.Soundness

/-!
# Fixed points of validation

A value that validation returns is in its final form.  Dates are calendar values, sequences are
tuples, undeclared entries are gone and fallback values are in place, so validating the value
once more changes nothing and finds no problem.
-/

namespace ContentSchema
namespace Schema

/-- The schema accepts the value and returns it as it is. -/
def Fixes (s : Schema) (v : Value) : Prop :=
  s.validate v = .ok (.accepted v)

theorem IsRecord.fixes {s : Schema} {v : Value} (hs : Everywhere WellFormed s)
    (h : s.IsRecord v) : s.Fixes v :=
  validate_of_mirrors hs (mirrors_of_isRecord readsBack_id hs h trivial)

theorem Fixes.isRecord {s : Schema} {v : Value} (hs : Everywhere WellFormed s)
    (hv : v ≠ .null) (h : s.Fixes v) : s.IsRecord v :=
  isRecord_of_mirrors_self hs (mirrors_of_accepted hs hv h rfl)

/-- What comes out of the examination of a value is fixed when all fallback values are. -/
theorem fixes_of_mirrors {s : Schema} {raw v : Value} (hs : Everywhere WellFormed s)
    (hfallbacks : Everywhere (fun t => forall d, t.fallback? = some d -> t.Fixes d) s)
    (h : Mirrors s raw v) : s.Fixes v := by
  refine IsRecord.fixes hs (isRecord_of_mirrors h ?_)
  intro t d hinjected
  rcases hinjected.occurs with ⟨hoccurs, hd⟩
  have hnull : d ≠ .null := by
    intro hnull
    rw [hnull] at hd
    exact (hs t hoccurs).fallback hd
  exact (hfallbacks t hoccurs d hd).isRecord (hs.of_occurs hoccurs) hnull

/-- Whatever validation returns is accepted again and comes out as it is, provided that this
holds of every fallback value and the schema that carries it. -/
theorem validated_is_fixed {rule : Schema -> Call -> Schema -> Prop} {s : Schema} {raw : Value}
    {result : ValidationResult} (hs : Built rule s)
    (hfallbacks : Everywhere (fun t => forall d, t.fallback? = some d -> t.Fixes d) s)
    (hresult : s.validate raw = .ok result) (hok : result.ok = true) :
    s.Fixes result.value := by
  have hwell := hs.wellFormed
  by_cases hexamined : raw ≠ .null ∨ s.isRequired = true
  · rcases (validate_eq_ok hwell.self.isSchema hexamined).mp hresult with
      ⟨found, hfound, hresultEq⟩
    rw [hresultEq] at hok ⊢
    exact fixes_of_mirrors hwell hfallbacks (mirrors_of_findings hwell hfound hok)
  · -- null is accepted unseen: the fallback value takes its place, or null stays
    simp only [ne_eq, not_or, not_not, Bool.not_eq_true] at hexamined
    have hnull := validate_null hwell.self.isSchema hexamined.right
    rw [hexamined.left, hnull] at hresult
    injection hresult with hresult
    rw [← hresult]
    cases hfallback : s.fallback? with
    | none =>
        rw [hfallback] at hnull
        exact hnull
    | some d =>
        exact hfallbacks.self d hfallback

def datedNote : Schema :=
  .object .fresh [
    ("on", date),
    ("draft", .primitive ⟨false, some (.bool true), []⟩ .boolean []),
    ("tags", .array ⟨true, none, []⟩ (some string))]

theorem built_datedNote : Built (fun _ _ _ => True) datedNote := by
  have hdraft : Built (fun _ _ _ => True)
      (.primitive ⟨false, some (.bool true), []⟩ .boolean []) := by
    have happly : Call.apply (.withDefault (.bool true)) boolean =
        .ok (.primitive ⟨false, some (.bool true), []⟩ .boolean []) := rfl
    exact .plain (.ofKind .boolean) rfl happly trivial
  have htags : Built (fun _ _ _ => True) (.array ⟨true, none, []⟩ (some string)) := by
    have harray : arrayOf string = .ok (.array .fresh (some string)) := rfl
    have happly : Call.apply .optional (.array .fresh (some string)) =
        .ok (.array ⟨true, none, []⟩ (some string)) := rfl
    exact .plain (.array (fun _ => .ofKind .string) harray) rfl happly trivial
  exact .of_fields (List.forall_mem_cons.mpr ⟨.ofKind .date, List.forall_mem_cons.mpr ⟨hdraft,
    List.forall_mem_singleton.mpr htags⟩⟩) rfl

theorem datedNote_is_fixed :
    Built (fun _ _ _ => True) datedNote ∧
    exists result,
      datedNote.validate (.mapping [(.text "tags", .list [.text "tea"]), (.text "draft", .null),
        (.text "on", .text "2024-01-15"), (.text "colour", .text "red")]) = .ok result ∧
      result.value = .mapping [(.text "on", .date ⟨2024, 1, 15⟩), (.text "draft", .bool true),
        (.text "tags", .tuple [.text "tea"])] ∧
      datedNote.Fixes result.value := by
  have hfallbacks : Everywhere (fun t => forall d, t.fallback? = some d -> t.Fixes d)
      datedNote := by
    refine Everywhere.object (by simp [fallback?, attributes?, Attributes.fresh]) ?_
    intro f hf
    simp only [List.mem_cons, List.not_mem_nil, or_false] at hf
    rcases hf with hf | hf | hf <;> subst hf
    · exact Everywhere.leaf (by simp [fallback?, attributes?, date, ofKind, Attributes.fresh])
        (by simp [date, ofKind]) (by simp [date, ofKind])
    · refine Everywhere.leaf ?_ (by simp) (by simp)
      intro d hd
      injection hd with hd
      rw [← hd]
      rfl
    · refine Everywhere.array (by simp [fallback?, attributes?]) ?_
      exact Everywhere.leaf (by simp [fallback?, attributes?, string, ofKind, Attributes.fresh])
        (by simp [string, ofKind]) (by simp [string, ofKind])
  have hresult : datedNote.validate (.mapping [(.text "tags", .list [.text "tea"]),
      (.text "draft", .null), (.text "on", .text "2024-01-15"), (.text "colour", .text "red")]) =
      .ok (.accepted (.mapping [(.text "on", .date ⟨2024, 1, 15⟩), (.text "draft", .bool true),
        (.text "tags", .tuple [.text "tea"])])) := by
    with_unfolding_all rfl
  exact ⟨built_datedNote, _, hresult, rfl,
    validated_is_fixed built_datedNote hfallbacks hresult rfl⟩

end Schema
end ContentSchema
