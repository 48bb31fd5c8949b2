import ContentSchema.Entries

/-!
# Entries with distinct keys

Where keys are distinct, looking a key up is the same as finding its entry, and writing
entries one by one puts them down in the order in which they come.
-/

namespace ContentSchema
namespace Entries

variable {κ α : Type} [BEq κ] [LawfulBEq κ]

omit [LawfulBEq κ] in
theorem get?_cons (e : κ × α) (rest : List (κ × α)) (key : κ) :
    get? (e :: rest) key = if e.1 == key then some e.2 else get? rest key := by
  cases hkey : e.1 == key <;> simp [get?, hkey]

theorem mem_of_get? {entries : List (κ × α)} {key : κ} {v : α}
    (h : get? entries key = some v) : (key, v) ∈ entries := by
  induction entries with
  | nil =>
      cases h
  | cons e rest ih =>
      rw [get?_cons] at h
      by_cases hkey : (e.1 == key) = true
      · rw [if_pos hkey] at h
        injection h with h
        rw [← h, ← eq_of_beq hkey]
        exact List.mem_cons_self
      · rw [if_neg hkey] at h
        exact List.mem_cons_of_mem _ (ih h)

theorem get?_of_mem {entries : List (κ × α)} {key : κ} {v : α}
    (hkeys : (keys entries).Nodup) (h : (key, v) ∈ entries) :
    get? entries key = some v := by
  induction entries with
  | nil =>
      cases h
  | cons e rest ih =>
      rcases List.nodup_cons.mp hkeys with ⟨hfirst, hrest⟩
      rw [get?_cons]
      rcases List.mem_cons.mp h with h | h
      · subst h
        simp
      · have hne : (e.1 == key) = false := by
          apply beq_false_of_ne
          intro heq
          rw [heq] at hfirst
          exact hfirst (List.mem_map.mpr ⟨(key, v), h, rfl⟩)
        rw [hne]
        exact ih hrest h

omit [LawfulBEq κ] in
theorem get?_append {entries additions : List (κ × α)} {key : κ} {v : α}
    (h : get? entries key = some v) : get? (entries ++ additions) key = some v := by
  rcases Option.map_eq_some_iff.mp h with ⟨e, he, hev⟩
  rw [get?, List.find?_append, he]
  exact congrArg some hev

theorem get?_filter_map {β : Type} {entries : List (κ × α)} (hkeys : (keys entries).Nodup)
    (p : κ × α -> Bool) (f : κ × α -> β) (key : κ) :
    get? ((entries.filter p).map (fun e => (e.1, f e))) key =
      ((get? entries key).filter (fun v => p (key, v))).map (fun v => f (key, v)) := by
  induction entries with
  | nil =>
      rfl
  | cons e rest ih =>
      rcases List.nodup_cons.mp hkeys with ⟨hfirst, hrest⟩
      rcases e with ⟨name, v⟩
      have ih := ih hrest
      rw [get?_cons, List.filter_cons]
      by_cases hkey : name = key
      · subst hkey
        cases hp : p (name, v) with
        | true =>
            simp [get?_cons, hp, Option.filter]
        | false =>
            have hnone : get? rest name = none := by
              cases hget : get? rest name with
              | none =>
                  rfl
              | some w =>
                  exact absurd (List.mem_map.mpr ⟨_, mem_of_get? hget, rfl⟩) hfirst
            rw [hnone] at ih
            simpa [hp, Option.filter] using ih
      · cases hp : p (name, v) with
        | true => simpa [get?_cons, hkey] using ih
        | false => simpa [hkey] using ih

@[simp] theorem has_iff {entries : List (κ × α)} {key : κ} :
    has entries key = true <-> key ∈ keys entries := by
  simp only [has, List.any_eq_true, beq_iff_eq, keys, List.mem_map]

theorem put_of_not_mem {entries : List (κ × α)} {key : κ} {v : α}
    (h : key ∉ keys entries) : put entries key v = entries ++ [(key, v)] := by
  induction entries with
  | nil =>
      rfl
  | cons e rest ih =>
      have hne : (e.1 == key) = false := by
        apply beq_false_of_ne
        intro heq
        exact h (by simp [keys, heq])
      have hrest : key ∉ keys rest := by
        intro hmem
        exact h (List.mem_cons_of_mem _ hmem)
      simp [put, hne, ih hrest]

/-- The key compares equal to itself alone. -/
def IsExact (key : κ) : Prop :=
  forall k, (k == key) = true <-> k = key

omit [LawfulBEq κ] in
theorem put_cons_self {key : κ} (h : IsExact key) {e : κ × α} (he : e.1 = key)
    (rest : List (κ × α)) (v : α) : put (e :: rest) key v = (key, v) :: rest := by
  rw [put, if_pos ((h _).mpr he), he]

omit [LawfulBEq κ] in
theorem put_cons_of_ne {key : κ} (h : IsExact key) {e : κ × α} (he : e.1 ≠ key)
    (rest : List (κ × α)) (v : α) : put (e :: rest) key v = e :: put rest key v := by
  rw [put, if_neg (fun heq => he ((h _).mp heq))]

omit [LawfulBEq κ] in
theorem get?_put_of_exact {entries : List (κ × α)} {key other : κ} {v : α}
    (hkey : IsExact key) (hother : IsExact other) :
    get? (put entries key v) other = if key == other then some v else get? entries other := by
  induction entries with
  | nil =>
      rw [put, get?_cons]
  | cons e rest ih =>
      by_cases hfirst : e.1 = key
      · rw [put_cons_self hkey hfirst, get?_cons, get?_cons, hfirst]
        by_cases hsame : (key == other) = true <;> simp [hsame]
      · rw [put_cons_of_ne hkey hfirst, get?_cons, get?_cons, ih]
        by_cases hsame : (key == other) = true
        · have hne : ¬ (e.1 == other) = true := by
            rw [hother, ← (hother key).mp hsame]
            exact hfirst
          rw [if_neg hne, if_pos hsame, if_pos hsame]
        · rw [if_neg hsame, if_neg hsame]

theorem get?_put {entries : List (κ × α)} {key other : κ} {v : α} :
    get? (put entries key v) other = if key == other then some v else get? entries other :=
  get?_put_of_exact (fun _ => beq_iff_eq) (fun _ => beq_iff_eq)

theorem mem_of_mem_put {entries : List (κ × α)} {key : κ} {v : α} {e : κ × α}
    (h : e ∈ put entries key v) : e ∈ entries ∨ e = (key, v) := by
  induction entries with
  | nil =>
      exact Or.inr (List.mem_singleton.mp h)
  | cons first rest ih =>
      by_cases hkey : (first.1 == key) = true
      · rw [put, if_pos hkey, eq_of_beq hkey] at h
        rcases List.mem_cons.mp h with h | h
        · exact Or.inr h
        · exact Or.inl (List.mem_cons_of_mem _ h)
      · rw [put, if_neg hkey] at h
        rcases List.mem_cons.mp h with h | h
        · rw [h]
          exact Or.inl List.mem_cons_self
        · exact (ih h).imp_left (List.mem_cons_of_mem _)

theorem nodup_keys_put {entries : List (κ × α)} {key : κ} {v : α}
    (h : (keys entries).Nodup) : (keys (put entries key v)).Nodup := by
  induction entries with
  | nil =>
      simp [put, keys]
  | cons e rest ih =>
      rcases List.nodup_cons.mp h with ⟨hfirst, hrest⟩
      by_cases hkey : e.1 = key
      · rw [put, if_pos (beq_iff_eq.mpr hkey)]
        exact h
      · rw [put, if_neg (by simpa using hkey)]
        refine List.nodup_cons.mpr ⟨?_, ih hrest⟩
        intro hmem
        rcases List.mem_map.mp hmem with ⟨f, hf, hname⟩
        rcases mem_of_mem_put hf with hf | hf
        · exact hfirst (List.mem_map.mpr ⟨f, hf, hname⟩)
        · rw [hf] at hname
          exact hkey hname.symm

theorem mem_of_mem_merge {entries additions : List (κ × α)} {e : κ × α}
    (h : e ∈ merge entries additions) : e ∈ entries ∨ e ∈ additions := by
  induction additions generalizing entries with
  | nil =>
      exact Or.inl h
  | cons first rest ih =>
      rcases ih h with h | h
      · rcases mem_of_mem_put h with h | h
        · exact Or.inl h
        · rw [h]
          exact Or.inr List.mem_cons_self
      · exact Or.inr (List.mem_cons_of_mem _ h)

theorem merge_of_nodup {entries additions : List (κ × α)}
    (h : (keys (entries ++ additions)).Nodup) :
    merge entries additions = entries ++ additions := by
  induction additions generalizing entries with
  | nil =>
      simp [merge]
  | cons e rest ih =>
      have hfresh : e.1 ∉ keys entries := by
        intro hmem
        have hdisjoint := (List.nodup_append.mp (by simpa [keys] using h)).right.right
        exact hdisjoint e.1 hmem e.1 List.mem_cons_self rfl
      have hput : put entries e.1 e.2 = entries ++ [e] := put_of_not_mem hfresh
      have hrest : (keys ((entries ++ [e]) ++ rest)).Nodup := by
        simpa [List.append_assoc] using h
      show merge (put entries e.1 e.2) rest = entries ++ e :: rest
      rw [hput, ih hrest, List.append_assoc]
      rfl

theorem get?_of_first {before after : List (κ × α)} {key : κ} {v : α}
    (h : key ∉ keys before) : get? (before ++ (key, v) :: after) key = some v := by
  induction before with
  | nil =>
      rw [List.nil_append, get?_cons, if_pos (beq_self_eq_true key)]
  | cons e rest ih =>
      have hfirst : key ≠ e.1 := List.ne_of_not_mem_cons h
      have hrest : key ∉ keys rest := List.not_mem_of_not_mem_cons h
      rw [List.cons_append, get?_cons, if_neg (fun heq => hfirst (eq_of_beq heq).symm)]
      exact ih hrest

theorem get?_merge_of_not_mem {entries additions : List (κ × α)} {key : κ}
    (h : key ∉ keys additions) : get? (merge entries additions) key = get? entries key := by
  induction additions generalizing entries with
  | nil =>
      rfl
  | cons e rest ih =>
      have hfirst : key ≠ e.1 := List.ne_of_not_mem_cons h
      have hrest : key ∉ keys rest := List.not_mem_of_not_mem_cons h
      have hput : get? (put entries e.1 e.2) key = get? entries key := by
        rw [get?_put, if_neg (fun heq => hfirst (eq_of_beq heq).symm)]
      exact (ih hrest).trans hput

theorem get?_merge_of_last {entries before after : List (κ × α)} {key : κ} {v : α}
    (h : key ∉ keys after) :
    get? (merge entries (before ++ (key, v) :: after)) key = some v := by
  have hsteps : merge entries (before ++ (key, v) :: after) =
      merge (put (merge entries before) key v) after :=
    List.foldl_append
  rw [hsteps, get?_merge_of_not_mem h, get?_put, if_pos (beq_self_eq_true key)]

omit [LawfulBEq κ] in
theorem mem_keys_put_of_exact {entries : List (κ × α)} {key other : κ} {v : α}
    (h : IsExact key) :
    other ∈ keys (put entries key v) <-> other ∈ keys entries ∨ other = key := by
  induction entries with
  | nil =>
      simp [put, keys]
  | cons e rest ih =>
      by_cases hkey : e.1 = key
      · rw [put_cons_self h hkey, ← hkey]
        simp only [keys, List.map_cons, List.mem_cons]
        exact (or_iff_left_of_imp Or.inl).symm
      · rw [put_cons_of_ne h hkey]
        simp only [keys, List.map_cons, List.mem_cons] at ih ⊢
        rw [ih, or_assoc]

@[simp] theorem mem_keys_put {entries : List (κ × α)} {key other : κ} {v : α} :
    other ∈ keys (put entries key v) <-> other ∈ keys entries ∨ other = key :=
  mem_keys_put_of_exact (fun _ => beq_iff_eq)

@[simp] theorem mem_keys_ofList {pairs : List (κ × α)} {key : κ} :
    key ∈ keys (ofList pairs) <-> key ∈ keys pairs := by
  have hmerge : forall entries : List (κ × α),
      key ∈ keys (merge entries pairs) <-> key ∈ keys entries ∨ key ∈ keys pairs := by
    induction pairs with
    | nil =>
        exact fun entries => (or_iff_left List.not_mem_nil).symm
    | cons e rest ih =>
        intro entries
        show key ∈ keys (merge (put entries e.1 e.2) rest) <-> _
        rw [ih, mem_keys_put, or_assoc]
        simp only [keys, List.map_cons, List.mem_cons]
  exact (hmerge []).trans (or_iff_right List.not_mem_nil)

/-!
## Values changed in place
-/

omit [BEq κ] [LawfulBEq κ] in
@[simp] theorem keys_map {β : Type} (f : α -> β) (entries : List (κ × α)) :
    keys (entries.map (fun e => (e.1, f e.2))) = keys entries := by
  rw [keys, List.map_map]
  rfl

omit [LawfulBEq κ] in
theorem put_map {β : Type} (f : α -> β) (entries : List (κ × α)) (key : κ) (v : α) :
    put (entries.map (fun e => (e.1, f e.2))) key (f v) =
      (put entries key v).map (fun e => (e.1, f e.2)) := by
  induction entries with
  | nil =>
      rfl
  | cons e rest ih =>
      rw [List.map_cons, put, put]
      split
      · rfl
      · rw [ih, List.map_cons]

omit [LawfulBEq κ] in
theorem merge_map {β : Type} (f : α -> β) (entries additions : List (κ × α)) :
    merge (entries.map (fun e => (e.1, f e.2))) (additions.map (fun e => (e.1, f e.2))) =
      (merge entries additions).map (fun e => (e.1, f e.2)) := by
  induction additions generalizing entries with
  | nil =>
      rfl
  | cons e rest ih =>
      show merge (put _ e.1 (f e.2)) _ = _
      rw [put_map, ih]
      rfl

omit [LawfulBEq κ] in
theorem ofList_map {β : Type} (f : α -> β) (pairs : List (κ × α)) :
    ofList (pairs.map (fun e => (e.1, f e.2))) = (ofList pairs).map (fun e => (e.1, f e.2)) :=
  merge_map f [] pairs

theorem ofList_of_nodup {entries : List (κ × α)} (h : (keys entries).Nodup) :
    ofList entries = entries := by
  show merge [] entries = entries
  rw [merge_of_nodup (by simpa using h)]
  rfl

end Entries
end ContentSchema
