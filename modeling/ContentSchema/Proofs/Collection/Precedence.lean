import ContentSchema.Proofs.Collection.Expansion
import ContentSchema.Proofs.FirstOccurrences
import ContentSchema.Proofs.SideBySide

/-!
# Precedence of patterns

The first pattern that serves in the expansion of a collection is also the first that serves in
the expansion of the collection that declares it.  For what comes before it there came before
it wherever it was included as well, and nothing that comes before it in the larger expansion
serves.
-/

namespace ContentSchema
namespace Registry

theorem firstPatterns_eq (pairs : List (String × String)) :
    firstPatterns pairs = firsts Prod.snd pairs := by
  rw [← foldl_eq_firsts, firstPatterns]
  simp only [beq_eq_decide]

/-!
## Parts of expansions
-/

theorem mapM_pure {α β : Type} {P : α -> β -> Prop} {f : α -> ExceptT Fault Option β}
    {xs : List α} (h : forall x, x ∈ xs -> exists y, f x = pure y ∧ P x y) :
    exists ys, List.Forall₂ P xs ys ∧ xs.mapM f = pure ys := by
  induction xs with
  | nil =>
      exact ⟨[], List.Forall₂.nil, rfl⟩
  | cons x rest ih =>
      rcases List.forall_mem_cons.mp h with ⟨⟨y, hy, hxy⟩, hrest⟩
      rcases ih hrest with ⟨ys, hall, hys⟩
      refine ⟨y :: ys, List.Forall₂.cons hxy hall, ?_⟩
      rw [List.mapM_cons, hy, hys]
      rfl

inductive Contributes (r : Registry) (name : String) :
    Selector -> List (String × String) -> Prop
  | own (pattern : String) : Contributes r name (.files pattern) [(name, pattern)]
  | included {other : String} {part : List (String × String)} :
      r.Includes name other -> r.expansion other = pure part ->
      Contributes r name (.included other) part

theorem Sound.exists_parts {r : Registry} (hr : r.Sound) {e : String × Descriptor}
    (he : e ∈ r.descriptors) :
    exists parts, List.Forall₂ (r.Contributes e.1) e.2.sources parts ∧
      r.expansion e.1 = pure (firsts Prod.snd parts.flatten) := by
  have hsources : forall source, source ∈ e.2.sources ->
      exists part, r.contribution e.1 source = pure part ∧ r.Contributes e.1 source part := by
    intro source hsource
    cases source with
    | files pattern =>
        exact ⟨_, rfl, .own pattern⟩
    | included other =>
        have hother : r.Includes e.1 other :=
          ⟨e.2, he, List.mem_filterMap.mpr ⟨_, hsource, rfl⟩⟩
        rcases (hr.expansion (.refl r) (hr.includes_earlier hother).left).right with ⟨part, hpart⟩
        exact ⟨part, hpart, .included hother hpart⟩
  rcases mapM_pure hsources with ⟨parts, hparts, hall⟩
  refine ⟨parts, hparts, ?_⟩
  rw [expansion_of_resolve (hr.resolve he), hall, ← firstPatterns_eq]
  rfl

theorem Sound.expansion_of_resolveSources {r : Registry} (hr : r.Sound) {name : String}
    (hname : name ∈ r.names) {pairs : List (String × String)}
    (hpairs : r.resolveSources name = .ok pairs) : r.expansion name = pure pairs := by
  rcases (hr.expansion (.refl r) hname).right with ⟨expanded, hexpanded⟩
  have hsame := (resolveSources_of_expansion hexpanded).left
  rw [hpairs] at hsame
  injection hsame with hsame
  rw [hexpanded, hsame]

/-- What holds of an expansion whenever it holds of the expansions of all included collections
holds of every expansion. -/
theorem Sound.expansion_induction {r : Registry} (hr : r.Sound)
    {motive : String -> List (String × String) -> Prop}
    (step : forall e, e ∈ r.descriptors -> forall parts,
      List.Forall₂ (r.Contributes e.1) e.2.sources parts ->
      r.expansion e.1 = pure (firsts Prod.snd parts.flatten) ->
      (forall other part, r.Includes e.1 other -> r.expansion other = pure part ->
        motive other part) ->
      motive e.1 (firsts Prod.snd parts.flatten))
    {name : String} (hname : name ∈ r.names) {pairs : List (String × String)}
    (hpairs : r.expansion name = pure pairs) : motive name pairs := by
  -- by the place in the registry, as the included collections come earlier
  induction hrank : r.names.idxOf name using Nat.strongRecOn generalizing name pairs with
  | ind rank ih =>
      rcases hr.exists_descriptor hname with ⟨d, hd, _hresolve⟩
      rcases hr.exists_parts hd with ⟨parts, hparts, hexpansion⟩
      have hsame : pairs = firsts Prod.snd parts.flatten := by
        have hboth := hexpansion
        rw [hpairs] at hboth
        injection hboth with hsome
        injection hsome
      rw [hsame]
      refine step (name, d) hd parts hparts hexpansion ?_
      intro other part hother hpart
      rcases hr.includes_earlier hother with ⟨hregistered, hearlier⟩
      rw [hrank] at hearlier
      exact ih _ hearlier hregistered hpart rfl

theorem find?_flatten_eq_some {α : Type} {p : α -> Bool} {parts : List (List α)} {x : α}
    (h : parts.flatten.find? p = some x) : exists part, part ∈ parts ∧ part.find? p = some x := by
  induction parts with
  | nil =>
      cases h
  | cons part rest ih =>
      rw [List.flatten_cons, List.find?_append] at h
      cases hpart : part.find? p with
      | some y =>
          rw [hpart] at h
          exact ⟨part, List.mem_cons_self, hpart.trans h⟩
      | none =>
          rw [hpart] at h
          rcases ih h with ⟨other, hother, hfound⟩
          exact ⟨other, List.mem_cons_of_mem _ hother, hfound⟩

/-!
## The first pattern that serves
-/

variable {r : Registry}

theorem Sound.first_of_expansion (hr : r.Sound) (serves : String -> Bool) {name : String}
    (hname : name ∈ r.names) {pairs : List (String × String)}
    (hpairs : r.expansion name = pure pairs) {first : String × String}
    (h : pairs.find? (fun q => serves q.2) = some first) :
    exists own, r.expansion first.1 = pure own ∧ own.find? (fun q => serves q.2) = some first := by
  refine hr.expansion_induction (motive := fun _ pairs =>
    pairs.find? (fun q => serves q.2) = some first ->
    exists own, r.expansion first.1 = pure own ∧
      own.find? (fun q => serves q.2) = some first) ?_ hname hpairs h
  intro e _he parts hparts hexpansion ih h
  have hflat := h
  rw [find?_firsts] at hflat
  rcases find?_flatten_eq_some hflat with ⟨part, hpart, hfound⟩
  rcases forall₂_of_mem hparts.flip hpart with ⟨source, _hsource, hcontributes⟩
  cases hcontributes with
  | own pattern =>
      have hfirst := List.mem_singleton.mp (List.mem_of_find?_eq_some hfound)
      refine ⟨_, ?_, h⟩
      rw [hfirst]
      exact hexpansion
  | included hother hincluded =>
      exact ih _ _ hother hincluded hfound

theorem Sound.first_of_resolveSources (hr : r.Sound) (serves : String -> Bool) {name : String}
    (hname : name ∈ r.names) {pairs : List (String × String)}
    (hpairs : r.resolveSources name = .ok pairs) {first : String × String}
    (h : pairs.find? (fun q => serves q.2) = some first) :
    exists own, r.resolveSources first.1 = .ok own ∧
      own.find? (fun q => serves q.2) = some first := by
  rcases hr.first_of_expansion serves hname (hr.expansion_of_resolveSources hname hpairs) h with
    ⟨own, hown, hfound⟩
  exact ⟨own, (resolveSources_of_expansion hown).left, hfound⟩

/-!
## Declared patterns
-/

theorem Sound.declared_of_resolveSources (hr : r.Sound) {name : String} (hname : name ∈ r.names)
    {pairs : List (String × String)} (hpairs : r.resolveSources name = .ok pairs) :
    forall p, p ∈ pairs ->
      exists d, (p.1, d) ∈ r.descriptors ∧ Selector.files p.2 ∈ d.sources := by
  refine hr.expansion_induction (motive := fun _ pairs => forall p, p ∈ pairs ->
    exists d, (p.1, d) ∈ r.descriptors ∧ Selector.files p.2 ∈ d.sources) ?_ hname
    (hr.expansion_of_resolveSources hname hpairs)
  intro e he parts hparts _hexpansion ih p hp
  rcases List.mem_flatten.mp ((firsts_sublist _ _).subset hp) with ⟨part, hpart, hp⟩
  rcases forall₂_of_mem hparts.flip hpart with ⟨source, hsource, hcontributes⟩
  cases hcontributes with
  | own pattern =>
      rw [List.mem_singleton.mp hp]
      exact ⟨e.2, he, hsource⟩
  | included hother hincluded =>
      exact ih _ _ hother hincluded p hp

/-!
## Patterns of included collections
-/

/-- The patterns that a collection stands for, whoever declares them. -/
def HasPattern (r : Registry) (name pattern : String) : Prop :=
  exists pairs, r.resolveSources name = .ok pairs ∧ pattern ∈ pairs.map Prod.snd

theorem Sound.hasPattern_of_includes (hr : r.Sound) {name other pattern : String}
    (hother : r.Includes name other) (h : r.HasPattern other pattern) :
    r.HasPattern name pattern := by
  rcases hother with ⟨d, hd, hincluded⟩
  rcases h with ⟨own, hown, hpattern⟩
  rcases hr.exists_parts hd with ⟨parts, hparts, hexpansion⟩
  rcases List.mem_filterMap.mp hincluded with ⟨source, hsource, hselector⟩
  rcases forall₂_of_mem hparts hsource with ⟨part, hpart, hcontributes⟩
  refine ⟨_, (resolveSources_of_expansion hexpansion).left, ?_⟩
  cases hcontributes with
  | own pattern =>
      cases hselector
  | included _ hincluded =>
      injection hselector with hselector
      rw [hselector] at hincluded
      have hsame := (resolveSources_of_expansion hincluded).left
      rw [hown] at hsame
      injection hsame with hsame
      rcases List.mem_map.mp hpattern with ⟨q, hq, hpattern⟩
      rw [hsame] at hq
      exact List.mem_map.mpr
        (exists_mem_firsts_iff.mpr ⟨q, List.mem_flatten.mpr ⟨part, hpart, hq⟩, hpattern⟩)

theorem Sound.hasPattern_of_transGen (hr : r.Sound) {name other pattern : String}
    (hother : Relation.TransGen r.Includes name other) (h : r.HasPattern other pattern) :
    r.HasPattern name pattern := by
  induction hother with
  | single hfirst => exact hr.hasPattern_of_includes hfirst h
  | tail _ hlast ih => exact ih (hr.hasPattern_of_includes hlast h)

end Registry
end ContentSchema
