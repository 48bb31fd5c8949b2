import ContentSchema.Proofs.Collection.Precedence

/-!
# Flattening of sources

Said naively, a collection stands for all patterns that it comes to when every include is
replaced by everything that the included collection comes to, patterns that come again
included.  Expansion drops repeated patterns on every level on the way; this module shows that
it ends with just the first occurrences of the naive list, each with the collection that
declares it there.
-/

namespace ContentSchema
namespace Registry

/-!
## Flattened sources
-/

/-- The sources of the named collection come to the pairs when nothing is dropped. -/
inductive Flattens (r : Registry) : String -> List Selector -> List (String × String) -> Prop
  | nil {name : String} : Flattens r name [] []
  | files {name pattern : String} {rest : List Selector} {pairs : List (String × String)} :
      Flattens r name rest pairs ->
      Flattens r name (.files pattern :: rest) ((name, pattern) :: pairs)
  | included {name other : String} {d : Descriptor} {rest : List Selector}
      {part pairs : List (String × String)} :
      r.resolve other = .ok d -> Flattens r other d.sources part -> Flattens r name rest pairs ->
      Flattens r name (.included other :: rest) (part ++ pairs)

/-- The full expansion of a collection, with every pattern as often as it comes. -/
def Flattening (r : Registry) (name : String) (pairs : List (String × String)) : Prop :=
  exists d, r.resolve name = .ok d ∧ r.Flattens name d.sources pairs

def Declares (r : Registry) (name pattern : String) : Prop :=
  exists d, (name, d) ∈ r.descriptors ∧ Selector.files pattern ∈ d.sources

variable {r : Registry}

theorem Flattens.unique {name : String} {sources : List Selector}
    {pairs others : List (String × String)} (h : r.Flattens name sources pairs)
    (h' : r.Flattens name sources others) : others = pairs := by
  induction h generalizing others with
  | nil =>
      cases h'
      rfl
  | files _hrest ih =>
      cases h' with
      | files hrest => rw [ih hrest]
  | included hother _hpart _hrest ihpart ihrest =>
      cases h' with
      | included hother' hpart hrest =>
          rw [hother] at hother'
          injection hother' with hsame
          rw [← hsame] at hpart
          rw [ihpart hpart, ihrest hrest]

theorem Flattening.unique {name : String} {pairs others : List (String × String)}
    (h : r.Flattening name pairs) (h' : r.Flattening name others) : others = pairs := by
  rcases h with ⟨d, hd, hflattens⟩
  rcases h' with ⟨d', hd', hflattens'⟩
  rw [hd] at hd'
  injection hd' with hsame
  rw [← hsame] at hflattens'
  exact hflattens.unique hflattens'

/-!
## Expansion keeps first occurrences

What an include contributes has lost repetitions already.  Whether it has makes no difference
to the first occurrences in all parts together, so the loss can be put off to the end.
-/

theorem exists_flattens_of_parts {name : String} {sources : List Selector}
    {parts : List (List (String × String))}
    (hparts : List.Forall₂ (r.Contributes name) sources parts)
    (hincluded : forall other part, r.Includes name other -> r.expansion other = pure part ->
      exists full, r.Flattening other full ∧ part = firsts Prod.snd full) :
    exists pairs, r.Flattens name sources pairs ∧
      firsts Prod.snd parts.flatten = firsts Prod.snd pairs := by
  induction hparts with
  | nil =>
      exact ⟨[], .nil, rfl⟩
  | cons hpart _hrest ih =>
      rcases ih with ⟨pairs, hflattens, hfirsts⟩
      cases hpart with
      | own pattern =>
          exact ⟨_, .files hflattens, firsts_append_congr (Eq.refl (firsts _ [_])) hfirsts⟩
      | included hother hexpansion =>
          rcases hincluded _ _ hother hexpansion with ⟨full, ⟨d, hd, hfull⟩, hpart⟩
          refine ⟨_, .included hd hfull hflattens, firsts_append_congr ?_ hfirsts⟩
          rw [hpart, firsts_firsts]

/-- Expansion is flattening with the first occurrence of each pattern kept. -/
theorem Sound.exists_flattening (hr : r.Sound) {name : String} (hname : name ∈ r.names)
    {pairs : List (String × String)} (hpairs : r.expansion name = pure pairs) :
    exists full, r.Flattening name full ∧ pairs = firsts Prod.snd full := by
  -- dropping what comes again inside an include changes nothing about the first occurrences
  refine hr.expansion_induction (motive := fun name pairs =>
    exists full, r.Flattening name full ∧ pairs = firsts Prod.snd full) ?_ hname hpairs
  intro e he parts hparts _hexpansion ih
  rcases exists_flattens_of_parts hparts ih with ⟨full, hfull, hfirsts⟩
  exact ⟨full, ⟨e.2, hr.resolve he, hfull⟩, hfirsts⟩

/-!
## Owners and declared patterns
-/

theorem Sound.owner_of_resolveSources (hr : r.Sound) {name : String} (hname : name ∈ r.names)
    {pairs : List (String × String)} (hpairs : r.resolveSources name = .ok pairs) :
    forall p, p ∈ pairs -> Relation.ReflTransGen r.Includes name p.1 := by
  refine hr.expansion_induction (motive := fun name pairs => forall p, p ∈ pairs ->
    Relation.ReflTransGen r.Includes name p.1) ?_ hname
    (hr.expansion_of_resolveSources hname hpairs)
  intro e _he parts hparts _hexpansion ih p hp
  rcases List.mem_flatten.mp ((firsts_sublist _ _).subset hp) with ⟨part, hpart, hp⟩
  rcases forall₂_of_mem hparts.flip hpart with ⟨source, _hsource, hcontributes⟩
  cases hcontributes with
  | own pattern =>
      rw [List.mem_singleton.mp hp]
  | included hother hincluded =>
      exact .head hother (ih _ _ hother hincluded p hp)

theorem Sound.hasPattern_of_declares (hr : r.Sound) {name pattern : String}
    (h : r.Declares name pattern) : r.HasPattern name pattern := by
  rcases h with ⟨d, hd, hsource⟩
  rcases hr.exists_parts hd with ⟨parts, hparts, hexpansion⟩
  rcases forall₂_of_mem hparts hsource with ⟨part, hpart, hcontributes⟩
  cases hcontributes with
  | own pattern =>
      refine ⟨_, (resolveSources_of_expansion hexpansion).left, List.mem_map.mpr ?_⟩
      exact exists_mem_firsts_iff.mpr
        ⟨_, List.mem_flatten.mpr ⟨_, hpart, List.mem_singleton_self _⟩, rfl⟩

theorem Sound.hasPattern_of_reaches (hr : r.Sound) {name other pattern : String}
    (hother : Relation.ReflTransGen r.Includes name other) (h : r.Declares other pattern) :
    r.HasPattern name pattern := by
  rcases Relation.reflTransGen_iff_eq_or_transGen.mp hother with heq | hincludes
  · rw [heq] at h
    exact hr.hasPattern_of_declares h
  · exact hr.hasPattern_of_transGen hincludes (hr.hasPattern_of_declares h)

/-!
## Expansion is naive flattening
-/

/-- Whatever has been done to a registry that starts empty, each of its collections has one
flattening, and expands to the first occurrences of its patterns there.  So patterns are
distinct, those of the collection and of all that it includes are among them, and each stands
with a collection that is reached by includes and declares it. -/
theorem resolveSources_flattening {ops : List Operation} {r : Registry} {events : List Event}
    (hrun : empty.run ops = (r, events)) {name : String} (hname : name ∈ r.names) :
    exists full pairs, (forall other, r.Flattening name other <-> other = full) ∧
      pairs = firsts Prod.snd full ∧
      r.resolveSources name = .ok pairs ∧ r.expandSources name = .ok (pairs.map Prod.snd) ∧
      (pairs.map Prod.snd).Nodup ∧
      (forall other pattern, Relation.ReflTransGen r.Includes name other ->
        r.Declares other pattern -> pattern ∈ pairs.map Prod.snd) ∧
      (forall p, p ∈ pairs ->
        Relation.ReflTransGen r.Includes name p.1 ∧ r.Declares p.1 p.2) := by
  have hr : r.Sound := sound_of_run hrun
  rcases (hr.expansion (.refl r) hname).right with ⟨pairs, hexpansion⟩
  rcases hr.exists_flattening hname hexpansion with ⟨full, hfull, hfirsts⟩
  have hresolved := resolveSources_of_expansion hexpansion
  refine ⟨full, pairs, fun other => ⟨hfull.unique, fun heq => heq ▸ hfull⟩, hfirsts,
    hresolved.left, hresolved.right, ?_, ?_, ?_⟩
  · rw [hfirsts]
    exact nodup_keys_firsts Prod.snd full
  · intro other pattern hother hdeclares
    rcases hr.hasPattern_of_reaches hother hdeclares with ⟨found, hfound, hmem⟩
    rw [hresolved.left] at hfound
    injection hfound with hfound
    rw [hfound]
    exact hmem
  · intro p hp
    exact ⟨hr.owner_of_resolveSources hname hresolved.left p hp,
      hr.declared_of_resolveSources hname hresolved.left p hp⟩

def archive : Descriptor :=
  ⟨"archive", .data, [.files "archive/*.md", .included "notes", .files "notes/*.md"], ⟨.fresh, []⟩⟩

def everything : Descriptor :=
  ⟨"everything", .data, [.included "archive", .included "digest", .files "notes/*.md",
    .files "archive/*.md"], ⟨.fresh, []⟩⟩

theorem everything_flattened :
    exists r events,
      empty.run [.registerAll [notes, archive, digest, everything], .freeze] = (r, events) ∧
      r.Flattening "everything" [("archive", "archive/*.md"), ("notes", "notes/*.md"),
        ("archive", "notes/*.md"), ("notes", "notes/*.md"), ("digest", "digest.yml"),
        ("everything", "notes/*.md"), ("everything", "archive/*.md")] ∧
      r.resolveSources "everything" = .ok [("archive", "archive/*.md"), ("notes", "notes/*.md"),
        ("digest", "digest.yml")] ∧
      r.expandSources "everything" = .ok ["archive/*.md", "notes/*.md", "digest.yml"] := by
  let ops : List Operation := [.registerAll [notes, archive, digest, everything], .freeze]
  have hnames : "everything" ∈ (empty.run ops).1.names := by
    decide +kernel
  have hnotes : (empty.run ops).1.Flattens "notes" notes.sources [("notes", "notes/*.md")] :=
    .files .nil
  have harchive : (empty.run ops).1.Flattens "archive" archive.sources
      [("archive", "archive/*.md"), ("notes", "notes/*.md"), ("archive", "notes/*.md")] :=
    .files (.included rfl hnotes (.files .nil))
  have hdigest : (empty.run ops).1.Flattens "digest" digest.sources
      [("notes", "notes/*.md"), ("digest", "digest.yml")] :=
    .included rfl hnotes (.files .nil)
  have hflattening : (empty.run ops).1.Flattening "everything" _ :=
    ⟨everything, rfl, .included rfl harchive (.included rfl hdigest (.files (.files .nil)))⟩
  rcases resolveSources_flattening (Eq.refl (empty.run ops)) hnames with
    ⟨full, pairs, hfull, hpairs, hresolved, hexpanded, _hnodup, _hdeclared, _howned⟩
  rw [← (hfull _).mp hflattening] at hpairs
  rw [hpairs] at hresolved hexpanded
  exact ⟨_, _, rfl, hflattening, hresolved, hexpanded⟩

end Registry
end ContentSchema
