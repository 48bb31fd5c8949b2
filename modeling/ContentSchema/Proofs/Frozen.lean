import ContentSchema.Proofs.Schema.Assembly
import ContentSchema.Value.Frozen

/-!
# Thawing

When a value can be thawed.  Only the elements of a frozen set can stand in the way, since they
have to be sorted; scalars thaw, and sequences and mappings thaw when what is in them does.
What validation builds has no sets, so it can always be thawed.
-/

namespace ContentSchema
namespace Value

def Thaws (v : Value) : Prop :=
  exists w, v.thaw? = some w

def thawedForm (v : Value) : Value :=
  v.thaw?.getD .null

@[simp] theorem thaw?_eq_some {v w : Value} : v.thaw? = some w <-> v.Thaws ∧ w = v.thawedForm := by
  unfold Thaws thawedForm
  cases v.thaw? with
  | none =>
      simp
  | some u =>
      simp [eq_comm]

@[simp] theorem thawAll?_eq_some {items thawed : List Value} :
    thawAll? items = some thawed <->
      (forall v, v ∈ items -> v.Thaws) ∧ thawed = items.map thawedForm := by
  induction items generalizing thawed with
  | nil =>
      simp [thawAll?, eq_comm]
  | cons v rest ih =>
      simp only [thawAll?, Option.bind_eq_bind, Option.bind_eq_some_iff, thaw?_eq_some, ih,
        List.forall_mem_cons, List.map_cons]
      constructor
      · intro h
        rcases h with ⟨w, ⟨hv, hw⟩, others, ⟨hrest, hothers⟩, h⟩
        injection h with h
        rw [← h, hw, hothers]
        exact ⟨⟨hv, hrest⟩, rfl⟩
      · intro h
        exact ⟨_, ⟨h.left.left, rfl⟩, _, ⟨h.left.right, rfl⟩, by rw [h.right]; rfl⟩

theorem thawEntries?_eq_some {entries thawed : List (Value × Value)} :
    thawEntries? entries = some thawed <->
      (forall e, e ∈ entries -> e.2.Thaws) ∧
        thawed = entries.map (fun e => (e.1, e.2.thawedForm)) := by
  induction entries generalizing thawed with
  | nil =>
      simp [thawEntries?, eq_comm]
  | cons e rest ih =>
      simp only [thawEntries?, Option.bind_eq_bind, Option.bind_eq_some_iff, thaw?_eq_some, ih,
        List.forall_mem_cons, List.map_cons]
      constructor
      · intro h
        rcases h with ⟨w, ⟨he, hw⟩, others, ⟨hrest, hothers⟩, h⟩
        injection h with h
        rw [← h, hw, hothers]
        exact ⟨⟨he, hrest⟩, rfl⟩
      · intro h
        exact ⟨_, ⟨h.left.left, rfl⟩, _, ⟨h.left.right, rfl⟩, by rw [h.right]; rfl⟩

theorem thaw?_tuple_eq_some {items : List Value} {w : Value} :
    (Value.tuple items).thaw? = some w <->
      (forall v, v ∈ items -> v.Thaws) ∧ w = .list (items.map thawedForm) := by
  simp only [thaw?, Option.map_eq_some_iff, thawAll?_eq_some]
  constructor
  · intro h
    rcases h with ⟨thawed, ⟨hitems, hthawed⟩, hw⟩
    rw [← hw, hthawed]
    exact ⟨hitems, rfl⟩
  · intro h
    exact ⟨_, ⟨h.left, rfl⟩, h.right.symm⟩

theorem thaw?_ofMembers_eq_some {members : List (String × Value)} {w : Value} :
    (ofMembers members).thaw? = some w <->
      (forall m, m ∈ members -> m.2.Thaws) ∧
        w = ofMembers (members.map (fun m => (m.1, m.2.thawedForm))) := by
  simp only [ofMembers, thaw?, Option.map_eq_some_iff, thawEntries?_eq_some, List.map_map,
    List.forall_mem_map]
  constructor
  · intro h
    rcases h with ⟨thawed, ⟨hmembers, hthawed⟩, hw⟩
    rw [← hw, hthawed]
    exact ⟨hmembers, rfl⟩
  · intro h
    exact ⟨_, ⟨h.left, rfl⟩, h.right.symm⟩

theorem thaws_tuple {items : List Value} (h : forall v, v ∈ items -> v.Thaws) :
    (Value.tuple items).Thaws :=
  ⟨_, thaw?_tuple_eq_some.mpr ⟨h, rfl⟩⟩

theorem thaws_ofMembers {members : List (String × Value)}
    (h : forall m, m ∈ members -> m.2.Thaws) : (ofMembers members).Thaws :=
  ⟨_, thaw?_ofMembers_eq_some.mpr ⟨h, rfl⟩⟩

/-!
## Values without sets
-/

/-- No set, frozen or not, is anywhere in the value. -/
def SetFree (v : Value) : Prop :=
  forall items, ¬Inside (.set items) v ∧ ¬Inside (.frozenSet items) v

theorem SetFree.of_inside {u v : Value} (h : v.SetFree) (hu : forall w, Inside w u -> Inside w v) :
    u.SetFree :=
  fun items => ⟨fun hset => (h items).left (hu _ hset), fun hset => (h items).right (hu _ hset)⟩

theorem setFree_scalar {v : Value} (h : v.isScalar = true) : v.SetFree := by
  intro items
  constructor <;> intro hset <;> cases hset <;> cases h

theorem setFree_tuple {items : List Value} (h : forall v, v ∈ items -> v.SetFree) :
    (Value.tuple items).SetFree := by
  intro members
  constructor
  · intro hset
    cases hset with
    | tuple hv hset => exact (h _ hv members).left hset
  · intro hset
    cases hset with
    | tuple hv hset => exact (h _ hv members).right hset

theorem setFree_mapping {entries : List (Value × Value)}
    (h : forall e, e ∈ entries -> e.1.SetFree ∧ e.2.SetFree) : (Value.mapping entries).SetFree := by
  intro items
  constructor
  · intro hset
    cases hset with
    | key he hset => exact ((h _ he).left items).left hset
    | entry he hset => exact ((h _ he).right items).left hset
  · intro hset
    cases hset with
    | key he hset => exact ((h _ he).left items).right hset
    | entry he hset => exact ((h _ he).right items).right hset

theorem SetFree.thaws {v : Value} (h : v.SetFree) : v.Thaws := by
  induction v using held_induction with
  | scalar v hv =>
      cases v <;> first | exact ⟨_, rfl⟩ | cases hv
  | list items ih =>
      have hitems := thawAll?_eq_some.mpr
        ⟨fun v hv => ih v hv (h.of_inside (fun _w hw => .list hv hw)), rfl⟩
      exact ⟨_, Option.map_eq_some_iff.mpr ⟨_, hitems, rfl⟩⟩
  | tuple items ih =>
      exact thaws_tuple (fun v hv => ih v hv (h.of_inside (fun _w hw => .tuple hv hw)))
  | mapping entries ih =>
      have hentries := thawEntries?_eq_some.mpr
        ⟨fun e he => ih e he (h.of_inside (fun _w hw => .entry he hw)), rfl⟩
      exact ⟨_, Option.map_eq_some_iff.mpr ⟨_, hentries, rfl⟩⟩
  | set items ih =>
      exact absurd .here (h items).left
  | frozenSet items ih =>
      exact absurd .here (h items).right

end Value

/-!
## Typed values
-/

/-- What validation builds: typed leaves, and records and tuples of what it builds. -/
inductive Value.IsTyped : Value -> Prop
  | leaf {kind : PrimitiveKind} {v : Value} : kind.Holds v -> IsTyped v
  | record {members : List (String × Value)} :
      (forall m, m ∈ members -> IsTyped m.2) -> IsTyped (.ofMembers members)
  | tuple {items : List Value} : (forall v, v ∈ items -> IsTyped v) -> IsTyped (.tuple items)

theorem Value.IsTyped.thaws {v : Value} (h : v.IsTyped) : v.Thaws := by
  induction h with
  | leaf hholds =>
      cases hholds <;> exact ⟨_, rfl⟩
  | record _hmembers ih =>
      exact thaws_ofMembers ih
  | tuple _hitems ih =>
      exact thaws_tuple ih

namespace Schema

/-!
## Fallback values
-/

def FallbackThaws (s : Schema) : Prop :=
  forall d, s.fallback? = some d -> d.Thaws

def HasTypedFallback (s : Schema) : Prop :=
  forall d, s.fallback? = some d -> d.IsTyped

theorem typed_of_mirrors {s : Schema} {raw v : Value} (h : Mirrors s raw v)
    (hfallbacks : Everywhere HasTypedFallback s) : v.IsTyped := by
  induction h with
  | primitive hreads _ =>
      exact .leaf hreads.holds
  | enumeration _ =>
      exact .leaf (.text _)
  | object hnames _hrequired _hmirrors hfilled ih =>
      rename_i a fields entries members
      apply Value.IsTyped.record
      intro m hm
      have hname : m.1 ∈ members.map Prod.fst := List.mem_map_of_mem hm
      rw [hnames] at hname
      rcases List.mem_map.mp hname with ⟨f, hf, hfm⟩
      have hf := (List.mem_filter.mp hf).left
      rcases held_or_absent _ f.1 with ⟨raw, hheld⟩ | habsent
      · exact ih f m raw hf hm hfm hheld (hfallbacks.field hf)
      · exact (hfallbacks.field hf).self m.2 (hfilled f m hf hm hfm habsent)
  | array hitems hlength _hmirrors ih =>
      apply Value.IsTyped.tuple
      intro v hv
      rcases List.mem_iff_getElem?.mp hv with ⟨i, hi⟩
      rcases List.getElem?_eq_some_iff.mp hi with ⟨hbound, _⟩
      have hitem := List.getElem?_eq_getElem (hlength ▸ hbound)
      exact ih i _ v hitem hi hfallbacks.element

theorem Effect.fallback_cases {call : Call} {s t : Schema} {d : Value}
    (hs : s.isSchema = true) (h : Effect call s t) (hd : t.fallback? = some d) :
    (exists u, Occurs u s ∧ u.fallback? = some d) ∨
      exists strict v result, s.required = .ok strict ∧ strict.validate v = .ok result ∧
        result.ok = true ∧ d = result.value := by
  cases h with
  | annotated ha hfallback =>
      rw [fallback?_withAttributes hs, hfallback, ← fallback?_of_attributes ha] at hd
      exact Or.inl ⟨s, .here, hd⟩
  | cleared _ _ hfallback =>
      rw [fallback?_withAttributes hs, hfallback] at hd
      cases hd
  | defaulted _ _ hstrict hresult hok =>
      rw [fallback?_withAttributes hs] at hd
      injection hd with hd
      exact Or.inr ⟨_, _, _, hstrict, hresult, hok, hd.symm⟩
  | refined hprimitive _ _ =>
      subst hprimitive
      exact Or.inl ⟨_, .here, hd⟩
  | extended _ hobject _ _ =>
      subst hobject
      exact Or.inl ⟨_, .here, hd⟩
  | narrowed _ hobject =>
      subst hobject
      exact Or.inl ⟨_, .here, hd⟩
  | field _ hobject hf =>
      subst hobject
      exact Or.inl ⟨_, .field hf .here, hd⟩
  | element _ harray =>
      subst harray
      exact Or.inl ⟨_, .element .here, hd⟩

theorem Built.fallbacks_typed {rule : Schema -> Call -> Schema -> Prop} {s : Schema}
    (h : Built rule s) : Everywhere HasTypedFallback s := by
  have hfresh {t : Schema} (ht : t.attributes? = some .fresh) : t.HasTypedFallback := by
    intro d hd
    rw [fallback?_of_fresh ht] at hd
    cases hd
  have hboth : Everywhere (fun t => t.WellFormed ∧ t.HasTypedFallback) s := by
    refine Built.everywhere (P := fun t => t.WellFormed ∧ t.HasTypedFallback) ?_ ?_ ?_ ?_ ?_ h
    · intro kind
      have hbuilt : Built rule (Schema.ofKind kind) := .ofKind kind
      exact ⟨hbuilt.wellFormed.self, hfresh rfl⟩
    · intro arguments s hs
      have hbuilt : Built rule s := .enum hs
      rcases enum_eq_ok hs with ⟨values, hvalues, _⟩
      refine ⟨hbuilt.wellFormed.self, hfresh ?_⟩
      rw [hvalues]
      rfl
    · intro entries fields hfields
      exact ⟨wellFormed_of_fields hfields, hfresh rfl⟩
    · intro element
      exact ⟨wellFormed_of_fresh rfl rfl, hfresh rfl⟩
    · intro call s t hs _hentries heffect _hrule
      have hwell := hs.imp (fun u hu => hu.left)
      have htyped := hs.imp (fun u hu => hu.right)
      refine ⟨wellFormed_of_effect hwell heffect, ?_⟩
      intro d hd
      rcases heffect.fallback_cases hwell.self.isSchema hd with
        ⟨u, hu, hud⟩ | ⟨strict, v, result, hstrict, hresult, hok, hvalue⟩
      · exact htyped u hu d hud
      · rw [hvalue]
        exact typed_of_mirrors (mirrors_of_required hwell hstrict hresult hok) htyped
  exact hboth.imp (fun t ht => ht.right)

theorem Built.fallbacks_thaw {rule : Schema -> Call -> Schema -> Prop} {s : Schema}
    (h : Built rule s) : Everywhere FallbackThaws s :=
  h.fallbacks_typed.imp (fun _t ht d hd => (ht d hd).thaws)

end Schema
end ContentSchema
