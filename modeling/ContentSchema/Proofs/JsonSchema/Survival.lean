import ContentSchema.Proofs.JsonSchema.Bounds

/-!
# Surviving bounds

What becomes of several bounds in one document.  A bound on lengths or numbers is written under
a keyword and may be written over by a later one, while the bounds of a sign or of
non-emptiness only ever raise what is there.  So a document has the bounds that nothing
later writes over, and it can promise less than its schema demands: nothing is lost exactly
when each bound of a constraint is covered by a surviving one that is at least as strict, or
when the surviving bounds leave no value at all.
-/

namespace ContentSchema
namespace JsonSchema

/-!
## Writing over
-/

def raises (c : Constraint) : Bool :=
  c.name == "nonEmpty" || c.name == "nonnegative"

def replaces (c : Constraint) (keyword : String) : Bool :=
  !raises c && Entries.has (keywordsOf c) keyword

/-- The keywords of constraints that no later constraint writes over. -/
def survivors : List Constraint -> Keywords
  | [] => []
  | c :: rest =>
      (keywordsOf c).filter (fun k => !rest.any (fun d => replaces d k.1)) ++ survivors rest

def BoundedAt (keywords : Keywords) (keyword : String) (m : Int) : Prop :=
  forall v, Entries.get? keywords keyword = some v -> WithinBound (keyword, v) m

theorem boundedAt_put {keywords : Keywords} {keyword other : String} {v : Value} {m : Int} :
    BoundedAt (Entries.put keywords keyword v) other m <->
      (keyword ≠ other -> BoundedAt keywords other m) ∧
      (keyword = other -> WithinBound (keyword, v) m) := by
  unfold BoundedAt
  rw [Entries.get?_put]
  by_cases hkey : keyword = other
  · subst hkey
    simp
  · simp [hkey]

def HasIntFloors (keywords : Keywords) : Prop :=
  forall k, k ∈ keywords -> k.1 = "minLength" ∨ k.1 = "minimum" -> exists n, k.2 = .int n

theorem withinBound_floor_iff {keyword : String}
    (hkeyword : keyword = "minLength" ∨ keyword = "minimum") {n m : Int} :
    WithinBound (keyword, .int n) m <-> n <= m := by
  rcases hkeyword with hkeyword | hkeyword <;> subst hkeyword <;>
    simp [WithinBound, lowerBound?, upperBound?]

theorem exists_start {keywords : Keywords} {keyword : String}
    (hkeyword : keyword = "minLength" ∨ keyword = "minimum") (hints : HasIntFloors keywords)
    (floor : Nat) (m : Int) :
    exists n, (Entries.get? keywords keyword).getD (.int 0) = .int n ∧
      (BoundedAt keywords keyword m ∧ (floor : Int) <= m <-> n <= m ∧ (floor : Int) <= m) := by
  cases hfound : Entries.get? keywords keyword with
  | none =>
      have hnone : BoundedAt keywords keyword m := by
        intro v hv
        rw [hfound] at hv
        cases hv
      refine ⟨0, rfl, fun hm => ⟨?_, hm.right⟩, fun hm => ⟨hnone, hm.right⟩⟩
      exact le_trans (Int.natCast_nonneg floor) hm.right
  | some v =>
      rcases hints _ (Entries.mem_of_get? hfound) hkeyword with ⟨n, hn⟩
      have hv : v = .int n := hn
      subst hv
      refine ⟨n, rfl, and_congr_left' ?_⟩
      unfold BoundedAt
      rw [hfound]
      simp [withinBound_floor_iff hkeyword]

theorem boundedAt_raise {keywords after : Keywords} {keyword other : String} {floor : Nat}
    {m : Int} (hkeyword : keyword = "minLength" ∨ keyword = "minimum")
    (hints : HasIntFloors keywords) (h : raise keywords keyword floor = .ok after) :
    BoundedAt after other m <->
      BoundedAt keywords other m ∧ (keyword = other -> WithinBound (keyword, .int floor) m) := by
  have hlt {n : Int} : (Quantity.rational n).lt (.rational floor) = true <-> n < floor := by
    have hcast : ((floor : Int) : Rat) = floor := Int.cast_natCast floor
    rw [← hcast, int_lt_iff, Int.add_one_le_iff]
  rcases raise_eq_ok.mp h with ⟨q, hq, hafter⟩
  rcases exists_start hkeyword hints floor m with ⟨n, hn, hbounded⟩
  rw [hn] at hq hafter
  injection hq with hq
  rw [hafter, ← hq, boundedAt_put]
  by_cases hother : keyword = other
  · subst hother
    simp only [ne_eq, not_true_eq_false, false_implies, true_and, true_implies,
      withinBound_floor_iff hkeyword, hbounded]
    by_cases hbelow : n < floor
    · rw [if_pos (hlt.mpr hbelow), withinBound_floor_iff hkeyword]
      omega
    · rw [if_neg (fun hn => hbelow (hlt.mp hn)), withinBound_floor_iff hkeyword]
      omega
  · simp [hother]

/-!
## Chains of constraints
-/

def Adds (c : Constraint) (before after : Keywords) : Prop :=
  forall keyword m, BoundedAt after keyword m <->
    (replaces c keyword = false -> BoundedAt before keyword m) ∧
    forall k, k ∈ keywordsOf c -> k.1 = keyword -> WithinBound k m

theorem adds_put {c : Constraint} {own : String} {bound : Value} (hraises : raises c = false)
    (hkeywords : keywordsOf c = [(own, bound)]) (before : Keywords) :
    Adds c before (Entries.put before own bound) := by
  intro keyword m
  rw [boundedAt_put, replaces, hraises, hkeywords]
  simp [Entries.has]

theorem adds_raise {c : Constraint} {own : String} {floor : Nat} (hraises : raises c = true)
    (hkeywords : keywordsOf c = [(own, .int floor)])
    (hown : own = "minLength" ∨ own = "minimum") {before after : Keywords}
    (hints : HasIntFloors before) (h : raise before own floor = .ok after) :
    Adds c before after := by
  intro keyword m
  rw [boundedAt_raise hown hints h, replaces, hraises, hkeywords]
  simp

theorem adds_exactLength (n : Int) (before : Keywords) :
    Adds (.exactLength (.int n)) before
      (Entries.put (Entries.put before "minLength" (.int n)) "maxLength" (.int n)) := by
  have hkeywords : keywordsOf (.exactLength (.int n)) =
      [("minLength", .int n), ("maxLength", .int n)] := rfl
  have hraises : raises (.exactLength (.int n)) = false := rfl
  intro keyword m
  rw [boundedAt_put, boundedAt_put, replaces, hraises, hkeywords]
  by_cases hmin : "minLength" = keyword
  · subst hmin
    simp [Entries.has]
  · simp [Entries.has, hmin]

theorem adds_addConstraint {kind : PrimitiveKind} {c : Constraint} (hc : Delimits kind c)
    {before after : Keywords} (hints : HasIntFloors before)
    (h : addConstraint before c = .ok after) : Adds c before after := by
  cases hc with
  | nonEmpty => exact adds_raise rfl rfl (Or.inl rfl) hints h
  | nonnegative => exact adds_raise rfl rfl (Or.inr rfl) hints h
  | exactLength n =>
      injection h with h
      rw [← h]
      exact adds_exactLength n before
  | _ =>
      injection h with h
      rw [← h]
      exact adds_put rfl rfl before

theorem hasIntFloors_addConstraint {kind : PrimitiveKind} {c : Constraint}
    (hc : Delimits kind c) {before after : Keywords} (hints : HasIntFloors before)
    (h : addConstraint before c = .ok after) : HasIntFloors after := by
  intro k hk hkeyword
  rcases mem_of_mem_addConstraint hc.builtIn h hk with hk | hemits
  · exact hints k hk hkeyword
  · cases hc.boundKeyword hemits.mem_keywordsOf <;> exact ⟨_, rfl⟩

theorem nodup_keys_addConstraint {c : Constraint} {before after : Keywords}
    (hkeys : (Entries.keys before).Nodup) (h : addConstraint before c = .ok after) :
    (Entries.keys after).Nodup := by
  have hraise {keyword : String} {floor : Nat} (h : raise before keyword floor = .ok after) :
      (Entries.keys after).Nodup := by
    rcases raise_eq_ok.mp h with ⟨q, _hq, hafter⟩
    rw [hafter]
    exact Entries.nodup_keys_put hkeys
  unfold addConstraint at h
  split at h
  case h_1 => exact hraise h
  case h_3 => exact hraise h
  all_goals
    injection h with h
    subst h
  case h_7 => exact Entries.nodup_keys_put (Entries.nodup_keys_put hkeys)
  case h_13 => exact hkeys
  all_goals
    exact Entries.nodup_keys_put hkeys

/-- After a chain of constraints the bounds that stand are the surviving ones, and those from
before that no constraint writes over. -/
theorem boundedAt_run {kind : PrimitiveKind} {constraints : List Constraint}
    (hconstraints : forall c, c ∈ constraints -> Delimits kind c) {before after : Keywords}
    (hints : HasIntFloors before) (h : constraints.foldlM addConstraint before = .ok after)
    {keyword : String} {m : Int} :
    BoundedAt after keyword m <->
      (constraints.any (fun c => replaces c keyword) = false -> BoundedAt before keyword m) ∧
      forall k, k ∈ survivors constraints -> k.1 = keyword -> WithinBound k m := by
  induction constraints generalizing before with
  | nil =>
      rw [List.foldlM_nil] at h
      rw [Answer.pure_eq_ok.mp h]
      simp [survivors]
  | cons c rest ih =>
      rw [List.foldlM_cons] at h
      rcases Answer.bind_eq_ok.mp h with ⟨mid, hmid, h⟩
      have hc := hconstraints c List.mem_cons_self
      rw [ih (fun d hd => hconstraints d (List.mem_cons_of_mem _ hd))
        (hasIntFloors_addConstraint hc hints hmid) h, adds_addConstraint hc hints hmid]
      -- what the first constraint leaves behind counts when the rest does not write over it
      have hmem {k : String × Value} : k ∈ survivors (c :: rest) <->
          (k ∈ keywordsOf c ∧ rest.any (fun d => replaces d k.1) = false) ∨
            k ∈ survivors rest := by
        rw [survivors, List.mem_append, List.mem_filter, Bool.not_eq_true']
      rw [List.any_cons, Bool.or_eq_false_iff]
      constructor
      · intro hbounded
        refine ⟨fun hkeep => (hbounded.left hkeep.right).left hkeep.left, ?_⟩
        intro k hk hkey
        rcases hmem.mp hk with ⟨hk, hkeep⟩ | hk
        · rw [hkey] at hkeep
          exact (hbounded.left hkeep).right k hk hkey
        · exact hbounded.right k hk hkey
      · intro hbounded
        refine ⟨fun hkeep => ⟨fun hown => hbounded.left ⟨hown, hkeep⟩, ?_⟩, ?_⟩
        · intro k hk hkey
          rw [← hkey] at hkeep
          exact hbounded.right k (hmem.mpr (Or.inl ⟨hk, hkeep⟩)) hkey
        · intro k hk hkey
          exact hbounded.right k (hmem.mpr (Or.inr hk)) hkey

/-!
## Documents
-/

theorem forall_boundedAt_iff {keywords : Keywords} (hkeys : (Entries.keys keywords).Nodup)
    {m : Int} :
    (forall keyword, BoundedAt keywords keyword m) <->
      forall k, k ∈ keywords -> WithinBound k m := by
  constructor
  · intro hbounded k hk
    exact hbounded k.1 k.2 (Entries.get?_of_mem hkeys hk)
  · intro hwithin keyword v hv
    exact hwithin _ (Entries.mem_of_get? hv)

theorem nodup_keys_constraintKeywords {constraints : List Constraint} {before after : Keywords}
    (hkeys : (Entries.keys before).Nodup)
    (h : constraints.foldlM addConstraint before = .ok after) :
    (Entries.keys after).Nodup :=
  Answer.invariant_foldlM (P := fun keywords => (Entries.keys keywords).Nodup)
    (fun _keywords _next _c _hc hkeys hnext => nodup_keys_addConstraint hkeys hnext) hkeys h

theorem nodup_keys_kindKeywords (kind : PrimitiveKind) :
    (Entries.keys (kindKeywords kind)).Nodup := by
  cases kind <;> decide

theorem within_constraintKeywords_iff {kind : PrimitiveKind} {constraints : List Constraint}
    (hconstraints : forall c, c ∈ constraints -> Delimits kind c) {keywords : Keywords}
    (h : constraints.foldlM addConstraint (kindKeywords kind) = .ok keywords) {m : Int} :
    (forall k, k ∈ keywords -> WithinBound k m) <->
      forall k, k ∈ survivors constraints -> WithinBound k m := by
  have hkind : forall k, k ∈ kindKeywords kind -> WithinBound k m :=
    fun k hk => (unbounded_kindKeywords hk).within m
  have hbefore := (forall_boundedAt_iff (nodup_keys_kindKeywords kind)).mpr hkind
  have hints : HasIntFloors (kindKeywords kind) :=
    fun _k hk hfloor => absurd hfloor (no_floor_in_kindKeywords hk)
  rw [← forall_boundedAt_iff (nodup_keys_constraintKeywords (nodup_keys_kindKeywords kind) h)]
  constructor
  · intro hbounded k hk
    exact ((boundedAt_run hconstraints hints h).mp (hbounded k.1)).right k hk rfl
  · intro hwithin keyword
    exact (boundedAt_run hconstraints hints h).mpr
      ⟨fun _hkeep => hbefore keyword, fun k hk _hkey => hwithin k hk⟩

/-!
## What is lost
-/

instance (lower upper : List Int) : Decidable (Contradict lower upper) :=
  inferInstanceAs (Decidable (exists l, l ∈ lower ∧ exists u, u ∈ upper ∧ u < l))

/-- Every bound of the constraint has one among the keywords that is at least as strict. -/
def Covers (kind : PrimitiveKind) (keywords : Keywords) (c : Constraint) : Prop :=
  (forall b, b ∈ (keywordsOf c).filterMap lowerBound? ->
    exists l, l ∈ lowerBounds kind keywords ∧ b <= l) ∧
  (forall b, b ∈ (keywordsOf c).filterMap upperBound? ->
    exists u, u ∈ upperBounds keywords ∧ u <= b)

instance (kind : PrimitiveKind) (keywords : Keywords) (c : Constraint) :
    Decidable (Covers kind keywords c) :=
  inferInstanceAs (Decidable (_ ∧ _))

/-- All values whose size is within some bounds pass a constraint exactly when the bounds
cover it or leave no size at all. -/
theorem passes_iff_covers {kind : PrimitiveKind} (hkind : kind = .string ∨ kind = .number)
    {c : Constraint} (hc : Delimits kind c) (keywords : Keywords) :
    (forall v m, Sized kind v m -> (forall k, k ∈ keywords -> WithinBound k m) ->
        c.check v = .ok true) <->
      Covers kind keywords c ∨ Contradict (lowerBounds kind keywords) (upperBounds keywords) := by
  -- there are values of all sizes, so the question is about ranges of integers alone
  have hranges : (forall v m, Sized kind v m -> (forall k, k ∈ keywords -> WithinBound k m) ->
      c.check v = .ok true) <->
      forall m, InRange (lowerBounds kind keywords) (upperBounds keywords) m ->
        InRange ((keywordsOf c).filterMap lowerBound?) ((keywordsOf c).filterMap upperBound?)
          m := by
    constructor
    · intro hpasses m hm
      rcases inRange_iff.mp hm with ⟨hnatural, hwithin⟩
      rcases exists_sized hkind hnatural with ⟨v, hv⟩
      exact (hc.check_iff hv).mp (hpasses v m hv hwithin)
    · intro hrange v m hv hwithin
      exact (hc.check_iff hv).mpr (hrange m (inRange_iff.mpr ⟨natural_of_sized hv, hwithin⟩))
  rw [hranges]
  constructor
  · intro hrange
    by_cases hcontradict : Contradict (lowerBounds kind keywords) (upperBounds keywords)
    · exact Or.inr hcontradict
    · refine Or.inl ⟨?_, ?_⟩
      · intro b hb
        have hge := forall_inRange_ge_iff.mp (fun m hm => (hrange m hm).left b hb)
        exact hge.resolve_right hcontradict
      · intro b hb
        have hle := forall_inRange_le_iff.mp (fun m hm => (hrange m hm).right b hb)
        exact hle.resolve_right hcontradict
  · intro hcovers m hm
    refine ⟨?_, ?_⟩
    · intro b hb
      exact forall_inRange_ge_iff.mpr (hcovers.imp_left (fun hcovers => hcovers.left b hb)) m hm
    · intro b hb
      exact forall_inRange_le_iff.mpr (hcovers.imp_left (fun hcovers => hcovers.right b hb)) m hm

/-!
## Documents of chains
-/

theorem onlyBounds_constraintKeywords {kind : PrimitiveKind} {constraints : List Constraint}
    (hconstraints : forall c, c ∈ constraints -> Delimits kind c) {keywords : Keywords}
    (h : constraints.foldlM addConstraint (kindKeywords kind) = .ok keywords)
    {k : String × Value} (hk : k ∈ keywords) : OnlyBounds kind k ∧ k.1 ≠ "$schema" := by
  rcases mem_of_mem_constraintKeywords (fun c hc => (hconstraints c hc).builtIn) h hk with
    hk | ⟨c, hc, hemits⟩
  · exact ⟨onlyBounds_kindKeywords hk, name_ne_schema_of_mem_kindKeywords hk⟩
  · have hbound := (hconstraints c hc).boundKeyword hemits.mem_keywordsOf
    exact ⟨hbound.onlyBounds, hbound.name_ne_schema⟩

end JsonSchema

namespace Schema

open JsonSchema

/-!
## Chains of bounds
-/

/-- The calls that bound texts, and those that bound numbers by whole numbers. -/
inductive Call.Bounding : PrimitiveKind -> Call -> Prop
  | nonEmpty : Bounding .string (.refine .nonEmpty)
  | minLength (bound : Value) : Bounding .string (.min bound)
  | maxLength (bound : Value) : Bounding .string (.max bound)
  | exactLength (bound : Value) : Bounding .string (.length bound)
  | positive : Bounding .number (.refine .positive)
  | nonnegative : Bounding .number (.refine .nonnegative)
  | atLeast (n : Int) : Bounding .number (.min (.int n))
  | atMost (n : Int) : Bounding .number (.max (.int n))

theorem bounding_step {kind : PrimitiveKind} {call : Call} (hcall : call.Bounding kind)
    {a : Attributes} {constraints : List Constraint} {t : Schema}
    (h : call.apply (.primitive a kind constraints) = .ok t) :
    exists c, t = .primitive a kind (constraints ++ [c]) ∧ Delimits kind c := by
  have hrefine {c : Constraint} (hc : Delimits kind c)
      (h : Schema.refine (.primitive a kind constraints) c = .ok t) :
      exists c, t = .primitive a kind (constraints ++ [c]) ∧ Delimits kind c := by
    rcases refine_eq_ok.mp h with ⟨a', kind', constraints', hs, _happlies, ht⟩
    injection hs with ha hkind hconstraints
    subst ha hkind hconstraints
    exact ⟨c, ht, hc⟩
  cases hcall with
  | nonEmpty => exact hrefine .nonEmpty h
  | minLength bound =>
      rcases Answer.bind_eq_ok.mp h with ⟨v, hv, h⟩
      rcases lengthBound_eq_ok hv with ⟨n, _hn, hvn⟩
      subst hvn
      exact hrefine (.minLength n) h
  | maxLength bound =>
      rcases Answer.bind_eq_ok.mp h with ⟨v, hv, h⟩
      rcases lengthBound_eq_ok hv with ⟨n, _hn, hvn⟩
      subst hvn
      exact hrefine (.maxLength n) h
  | exactLength bound =>
      rcases Answer.bind_eq_ok.mp h with ⟨v, hv, h⟩
      rcases lengthBound_eq_ok hv with ⟨n, _hn, hvn⟩
      subst hvn
      exact hrefine (.exactLength n) h
  | positive => exact hrefine .positive h
  | nonnegative => exact hrefine .nonnegative h
  | atLeast n => exact hrefine (.atLeast n) h
  | atMost n => exact hrefine (.atMost n) h

theorem bounding_run {kind : PrimitiveKind} {calls : List Call}
    (hcalls : forall call, call ∈ calls -> call.Bounding kind) {a : Attributes} {t : Schema}
    (h : applyAll calls (.primitive a kind []) = .ok t) :
    exists constraints, t = .primitive a kind constraints ∧
      forall c, c ∈ constraints -> Delimits kind c := by
  refine Answer.invariant_foldlM
    (P := fun s => exists constraints, s = .primitive a kind constraints ∧
      forall c, c ∈ constraints -> Delimits kind c)
    ?_ ⟨[], rfl, fun c hc => absurd hc List.not_mem_nil⟩ h
  intro s next call hcall hs hnext
  rcases hs with ⟨constraints, hs, hconstraints⟩
  rw [hs] at hnext
  rcases bounding_step (hcalls call hcall) hnext with ⟨c, hnextc, hc⟩
  refine ⟨_, hnextc, ?_⟩
  intro d hd
  rcases List.mem_append.mp hd with hd | hd
  · exact hconstraints d hd
  · rw [List.mem_singleton.mp hd]
    exact hc

theorem exists_document {kind : PrimitiveKind} {constraints : List Constraint}
    (hconstraints : forall c, c ∈ constraints -> Delimits kind c) (root : Bool) :
    exists document,
      toJsonSchema (.primitive .fresh kind constraints) root = .ok document ∧
      forall v m, Sized kind v m ->
        (Satisfies document v <-> forall k, k ∈ survivors constraints -> WithinBound k m) := by
  rcases succeeds_constraintKeywords
      (fun c hc => ⟨(hconstraints c hc).builtIn, (hconstraints c hc).hasNumericBounds⟩)
      (kindKeywords_hasNumericFloors kind) with ⟨keywords, hkeywords⟩
  have hrender : render (.primitive .fresh kind constraints) = .ok keywords := by
    rw [render]
    refine Answer.bind_eq_ok.mpr ⟨keywords, hkeywords, ?_⟩
    refine Answer.bind_eq_ok.mpr ⟨[], rfl, ?_⟩
    rw [List.append_nil]
    rfl
  have honly : forall k, k ∈ keywords -> OnlyBounds kind k ∧ k.1 ≠ "$schema" :=
    fun k hk => onlyBounds_constraintKeywords hconstraints hkeywords hk
  refine ⟨_, Answer.bind_eq_ok.mpr ⟨keywords, hrender, rfl⟩, ?_⟩
  intro v m hv
  rw [← within_constraintKeywords_iff hconstraints hkeywords]
  cases root with
  | false => exact satisfies_iff_within (fun k hk => (honly k hk).left) hv
  | true =>
      have hfresh : "$schema" ∉ Entries.keys keywords := by
        intro hmem
        rcases List.mem_map.mp hmem with ⟨k, hk, hname⟩
        exact (honly k hk).right hname
      have hkeys : (Entries.keys ([("$schema", .text dialect)] ++ keywords)).Nodup :=
        List.nodup_cons.mpr ⟨hfresh,
          nodup_keys_constraintKeywords (nodup_keys_kindKeywords kind) hkeywords⟩
      rw [if_pos rfl, Entries.merge_of_nodup hkeys, satisfies_iff_within ?_ hv]
      · simp [unbounded_dialect.within m]
      · intro k hk
        rcases List.mem_cons.mp hk with hk | hk
        · rw [hk]
          exact onlyBounds_dialect
        · exact (honly k hk).left

/-- A schema that calls with bounds have made has a document, and the document loses none of
the constraints exactly when the surviving bounds cover each of them or contradict each
other. -/
theorem document_loses_nothing_iff {kind : PrimitiveKind} {calls : List Call} {s : Schema}
    (root : Bool) (hkind : kind = .string ∨ kind = .number)
    (hcalls : forall call, call ∈ calls -> call.Bounding kind)
    (hs : applyAll calls (ofKind kind) = .ok s) :
    exists document, s.toJsonSchema root = .ok document ∧
      ((forall v m, Sized kind v m -> Satisfies document v ->
          forall c, c ∈ s.ownConstraints -> c.check v = .ok true) <->
        (forall c, c ∈ s.ownConstraints -> Covers kind (survivors s.ownConstraints) c) ∨
        Contradict (lowerBounds kind (survivors s.ownConstraints))
          (upperBounds (survivors s.ownConstraints))) := by
  rcases bounding_run hcalls hs with ⟨constraints, hconstraints, hdelimits⟩
  subst hconstraints
  rcases exists_document hdelimits root with ⟨document, hdocument, hsatisfies⟩
  refine ⟨document, hdocument, ?_⟩
  have hcovers {c : Constraint} (hc : c ∈ constraints) :=
    passes_iff_covers hkind (hdelimits c hc) (survivors constraints)
  constructor
  · intro hpasses
    by_cases hcontradict : Contradict (lowerBounds kind (survivors constraints))
        (upperBounds (survivors constraints))
    · exact Or.inr hcontradict
    · refine Or.inl (fun c hc => ?_)
      have hall := (hcovers hc).mp (fun v m hv hwithin =>
        hpasses v m hv ((hsatisfies v m hv).mpr hwithin) c hc)
      exact hall.resolve_right hcontradict
  · intro hall v m hv hdoc c hc
    exact (hcovers hc).mpr (hall.imp_left (fun hall => hall c hc)) v m hv
      ((hsatisfies v m hv).mp hdoc)

def heading : Schema :=
  .primitive .fresh .string
    [.minLength (.int 5), .nonEmpty, .maxLength (.int 80), .maxLength (.int 60)]

theorem heading_loses_nothing :
    applyAll [.min (.int 5), .refine .nonEmpty, .max (.int 80), .max (.int 60)] string =
        .ok heading ∧
      exists document, heading.toJsonSchema false = .ok document ∧
        forall v m, Sized .string v m -> Satisfies document v ->
          forall c, c ∈ heading.ownConstraints -> c.check v = .ok true := by
  have happly : applyAll [.min (.int 5), .refine .nonEmpty, .max (.int 80), .max (.int 60)]
      string = .ok heading := rfl
  have hcalls : forall call,
      call ∈ [.min (.int 5), .refine .nonEmpty, .max (.int 80), .max (.int 60)] ->
      Call.Bounding .string call := by
    simp only [List.forall_mem_cons, List.not_mem_nil, false_implies, implies_true, and_true]
    exact ⟨.minLength _, .nonEmpty, .maxLength _, .maxLength _⟩
  rcases document_loses_nothing_iff false (Or.inl rfl) hcalls happly with
    ⟨document, hdocument, hiff⟩
  exact ⟨happly, document, hdocument, hiff.mpr (Or.inl (by decide))⟩

def loosened : Schema :=
  .primitive .fresh .string [.minLength (.int 5), .minLength (.int 3)]

/-- The document has the last of the two bounds and accepts a text that is too short. -/
theorem loosened_loses_bound :
    applyAll [.min (.int 5), .min (.int 3)] string = .ok loosened ∧
      loosened.toJsonSchema false =
        .ok (toValue [("type", .text "string"), ("minLength", .int 3)]) ∧
      Satisfies (toValue [("type", .text "string"), ("minLength", .int 3)]) (.text "abcd") ∧
      Constraint.minLength (.int 5) ∈ loosened.ownConstraints ∧
      (Constraint.minLength (.int 5)).check (.text "abcd") = .ok false := by
  have honly : forall k, k ∈ [("type", Value.text "string"), ("minLength", .int 3)] ->
      OnlyBounds .string k := by
    intro k hk
    rcases List.mem_cons.mp hk with hk | hk
    · exact onlyBounds_kindKeywords (List.mem_singleton.mpr hk)
    · rw [List.mem_singleton.mp hk]
      exact (BoundKeyword.minLength 3).onlyBounds
  have hwithin : forall k, k ∈ [("type", Value.text "string"), ("minLength", .int 3)] ->
      WithinBound k "abcd".length := by
    have hlength : (3 : Int) <= "abcd".length := by decide
    simpa [WithinBound, lowerBound?, upperBound?] using hlength
  exact ⟨rfl, rfl, (satisfies_iff_within honly (.text "abcd")).mpr hwithin,
    List.mem_cons_self, rfl⟩

end Schema
end ContentSchema
