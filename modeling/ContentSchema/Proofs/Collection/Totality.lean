import ContentSchema.Proofs.Collection.Stability
import ContentSchema.Proofs.Validation.Reports

/-!
# Collections that always answer

Where every constraint answers for all values of the kinds that it applies to, validation
answers for every raw value.  The page fields that an effective schema takes in have no
constraints, so what is demanded of the schemas of descriptors is enough.
-/

namespace ContentSchema

/-- The constraint answers for all values of the kinds that it applies to. -/
def Constraint.Total (c : Constraint) : Prop :=
  forall kind v, c.appliesTo.contains kind.name = true -> PrimitiveKind.Holds kind v ->
    Answer.Succeeds (c.check v)

namespace Schema

def BuiltTotal (s : Schema) : Prop :=
  Built (fun _ call _ => forall c, call.Attaches c -> c.Total) s

theorem BuiltTotal.succeeds_validate {s : Schema} (hs : BuiltTotal s) (raw : Value) :
    Answer.Succeeds (s.validate raw) := by
  rw [succeeds_validate_iff hs.wellFormed]
  intro c v htested
  rcases htested.occurs with ⟨a, kind, constraints, place, hoccurs, hc, hreads⟩
  have htotal : Everywhere (fun t => forall c, c ∈ t.ownConstraints -> c.Total) s :=
    hs.everywhere_constraints (fun _s _call _t c hcalls hattaches => hcalls c hattaches)
  exact htotal _ hoccurs c hc kind v ((hs.wellFormed _ hoccurs).shape c hc) hreads.holds

theorem builtTotal_call {s t : Schema} {call : Call} (hs : BuiltTotal s)
    (hentries : forall name child, .pair name child ∈ call.entries -> BuiltTotal child)
    (hplain : forall c, ¬ call.Attaches c) (happly : call.apply s = .ok t) : BuiltTotal t :=
  .call hs (fun name child hchild _hschema => hentries name child hchild) happly
    (fun c hattaches => absurd hattaches (hplain c))

theorem builtTotal_pageField {f : String × Schema} (hf : f ∈ Page.fields) : BuiltTotal f.2 := by
  have htext : BuiltTotal (.primitive ⟨true, none, []⟩ .string []) := by
    have happly : Call.apply .optional (ofKind .string) =
        .ok (.primitive ⟨true, none, []⟩ .string []) := rfl
    exact builtTotal_call (.ofKind .string) (by intro _ _ h; cases h) (by intro c h; cases h)
      happly
  have hnavigation : BuiltTotal (.primitive ⟨false, some (.bool true), []⟩ .boolean []) := by
    have happly : Call.apply (.withDefault (.bool true)) (ofKind .boolean) =
        .ok (.primitive ⟨false, some (.bool true), []⟩ .boolean []) := rfl
    exact builtTotal_call (.ofKind .boolean) (by intro _ _ h; cases h) (by intro c h; cases h)
      happly
  simp only [Page.fields, List.mem_cons, List.not_mem_nil, or_false] at hf
  rcases hf with hf | hf | hf | hf | hf <;> subst hf
  · exact htext
  · exact htext
  · exact htext
  · exact htext
  · exact hnavigation

end Schema

theorem Descriptor.builtTotal_effective {d : Descriptor} {schema : ObjectSchema}
    (hd : d.root.toSchema.BuiltTotal) (hschema : d.effective = .ok schema) :
    schema.toSchema.BuiltTotal := by
  unfold effective at hschema
  cases hkind : d.kind with
  | data =>
      rw [hkind] at hschema
      injection hschema with hschema
      rw [← hschema]
      exact hd
  | page =>
      rw [hkind] at hschema
      rcases Answer.bind_eq_ok.mp hschema with ⟨extended, hextended, hobject⟩
      have hsame : schema.toSchema = extended := by
        cases extended with
        | object a fields =>
            injection hobject with hobject
            rw [← hobject]
            rfl
        | _ =>
            cases hobject
      rw [hsame]
      have happly : (Schema.Call.extend d.implicitFields).apply d.root.toSchema = .ok extended :=
        hextended
      refine Schema.builtTotal_call hd ?_ (by intro c h; cases h) happly
      intro name child hchild
      rcases List.mem_map.mp hchild with ⟨f, hf, hpair⟩
      injection hpair with _hname hchild
      rw [← hchild]
      exact Schema.builtTotal_pageField (List.mem_filter.mp hf).left

namespace Registry

def Total (r : Registry) : Prop :=
  forall e, e ∈ r.descriptors -> e.2.root.toSchema.BuiltTotal

variable {r : Registry}

theorem Sound.schemaFor_builtTotal (hr : r.Sound) (htotal : r.Total) {name : String}
    (hname : name ∈ r.names) :
    exists schema, r.schemaFor name = .ok schema ∧ schema.BuiltTotal := by
  rcases hr.exists_descriptor hname with ⟨d, hd, hresolve⟩
  refine ⟨_, ?_, d.builtTotal_effective (htotal _ hd) d.effective_eq⟩
  rw [schemaFor, hr.effectiveOf_eq hresolve]
  rfl

theorem Sound.succeeds_validate (hr : r.Sound) (htotal : r.Total) {name : String}
    (hname : name ∈ r.names) (raw : Value) : Answer.Succeeds (r.validate name raw) := by
  rcases hr.schemaFor_builtTotal htotal hname with ⟨schema, hschema, hbuilt⟩
  rw [validate_of_schemaFor hschema]
  exact hbuilt.succeeds_validate raw

end Registry
end ContentSchema
