import ContentSchema.Proofs.Validation.Parts

/-!
# Omitted fields

A field with a fallback value may be left out.  Writing into the document what the fallback
value was made from comes to the same: the value was validated when the fallback value was set,
and is validated with the same outcome when it stands in a document.
-/

namespace ContentSchema
namespace Schema

/-!
## Annotating calls
-/

/-- The call changes only whether the field may be absent, or metadata. -/
inductive Call.Annotates : Call -> Prop
  | optional : Annotates .optional
  | withMetadata (additions : List (Value × Value)) : Annotates (.withMetadata additions)
  | editor (hints : List (Value × Value)) : Annotates (.editor hints)
  | describe (text : Value) : Annotates (.describe text)

def Annotated (s t : Schema) : Prop :=
  exists a b, s.attributes? = some a ∧ b.fallback = a.fallback ∧ t = s.withAttributes b

theorem Annotated.refl {s : Schema} (hs : s.isSchema = true) : Annotated s s := by
  rcases exists_attributes hs with ⟨a, ha⟩
  exact ⟨a, a, ha, rfl, (withAttributes_self ha).symm⟩

theorem Annotated.trans {s t u : Schema} (hst : Annotated s t) (htu : Annotated t u) :
    Annotated s u := by
  rcases hst with ⟨a, b, ha, hb, ht⟩
  rcases htu with ⟨b', c, hb', hc, hu⟩
  rw [ht, attributes?_withAttributes ha] at hb'
  injection hb' with hb'
  refine ⟨a, c, ha, by rw [hc, ← hb', hb], ?_⟩
  rw [hu, ht, withAttributes_withAttributes]

theorem Annotated.fallback? {s t : Schema} (h : Annotated s t) : t.fallback? = s.fallback? := by
  rcases h with ⟨a, b, ha, hb, ht⟩
  rw [ht, fallback?_of_attributes (attributes?_withAttributes ha), hb,
    fallback?_of_attributes ha]

theorem Annotated.examine {s t : Schema} (h : Annotated s t) {raw : Value} {path : String} :
    t.examine raw path = s.examine raw path := by
  rcases h with ⟨a, b, _ha, _hb, ht⟩
  rw [ht, examine_withAttributes]

theorem Call.Annotates.annotated {call : Call} (hcall : call.Annotates) {s t : Schema}
    (h : call.apply s = .ok t) : Annotated s t := by
  have hmap {f : Attributes -> Attributes} (h : s.mapAttributes f = .ok t)
      (hf : forall a, (f a).fallback = a.fallback) : Annotated s t := by
    rcases mapAttributes_eq_ok.mp h with ⟨a, ha, ht⟩
    exact ⟨a, f a, ha, hf a, ht⟩
  cases hcall with
  | optional =>
      exact hmap h (fun _ => rfl)
  | withMetadata additions =>
      exact hmap h (fun _ => rfl)
  | editor hints =>
      rcases withMetadata_of_editor h with ⟨additions, h⟩
      exact hmap h (fun _ => rfl)
  | describe text =>
      exact hmap h (fun _ => rfl)

theorem annotated_of_applyAll {calls : List Call}
    (hcalls : forall call, call ∈ calls -> call.Annotates) {s t : Schema}
    (hs : s.isSchema = true) (h : applyAll calls s = .ok t) : Annotated s t :=
  Answer.invariant_foldlM (P := Annotated s)
    (fun _u _w call hcall hu hw => hu.trans ((hcalls call hcall).annotated hw))
    (Annotated.refl hs) h

theorem mirrors_of_withDefault {node defaulted t : Schema} {v : Value} {calls : List Call}
    (ht : Everywhere WellFormed t) (hdefault : node.withDefault v = .ok defaulted)
    (hcalls : forall call, call ∈ calls -> call.Annotates)
    (hchain : applyAll calls defaulted = .ok t) :
    exists d, t.fallback? = some d ∧ Mirrors t v d := by
  rcases withDefault_eq_ok.mp hdefault with
    ⟨a, strict, result, ha, hstrict, hresult, hok, hdefaulted⟩
  have hdefaultedSchema : defaulted.isSchema = true := by
    rw [hdefaulted, isSchema_withAttributes]
    cases node with
    | foreign w =>
        cases ha
    | _ =>
        rfl
  have hannotated := annotated_of_applyAll hcalls hdefaultedSchema hchain
  rcases (validate_required hstrict).mp hresult with ⟨found, hfound, hresultEq⟩
  rw [hresultEq] at hok hdefaulted
  have hclean := ok_result_iff.mp hok
  rw [Findings.result_of_clean hclean] at hdefaulted
  refine ⟨found.value, ?_, ?_⟩
  · rw [hannotated.fallback?, hdefaulted, fallback?_of_attributes (attributes?_withAttributes ha)]
    rfl
  · have hexamined : t.examine v "" = .ok found := by
      rw [hannotated.examine, hdefaulted, examine_withAttributes, hfound]
    exact examine_mirrors ht hexamined hclean

/-!
## Documents with the field written out
-/

variable {entries : List (Value × Value)} {name : String} {v d : Value}

theorem held_put (hv : v ≠ .null) : Held (Entries.put entries (.text name) v) name v := by
  refine ⟨?_, hv⟩
  rw [Value.field?_put, if_pos rfl]

theorem candidate?_put {other : String} (hother : name ≠ other) :
    candidate? (Entries.put entries (.text name) v) other = candidate? entries other := by
  rw [candidate?, candidate?, Value.field?_put, if_neg hother]

/-- The field itself has its fallback value in the record, and the other fields see what they
saw before. -/
theorem examineField_put {fields : List (String × Schema)} {t : Schema} {path : String}
    (hnames : (fieldNames fields).Nodup) (hfield : (name, t) ∈ fields)
    (ht : Everywhere WellFormed t) (hfallback : t.fallback? = some d) (hmirrors : Mirrors t v d)
    (habsent : Absent entries name) {f : String × Schema} (hf : f ∈ fields) :
    examineField (Entries.put entries (.text name) v) path f = examineField entries path f := by
  by_cases hname : name = f.1
  · have hft : f = (name, t) := field_unique hnames hf hfield hname.symm
    rw [hft]
    have hclean : t.examine v (FieldPath.joinField path name) = .ok (.clean d) :=
      examine_of_mirrors ht hmirrors
    have hwritten : FieldPart (Entries.put entries (.text name) v) path (name, t)
        ([(name, (Findings.clean d).value)], (Findings.clean d).errors) :=
      .held (held_put hmirrors.raw_ne_null) hclean
    have hfilled : FieldPart entries path (name, t) ([(name, d)], []) :=
      .filled habsent hfallback
    rw [examineField_eq_ok.mpr hwritten, examineField_eq_ok.mpr hfilled]
    rfl
  · simp only [examineField, candidate?_put hname]

theorem validate_put {a : Attributes} {fields : List (String × Schema)} {t : Schema}
    (hs : Everywhere WellFormed (.object a fields)) (hfield : (name, t) ∈ fields)
    (hfallback : t.fallback? = some d) (hmirrors : Mirrors t v d)
    (habsent : Absent entries name) :
    validate (.object a fields) (.mapping (Entries.put entries (.text name) v)) =
      validate (.object a fields) (.mapping entries) := by
  have hmapping (es : List (Value × Value)) : (Value.mapping es) ≠ .null := by
    simp
  rw [validate_eq rfl (Or.inl (hmapping _)), validate_eq rfl (Or.inl (hmapping _)), examine,
    examine, examineFields_congr (fields_areSchemas hs)
      (fun f hf => examineField_put (nodup_of_mem_fields hs) hfield (hs.field hfield) hfallback
        hmirrors habsent hf)]

/-!
## Leaving a field out
-/

theorem gathered_around {before after : List (String × Schema)} {t : Schema}
    (hfallback : t.fallback? = some d) (habsent : Absent entries name) :
    gathered entries (before ++ (name, t) :: after) =
      ⟨.ofMembers (before.flatMap (fun f => (share entries f).1) ++
          (name, d) :: after.flatMap (fun f => (share entries f).1)),
        (before ++ after).flatMap (fun f => (share entries f).2)⟩ := by
  have hshare : share entries (name, t) = ([(name, d)], []) :=
    share_eq (.filled habsent hfallback)
  simp only [gathered, List.flatMap_append, List.flatMap_cons, hshare, List.nil_append,
    List.singleton_append]

/-- A built object has a field that was given a fallback value, made from `v`, and was at most
made optional or annotated afterwards.  A document without the field has the same outcome as the
document where `v` is written out.  There is nothing to report about the field; the others are
reported in declared order, and in the record the fallback value stands at the place of the
field. -/
theorem omitted_eq_written {rule : Schema -> Call -> Schema -> Prop} {a : Attributes}
    {before after : List (String × Schema)} {node defaulted t : Schema} {calls : List Call}
    (hs : Built rule (.object a (before ++ (name, t) :: after)))
    (hdefault : node.withDefault v = .ok defaulted)
    (hcalls : forall call, call ∈ calls -> call.Annotates)
    (hchain : applyAll calls defaulted = .ok t) (habsent : Absent entries name) :
    validate (.object a (before ++ (name, t) :: after))
        (.mapping (Entries.put entries (.text name) v)) =
      validate (.object a (before ++ (name, t) :: after)) (.mapping entries) ∧
    exists d, t.fallback? = some d ∧
      forall result,
        validate (.object a (before ++ (name, t) :: after)) (.mapping entries) = .ok result ->
        result.errors = (before ++ after).flatMap (fun f => (share entries f).2) ∧
        (result.ok = true ->
          result.value = .ofMembers (before.flatMap (fun f => (share entries f).1) ++
            (name, d) :: after.flatMap (fun f => (share entries f).1))) := by
  have hformed := hs.wellFormed
  have hfield : (name, t) ∈ before ++ (name, t) :: after :=
    List.mem_append_right before (List.mem_cons_self)
  rcases mirrors_of_withDefault (hformed.field hfield) hdefault hcalls hchain with
    ⟨d, hfallback, hmirrors⟩
  refine ⟨validate_put hformed hfield hfallback hmirrors habsent, d, hfallback, ?_⟩
  intro result hresult
  have hresult := ((validate_mapping_eq_ok (nodup_of_mem_fields hformed)
    (fields_areSchemas hformed)).mp hresult).right
  rw [gathered_around hfallback habsent] at hresult
  constructor
  · rw [hresult, Findings.result_errors]
  · intro hok
    rw [hresult] at hok
    rw [hresult, Findings.result_of_clean (ok_result_iff.mp hok)]
    rfl

def releaseDate : Schema :=
  .primitive ⟨true, some (.date ⟨2024, 1, 15⟩), [(.text "description", .text "first print")]⟩
    .date []

def release : Schema :=
  .object .fresh [("title", string), ("released", releaseDate),
    ("pages", .primitive ⟨true, none, []⟩ .number [])]

theorem releaseDate_made :
    exists defaulted, date.withDefault (.text "2024-01-15") = .ok defaulted ∧
      applyAll [.optional, .describe (.text "first print")] defaulted = .ok releaseDate := by
  refine ⟨.primitive ⟨false, some (.date ⟨2024, 1, 15⟩), []⟩ .date [], ?_, rfl⟩
  with_unfolding_all rfl

theorem built_release {rule : Schema -> Call -> Schema -> Prop}
    (hrule : forall s call t, rule s call t) : Built rule release := by
  have hpages : Built rule (.primitive ⟨true, none, []⟩ .number []) := by
    have happly : Call.apply .optional number =
        .ok (.primitive ⟨true, none, []⟩ .number []) := rfl
    exact .plain (.ofKind .number) rfl happly (hrule _ _ _)
  have hreleased : Built rule releaseDate := by
    rcases releaseDate_made with ⟨defaulted, hdefault, hchain⟩
    have happly : Call.apply (.withDefault (.text "2024-01-15")) date = .ok defaulted := hdefault
    have hdefaulted : Built rule defaulted := .plain (.ofKind .date) rfl happly (hrule _ _ _)
    exact hdefaulted.applyAll (by simp [Call.entries]) hrule hchain
  exact .of_fields (List.forall_mem_cons.mpr ⟨.ofKind .string, List.forall_mem_cons.mpr
    ⟨hreleased, List.forall_mem_singleton.mpr hpages⟩⟩) rfl

theorem release_omitted_eq_written :
    Built (fun _ _ _ => True) release ∧
    (exists defaulted, date.withDefault (.text "2024-01-15") = .ok defaulted ∧
      applyAll [.optional, .describe (.text "first print")] defaulted = .ok releaseDate) ∧
    release.validate (.mapping [(.text "pages", .bool true), (.text "released", .null)]) =
      release.validate
        (.mapping [(.text "pages", .bool true), (.text "released", .text "2024-01-15")]) ∧
    (exists result,
      release.validate (.mapping [(.text "pages", .bool true), (.text "released", .null)]) =
        .ok result ∧
      result.errors.map FieldError.text =
        ["title: MissingRequiredField: Missing required field 'title'",
          "pages: TypeMismatch: Expected number, got boolean"]) ∧
    release.validate (.mapping [(.text "pages", .int 3), (.text "title", .text "On")]) =
      .ok (.accepted (.mapping [(.text "title", .text "On"),
        (.text "released", .date ⟨2024, 1, 15⟩), (.text "pages", .int 3)])) := by
  have hbuilt : Built (fun _ _ _ => True) release := built_release (fun _ _ _ => trivial)
  have hcalls : forall call, call ∈ [Call.optional, .describe (.text "first print")] ->
      call.Annotates := by
    intro call hcall
    rcases List.mem_cons.mp hcall with hcall | hcall
    · rw [hcall]
      exact .optional
    · rw [List.mem_singleton.mp hcall]
      exact .describe _
  rcases releaseDate_made with ⟨defaulted, hdefault, hchain⟩
  let entries : List (Value × Value) := [(.text "pages", .bool true), (.text "released", .null)]
  have hnull : Absent entries "released" := candidate?_eq_none_iff.mp (by with_unfolding_all rfl)
  have hput : Entries.put entries (.text "released") (.text "2024-01-15") =
      [(.text "pages", .bool true), (.text "released", .text "2024-01-15")] := by
    with_unfolding_all rfl
  have hfields : Built (fun _ _ _ => True) (.object .fresh ([("title", string)] ++
      ("released", releaseDate) :: [("pages", .primitive ⟨true, none, []⟩ .number [])])) :=
    hbuilt
  have heq := (omitted_eq_written hfields hdefault hcalls hchain hnull).left
  rw [hput] at heq
  exact ⟨hbuilt, releaseDate_made, heq.symm, ⟨_, by with_unfolding_all rfl,
    by with_unfolding_all rfl⟩, by with_unfolding_all rfl⟩

end Schema
end ContentSchema
