import CreativeStudio.Generators.ResponseModels
import CreativeStudio.Generators.SceneFrames

/-!
# What the template runtime answers is valid

`Describes` says which JSON schemas stand for a shape, with references and alternatives resolved. The
payload that is built from such a schema passes the validation of the shape, whatever the brief says,
as long as the brief counts nothing up to infinity.
-/

namespace CreativeStudio.Generators
open Data Story Shape

section
variable {lib : TemplateLibrary} {context : Dict String} {rngKey : Text} {root : Dict Value}

/-! ## Counts -/

/-- No count of the brief is infinite. -/
def CountsFinite (lib : TemplateLibrary) (context : Dict String) : Prop :=
  ∀ key ∈ ["count", "scene_count", "beat_count"], ∀ raw, context.get? key = some raw →
    lib.parseFloat raw ≠ some .posInf ∧ lib.parseFloat raw ≠ some .negInf

theorem exists_readCount {raw : String} (hpos : lib.parseFloat raw ≠ some .posInf)
    (hneg : lib.parseFloat raw ≠ some .negInf) : ∃ n, readCount lib raw = .ok n := by
  unfold readCount
  cases hraw : lib.parseFloat raw with
  | none => exact ⟨none, rfl⟩
  | some x => cases x with
    | finite q => exact ⟨some (truncate q), rfl⟩
    | nan => exact ⟨none, rfl⟩
    | posInf => exact absurd hraw hpos
    | negInf => exact absurd hraw hneg

theorem exists_firstCount (hfinite : CountsFinite lib context) (keys : List String)
    (hkeys : ∀ key ∈ keys, key ∈ ["count", "scene_count", "beat_count"]) : ∃ n, firstCount lib context keys = .ok n := by
  induction keys with
  | nil => exact ⟨none, rfl⟩
  | cons key keys ih =>
    rcases ih fun k hk => hkeys k (List.mem_cons_of_mem _ hk) with ⟨rest, hrest⟩
    simp only [firstCount]
    cases hraw : context.get? key with
    | none => exact ⟨rest, hrest⟩
    | some raw =>
      dsimp only
      by_cases hblank : raw = ""
      · rw [if_pos hblank]
        exact ⟨rest, hrest⟩
      · rw [if_neg hblank]
        rcases hfinite key (hkeys key List.mem_cons_self) raw hraw with ⟨hpos, hneg⟩
        rcases exists_readCount hpos hneg with ⟨n, hn⟩
        cases n with
        | none => exact ⟨rest, bind_eq_ok.2 ⟨none, hn, hrest⟩⟩
        | some n => exact ⟨some n, bind_eq_ok.2 ⟨some n, hn, rfl⟩⟩

/-- A list is never empty. -/
theorem exists_resolveItemCount (hfinite : CountsFinite lib context) (schema : Dict Value) :
    ∃ count, resolveItemCount lib schema context = .ok count ∧ 0 < count := by
  rcases exists_firstCount hfinite ["count", "scene_count", "beat_count"] (fun key hkey => hkey) with ⟨n, hn⟩
  cases n with
  | some n => exact ⟨_, bind_eq_ok.2 ⟨some n, hn, rfl⟩, by omega⟩
  | none =>
    simp only [resolveItemCount, hn, Bind.bind, Except.bind]
    split
    next minimum hminimum =>
      refine ⟨_, rfl, ?_⟩
      split <;> omega
    · exact ⟨1, rfl, by omega⟩
    · exact ⟨3, rfl, by omega⟩

theorem exists_sceneTotal (hfinite : CountsFinite lib context) : ∃ total, sceneTotal lib context = .ok total := by
  rcases exists_firstCount hfinite ["scene_count", "count"] (by simp) with ⟨n, hn⟩
  cases n with
  | some n => exact ⟨_, bind_eq_ok.2 ⟨some n, hn, rfl⟩⟩
  | none => exact ⟨_, bind_eq_ok.2 ⟨none, hn, rfl⟩⟩

theorem exists_stringValue (hfinite : CountsFinite lib context) (fieldName : String) (index : ℕ) (rngKey : Text) :
    ∃ text, stringValue lib fieldName context index rngKey = .ok text := by
  rcases exists_sceneTotal hfinite with ⟨total, htotal⟩
  unfold stringValue
  by_cases himage : fieldName = "image_prompt"
  · rw [if_pos himage]
    exact ⟨_, bind_eq_ok.2 ⟨total, htotal, rfl⟩⟩
  · by_cases hnarration : fieldName = "narration"
    · rw [if_neg himage, if_pos hnarration]
      exact ⟨_, bind_eq_ok.2 ⟨total, htotal, rfl⟩⟩
    · simp only [if_neg himage, if_neg hnarration]
      cases fieldPhrases.get? fieldName with
      | some template => exact ⟨_, rfl⟩
      | none => exact ⟨_, rfl⟩

/-! ## Schemas of a shape -/

/-- The schemas that stand for a shape, within a root that they refer to. -/
inductive Describes (root : Dict Value) : Dict Value → Shape → Prop
  | str {schema : Dict Value} (hkind : schemaKind (resolveSchemaRef schema root) = .string) : Describes root schema .str
  | optional {schema : Dict Value} {shape : Shape} (h : Describes root schema shape) :
      Describes root schema (.optional shape)
  | float {schema : Dict Value} (hkind : schemaKind (resolveSchemaRef schema root) = .number)
      (hdefault : ∀ n : ℤ, (resolveSchemaRef schema root).get? "default" ≠ some (.int n))
      (hminimum : ∀ n : ℤ, (resolveSchemaRef schema root).get? "minimum" ≠ some (.int n)) : Describes root schema .float
  | strings {schema : Dict Value} (hkind : schemaKind (resolveSchemaRef schema root) = .object)
      (hproperties : schemaProperties (resolveSchemaRef schema root) = .ok []) : Describes root schema .strings
  | list {schema item : Dict Value} {nonempty : Bool} {shape : Shape}
      (hkind : schemaKind (resolveSchemaRef schema root) = .array)
      (hitems : (resolveSchemaRef schema root).get? "items" = some (.obj item)) (h : Describes root item shape) :
      Describes root schema (.list nonempty shape)
  | model {schema : Dict Value} {fields : List (String × Option Value × Shape)} (subschema : String → Dict Value)
      (hkind : schemaKind (resolveSchemaRef schema root) = .object)
      (hproperties : schemaProperties (resolveSchemaRef schema root) =
        .ok (fields.map fun field => (field.1, .obj (subschema field.1))))
      (hfields : fields ≠ []) (hnames : (fields.map Prod.fst).Nodup)
      (h : ∀ field ∈ fields, Describes root (subschema field.1) field.2.2) : Describes root schema (.model fields)

theorem exists_numericDefault {schema : Dict Value} (hdefault : ∀ n : ℤ, schema.get? "default" ≠ some (.int n))
    (hminimum : ∀ n : ℤ, schema.get? "minimum" ≠ some (.int n)) (fieldName : String) (index : ℕ) :
    ∃ x, numericDefault schema fieldName index = .ok x := by
  have hnumber {value : Option Value} (h : ∀ n : ℤ, value ≠ some (.int n)) {result : Except Exc PyFloat}
      (hresult : numberOf value = some result) : ∃ x, result = .ok x := by
    unfold numberOf at hresult
    split at hresult
    · cases hresult
      exact ⟨_, rfl⟩
    next n => exact absurd rfl (h n)
    · cases hresult
      exact ⟨_, rfl⟩
    · cases hresult
  unfold numericDefault
  cases hd : numberOf (schema.get? "default") with
  | some result => exact hnumber hdefault hd
  | none =>
    dsimp only
    split_ifs
    · exact ⟨_, rfl⟩
    · exact ⟨_, rfl⟩
    · exact ⟨_, rfl⟩
    · cases hm : numberOf (schema.get? "minimum") with
      | some result => exact hnumber hminimum hm
      | none => exact ⟨_, rfl⟩

/-! ## Payloads of a shape -/

/-- One call of the recursion, at a schema that is already resolved. -/
theorem synthesizeFromSchema_succ (calls : ℕ) (schema : Dict Value) (fieldName : String) (index : ℕ) :
    synthesizeFromSchema lib root context rngKey (calls + 1) schema fieldName index =
      match schemaKind (resolveSchemaRef schema root) with
      | .mapping => .ok (mappingValue fieldName context)
      | .object => do
        let properties ← schemaProperties (resolveSchemaRef schema root)
        if properties = [] then return mappingValue fieldName context
        let members ← properties.mapM fun property => do
          let value ← synthesizeFromSchema lib root context rngKey calls (← asSchema property.2) property.1 index
          return (property.1, value)
        return .obj members
      | .array => do
        let item ← asSchema (((resolveSchemaRef schema root).get? "items").getD (.obj [("type", .str "string")]))
        let count ← resolveItemCount lib (resolveSchemaRef schema root) context
        let items ← (List.range count).mapM fun position =>
          synthesizeFromSchema lib root context rngKey calls item fieldName (position + 1)
        return .arr items
      | .integer => do
        return .int (← intOfFloat (← numericDefault (resolveSchemaRef schema root) fieldName index))
      | .number => do return .float (← numericDefault (resolveSchemaRef schema root) fieldName index)
      | .boolean => .ok (.bool false)
      | .null => .ok .null
      | .string => do return .str (.ofList (← stringValue lib fieldName context index rngKey)) := rfl

theorem synthesize_str {calls : ℕ} {schema : Dict Value}
    (hkind : schemaKind (resolveSchemaRef schema root) = .string) {fieldName : String} {index : ℕ} {text : Text}
    (htext : stringValue lib fieldName context index rngKey = .ok text) :
    synthesizeFromSchema lib root context rngKey (calls + 1) schema fieldName index = .ok (.str (.ofList text)) := by
  rw [synthesizeFromSchema_succ, hkind]
  exact bind_eq_ok.2 ⟨text, htext, rfl⟩

theorem validate_mappingValue (fieldName : String) :
    (validate lib.toValueLibrary .strings (mappingValue fieldName context)).isSome := by
  unfold mappingValue
  split <;> simp [validate_strings, JsonOf.str?]

/-- The members that are built for the properties of a model. -/
theorem members_of_mapM {fields : List (String × Option Value × Shape)} {build : String × Value → Except Exc (String × Value)}
    {toProperty : String × Option Value × Shape → String × Value} {members : Dict Value}
    {P : String × Option Value × Shape → Value → Prop}
    (hbuild : ∀ field ∈ fields, ∀ member, build (toProperty field) = .ok member → member.1 = field.1 ∧ P field member.2)
    (h : (fields.map toProperty).mapM build = .ok members) (hnames : (fields.map Prod.fst).Nodup) :
    ∀ field ∈ fields, ∃ value, members.get? field.1 = some value ∧ P field value := by
  induction fields generalizing members with
  | nil => exact List.forall_mem_nil _
  | cons first rest ih =>
    rw [List.map_cons, List.mapM_cons] at h
    rcases bind_eq_ok.1 h with ⟨member, hmember, h⟩
    rcases bind_eq_ok.1 h with ⟨others, hothers, h⟩
    cases h
    rcases hbuild first List.mem_cons_self member hmember with ⟨hname, hfirst⟩
    rw [List.map_cons, List.nodup_cons] at hnames
    have hrest := ih (fun field hfield => hbuild field (List.mem_cons_of_mem _ hfield)) hothers hnames.2
    rcases member with ⟨name, value⟩
    simp only at hname hfirst
    intro field hfield
    rcases List.mem_cons.1 hfield with rfl | hlater
    · exact ⟨value, by rw [Dict.get?, if_pos hname], hfirst⟩
    · rcases hrest field hlater with ⟨later, hget, hP⟩
      have hne : name ≠ field.1 := by
        intro heq
        exact hnames.1 (hname ▸ heq ▸ List.mem_map_of_mem hlater)
      exact ⟨later, by rw [Dict.get?, if_neg hne]; exact hget, hP⟩

/-- The payload of a schema that describes a model has every field of it, built from its own schema. -/
theorem exists_members {calls : ℕ} {schema : Dict Value} {fields : List (String × Option Value × Shape)}
    {subschema : String → Dict Value} {index : ℕ} {fieldName : String}
    (hkind : schemaKind (resolveSchemaRef schema root) = .object)
    (hproperties : schemaProperties (resolveSchemaRef schema root) =
      .ok (fields.map fun field => (field.1, .obj (subschema field.1))))
    (hfields : fields ≠ []) (hnames : (fields.map Prod.fst).Nodup)
    (hall : ∀ field ∈ fields, ∃ value,
      synthesizeFromSchema lib root context rngKey calls (subschema field.1) field.1 index = .ok value) :
    ∃ members, synthesizeFromSchema lib root context rngKey (calls + 1) schema fieldName index = .ok (.obj members) ∧
      ∀ field ∈ fields, ∃ value, Dict.get? members field.1 = some value ∧
        synthesizeFromSchema lib root context rngKey calls (subschema field.1) field.1 index = .ok value := by
  have hmembers : ∃ members, ((fields.map fun field => (field.1, (.obj (subschema field.1) : Value))).mapM
      fun property => do
        let value ← synthesizeFromSchema lib root context rngKey calls (← asSchema property.2) property.1 index
        return (property.1, value)) = .ok members := by
    apply exists_mapM_ok_iff.2
    intro property hproperty
    rcases List.mem_map.1 hproperty with ⟨field, hfield, rfl⟩
    rcases hall field hfield with ⟨value, hvalue⟩
    exact ⟨(field.1, value), bind_eq_ok.2 ⟨_, rfl, bind_eq_ok.2 ⟨value, hvalue, rfl⟩⟩⟩
  rcases hmembers with ⟨members, hmembers⟩
  refine ⟨members, ?_, members_of_mapM ?_ hmembers hnames⟩
  · rw [synthesizeFromSchema_succ, hkind]
    refine bind_eq_ok.2 ⟨_, hproperties, ?_⟩
    rw [if_neg (by simpa using hfields)]
    exact bind_eq_ok.2 ⟨members, hmembers, rfl⟩
  · intro field hfield member hmember
    rcases bind_eq_ok.1 hmember with ⟨sub, hsub, h⟩
    cases hsub
    rcases bind_eq_ok.1 h with ⟨value, hvalue, h⟩
    cases h
    exact ⟨rfl, hvalue⟩

/-- A payload that is built from a schema of a shape passes the validation of the shape. -/
theorem exists_synthesize (rngKey : Text) (hfinite : CountsFinite lib context) {schema : Dict Value} {shape : Shape}
    (h : Describes root schema shape) {calls : ℕ} (hcalls : shape.depth ≤ calls) (fieldName : String) (index : ℕ) :
    ∃ value, synthesizeFromSchema lib root context rngKey calls schema fieldName index = .ok value ∧
      (validate lib.toValueLibrary shape value).isSome := by
  induction h generalizing calls fieldName index with
  | str hkind =>
    rw [depth] at hcalls
    rcases Nat.exists_eq_add_of_le' hcalls with ⟨below, rfl⟩
    rcases exists_stringValue hfinite fieldName index rngKey with ⟨text, htext⟩
    exact ⟨_, synthesize_str hkind htext, by rw [validate_str]; rfl⟩
  | optional h ih =>
    rw [depth] at hcalls
    rcases ih hcalls fieldName index with ⟨value, hvalue, hvalid⟩
    exact ⟨value, hvalue, isSome_validate_optional hvalid⟩
  | float hkind hdefault hminimum =>
    rw [depth] at hcalls
    rcases Nat.exists_eq_add_of_le' hcalls with ⟨below, rfl⟩
    rcases exists_numericDefault hdefault hminimum fieldName index with ⟨x, hx⟩
    refine ⟨.float x, ?_, by rw [validate_float]; rfl⟩
    rw [synthesizeFromSchema_succ, hkind]
    exact bind_eq_ok.2 ⟨x, hx, rfl⟩
  | strings hkind hproperties =>
    rw [depth] at hcalls
    rcases Nat.exists_eq_add_of_le' hcalls with ⟨below, rfl⟩
    refine ⟨mappingValue fieldName context, ?_, validate_mappingValue fieldName⟩
    rw [synthesizeFromSchema_succ, hkind]
    exact bind_eq_ok.2 ⟨[], hproperties, rfl⟩
  | @list schema item nonempty shape hkind hitems h ih =>
    rw [depth] at hcalls
    rcases Nat.exists_eq_add_of_le' ((Nat.le_add_left 1 _).trans hcalls) with ⟨below, rfl⟩
    rcases exists_resolveItemCount hfinite (resolveSchemaRef schema root) with ⟨count, hcount, hpos⟩
    have hitem (position : ℕ) := ih (Nat.le_of_add_le_add_right hcalls) fieldName (position + 1)
    have hvalues : ∃ values, ((List.range count).mapM fun position =>
        synthesizeFromSchema lib root context rngKey below item fieldName (position + 1)) = .ok values := by
      apply exists_mapM_ok_iff.2
      intro position _
      rcases hitem position with ⟨value, hvalue, -⟩
      exact ⟨value, hvalue⟩
    rcases hvalues with ⟨values, hvalues⟩
    refine ⟨.arr values, ?_, ?_⟩
    · rw [synthesizeFromSchema_succ, hkind]
      exact bind_eq_ok.2 ⟨item, by rw [hitems]; rfl, bind_eq_ok.2 ⟨count, hcount, bind_eq_ok.2 ⟨values, hvalues, rfl⟩⟩⟩
    · have hbuilt := mapM_eq_ok_iff.1 hvalues
      have hne : values ≠ [] := by
        intro hnil
        rw [hnil, List.forall₂_nil_right_iff, List.range_eq_nil] at hbuilt
        omega
      have hvalid : ∀ value ∈ values, (validate lib.toValueLibrary shape value).isSome := by
        intro value hvalue
        rcases List.getElem_of_mem hvalue with ⟨position, hposition, rfl⟩
        have hget := (List.forall₂_iff_get.1 hbuilt).2 position (by rw [hbuilt.length_eq]; exact hposition) hposition
        rcases hitem position with ⟨value, hvalue, hsome⟩
        simp only [List.get_eq_getElem, List.getElem_range, hvalue, Except.ok.injEq] at hget
        exact hget ▸ hsome
      rw [validate_list, if_neg (by simp [hne])]
      simpa using isSome_mapM.2 hvalid
  | model subschema hkind hproperties hfields hnames h ih =>
    rw [depth] at hcalls
    rcases Nat.exists_eq_add_of_le' ((Nat.le_add_left 1 _).trans hcalls) with ⟨below, rfl⟩
    have hfield : ∀ field ∈ _, _ := fun field hfield =>
      ih field hfield ((depth_le_depthFields hfield).trans (Nat.le_of_add_le_add_right hcalls)) field.1 index
    rcases exists_members hkind hproperties hfields hnames (fun field hmem => (hfield field hmem).imp fun _ h => h.1)
      with ⟨members, hmembers, hget⟩
    refine ⟨_, hmembers, ?_⟩
    rw [validate_model, Option.isSome_map]
    apply isSome_validateFields.2
    intro field hmem
    rcases hget field hmem with ⟨value, hvalue, hbuilt⟩
    rcases hfield field hmem with ⟨value', hvalue', hsome⟩
    rw [hbuilt] at hvalue'
    cases hvalue'
    rw [fieldValue, hvalue]
    exact hsome

/-- The object of a schema that describes a model: every field of it is built from a schema of its own. -/
theorem exists_object (rngKey : Text) (hfinite : CountsFinite lib context) {schema : Dict Value}
    {fields : List (String × Option Value × Shape)} (h : Describes root schema (.model fields)) {calls : ℕ}
    (hcalls : depthFields fields ≤ calls) (fieldName : String) (index : ℕ) :
    ∃ members, synthesizeFromSchema lib root context rngKey (calls + 1) schema fieldName index = .ok (.obj members) ∧
      ∀ field ∈ fields, ∃ subschema value, Describes root subschema field.2.2 ∧ Dict.get? members field.1 = some value ∧
        synthesizeFromSchema lib root context rngKey calls subschema field.1 index = .ok value := by
  cases h with
  | model subschema hkind hproperties hfields hnames h =>
    have hall : ∀ field ∈ fields, ∃ value,
        synthesizeFromSchema lib root context rngKey calls (subschema field.1) field.1 index = .ok value := by
      intro field hfield
      rcases exists_synthesize rngKey hfinite (h field hfield)
        ((depth_le_depthFields hfield).trans hcalls) field.1 index with ⟨value, hvalue, -⟩
      exact ⟨value, hvalue⟩
    rcases exists_members hkind hproperties hfields hnames hall with ⟨members, hmembers, hget⟩
    refine ⟨members, hmembers, ?_⟩
    intro field hfield
    rcases hget field hfield with ⟨value, hvalue, hsynthesized⟩
    exact ⟨subschema field.1, value, h field hfield, hvalue, hsynthesized⟩

/-- A text is built by the phrase of its field. -/
theorem eq_text_of_synthesize {schema : Dict Value} (h : Describes root schema .str) {calls : ℕ} {fieldName : String}
    {index : ℕ} {value : Value} {text : Text} (htext : stringValue lib fieldName context index rngKey = .ok text)
    (hvalue : synthesizeFromSchema lib root context rngKey (calls + 1) schema fieldName index = .ok value) :
    value = .str (.ofList text) := by
  cases h with
  | str hkind =>
    rw [synthesize_str hkind htext] at hvalue
    exact (Except.ok.inj hvalue).symm

/-! ## Responses to the story tasks -/

theorem depth_responseModel (task : StoryTask) : (responseModel task).depth ≤ 4 := by
  cases task <;> decide

theorem nodup_responseModel {task : StoryTask} {fields : List (String × Option Value × Shape)}
    (h : responseModel task = .model fields) : (fields.map Prod.fst).Nodup := by
  cases task <;> cases h <;> decide

/-- The response that is built for a task is valid, and its texts are the phrases of their fields. -/
theorem exists_response (rngKey : Text) (hfinite : CountsFinite lib context) {task : StoryTask}
    {fields : List (String × Option Value × Shape)} (hmodel : responseModel task = .model fields) {schema : Dict Value}
    (hschema : Describes root schema (responseModel task)) {calls : ℕ} (hcalls : 4 ≤ calls) :
    ∃ payload structured, synthesizeFromSchema lib root context rngKey calls schema "" 1 = .ok (.obj payload) ∧
      validateResponse lib.toValueLibrary task payload = some structured ∧
      ∀ name default, (name, default, Shape.str) ∈ fields →
        ∃ text, stringValue lib name context 1 rngKey = .ok text ∧ structured.get? name = some (.str (.ofList text)) := by
  have hdepth : depthFields fields + 1 ≤ 4 := by
    have hfour := depth_responseModel task
    rwa [hmodel, depth] at hfour
  rcases exists_synthesize rngKey hfinite hschema ((depth_responseModel task).trans hcalls) "" 1 with
    ⟨value, hvalue, hvalid⟩
  rcases Nat.exists_eq_add_of_le' ((by omega : 2 ≤ 4).trans hcalls) with ⟨below, rfl⟩
  rw [hmodel] at hschema hvalid
  have hbelow : depthFields fields ≤ below + 1 := by omega
  rcases exists_object rngKey hfinite hschema hbelow "" 1 with ⟨payload, hpayload, hget⟩
  rw [hpayload] at hvalue
  cases hvalue
  rw [validate_model, Option.isSome_map] at hvalid
  rcases Option.isSome_iff_exists.1 hvalid with ⟨structured, hstructured⟩
  refine ⟨payload, structured, hpayload, (validateResponse_eq_some hmodel).2 hstructured, ?_⟩
  intro name default hfield
  rcases hget _ hfield with ⟨subschema, value, hsub, hbuilt, hsynthesized⟩
  rcases exists_stringValue hfinite name 1 rngKey with ⟨text, htext⟩
  have heq : value = .str (.ofList text) := eq_text_of_synthesize hsub htext hsynthesized
  refine ⟨text, htext, ?_⟩
  rw [get?_validateFields hstructured (nodup_responseModel hmodel) hfield, fieldValue, hbuilt, Option.elim_some, heq,
    validate_str]

theorem textField_eq_empty_iff {structured : Dict Value} {name : String} {text : Text}
    (h : structured.get? name = some (.str (.ofList text))) :
    textField lib.toValueLibrary structured name = "" ↔ isBlank text := by
  rw [textField, rawField, h, Option.getD_some, lib.str_str, strip_eq_empty_iff, String.toList_ofList, visible_eq_nil]

/-- The prose of a template is not blank. -/
theorem not_isBlank_prose {text : Text} (h : stringValue lib "prose_markdown" context 1 rngKey = .ok text) :
    ¬isBlank text := by
  have htext : text = fill { subject := subject context, mood := mood context, index := (toString 1).toList }
      ((fieldPhrases.get? "prose_markdown").getD []) := (Except.ok.inj h).symm
  intro hblank
  have hmem : '息' ∈ text := by
    rw [htext]
    refine List.mem_flatMap.2 ⟨.text "は静かに息を吸った。\n\n", by simp [fieldPhrases, Dict.get?], ?_⟩
    rw [Slot.render]
    decide
  exact absurd (isBlank_iff.1 hblank '息' hmem) (by decide)

/-- The name of a template character is the subject of the brief. -/
theorem name_eq_subject {text : Text} (h : stringValue lib "name" context 1 rngKey = .ok text) : text = subject context := by
  have htext : text = fill { subject := subject context, mood := mood context, index := (toString 1).toList }
      ((fieldPhrases.get? "name").getD []) := (Except.ok.inj h).symm
  rw [htext]
  simp [fill, fieldPhrases, Dict.get?, Slot.render]

/-- The image prompt of a scene of a payload. -/
def imagePromptOf (scene : Value) : Option Value := scene.obj?.bind fun members => Dict.get? members "image_prompt"

/-- The scene of a schema that describes one is built with the image prompt of its place. -/
theorem imagePromptOf_scene (hfinite : CountsFinite lib context) {item : Dict Value}
    (hitem : Describes root item (.model sceneFields)) {total : ℕ} (htotal : sceneTotal lib context = .ok total)
    {calls : ℕ} (hcalls : 2 ≤ calls) {fieldName : String} {index : ℕ} {scene : Value}
    (h : synthesizeFromSchema lib root context rngKey calls item fieldName index = .ok scene) :
    imagePromptOf scene = some (.str (.ofList (sceneImagePrompt (subject context) (mood context) index total))) := by
  rcases Nat.exists_eq_add_of_le' hcalls with ⟨below, rfl⟩
  have hdepth : depthFields sceneFields ≤ below + 1 := (show depthFields sceneFields ≤ 1 by decide).trans (by omega)
  rcases exists_object rngKey hfinite hitem hdepth fieldName index with ⟨members, hmembers, hget⟩
  rw [hmembers] at h
  cases h
  rcases hget (required "image_prompt" .str) (by simp [sceneFields]) with ⟨subschema, value, hsub, hvalue, hsynthesized⟩
  have htext : stringValue lib "image_prompt" context index rngKey =
      .ok (sceneImagePrompt (subject context) (mood context) index total) := bind_eq_ok.2 ⟨total, htotal, rfl⟩
  rw [eq_text_of_synthesize hsub htext hsynthesized] at hvalue
  exact hvalue

/-- A list that is described is built item by item. -/
theorem exists_list (hfinite : CountsFinite lib context) {schema : Dict Value} {nonempty : Bool} {shape : Shape}
    (h : Describes root schema (.list nonempty shape)) {calls : ℕ} {fieldName : String} {index : ℕ} {value : Value}
    (hvalue : synthesizeFromSchema lib root context rngKey (calls + 1) schema fieldName index = .ok value) :
    ∃ list item count values, Describes root item shape ∧ resolveItemCount lib list context = .ok count ∧
      value = .arr values ∧ List.Forall₂ (fun position built =>
        synthesizeFromSchema lib root context rngKey calls item fieldName (position + 1) = .ok built)
        (List.range count) values := by
  cases h with
  | @list schema item nonempty shape hkind hitems h =>
    rcases exists_resolveItemCount hfinite (resolveSchemaRef schema root) with ⟨count, hcount, -⟩
    rw [synthesizeFromSchema_succ, hkind] at hvalue
    rcases bind_eq_ok.1 hvalue with ⟨item', hitem', hvalue⟩
    rw [hitems] at hitem'
    cases hitem'
    rcases bind_eq_ok.1 hvalue with ⟨count', hcount', hvalue⟩
    rw [hcount] at hcount'
    cases hcount'
    rcases bind_eq_ok.1 hvalue with ⟨values, hvalues, hvalue⟩
    cases hvalue
    exact ⟨_, item, count, values, h, hcount, rfl, mapM_eq_ok_iff.1 hvalues⟩

/-- The scenes of a template story: as many as the brief counts, up to 24. They all have different
image prompts if there are seven at most, or if the arc they are placed in has 29 at most; where the
brief has one count for both, they have if and only if it is 29 at most. -/
theorem nodup_imagePrompts (rngKey : Text) (hfinite : CountsFinite lib context) {schema : Dict Value}
    (hschema : Describes root schema sceneListResponse) {calls : ℕ} (hcalls : 4 ≤ calls) :
    ∃ payload scenes total, synthesizeFromSchema lib root context rngKey calls schema "" 1 = .ok (.obj payload) ∧
      Dict.get? payload "scenes" = some (.arr scenes) ∧ sceneTotal lib context = .ok total ∧
      (scenes.length ≤ 7 ∨ scenes.length ≤ total ∧ total ≤ 29 → (scenes.map imagePromptOf).Nodup) ∧
      ∀ n, firstCount lib context ["count", "scene_count", "beat_count"] = .ok (some n) →
        scenes.length = (max 1 (min 24 n)).toNat ∧
        (firstCount lib context ["scene_count", "count"] = .ok (some n) →
          ((scenes.map imagePromptOf).Nodup ↔ n ≤ 29)) := by
  rcases Nat.exists_eq_add_of_le' ((by omega : 4 ≤ 4).trans hcalls) with ⟨below, rfl⟩
  have hdepth : depthFields [required "scenes" (.list true (.model sceneFields))] ≤ below + 3 :=
    (show depthFields [required "scenes" (.list true (.model sceneFields))] ≤ 3 by decide).trans (by omega)
  rcases exists_object rngKey hfinite hschema hdepth "" 1 with ⟨payload, hpayload, hget⟩
  rcases hget _ List.mem_cons_self with ⟨subschema, value, hsub, hvalue, hsynthesized⟩
  rcases exists_list hfinite hsub hsynthesized with ⟨list, item, count, scenes, hitem, hitems, rfl, hscenes⟩
  rcases exists_sceneTotal hfinite with ⟨total, htotal⟩
  have hlength : scenes.length = count := by rw [← hscenes.length_eq, List.length_range]
  have hprompts : scenes.map imagePromptOf = (List.range count).map fun position =>
      some (.str (.ofList (sceneImagePrompt (subject context) (mood context) (position + 1) total))) := by
    apply List.ext_getElem
    · rw [List.length_map, List.length_map, List.length_range, hlength]
    · intro position hleft hright
      rw [List.length_map] at hleft hright
      have hbuilt := (List.forall₂_iff_get.1 hscenes).2 position hright hleft
      simp only [List.get_eq_getElem, List.getElem_range] at hbuilt
      rw [List.getElem_map, List.getElem_map, List.getElem_range]
      exact imagePromptOf_scene hfinite hitem htotal (by omega) hbuilt
  have hnodup : (scenes.map imagePromptOf).Nodup ↔ ((List.range count).map fun position =>
      sceneImagePrompt (subject context) (mood context) (position + 1) total).Nodup := by
    have hinjective : Function.Injective fun text : Text => (some (.str (.ofList text)) : Option Value) := by
      intro a b hab
      have hstring : String.ofList a = String.ofList b := by simpa using hab
      simpa using congrArg String.toList hstring
    rw [hprompts, ← List.nodup_map_iff hinjective, List.map_map]
    rfl
  refine ⟨payload, scenes, total, hpayload, hvalue, htotal, ?_⟩
  rw [hnodup, hlength]
  refine ⟨?_, ?_⟩
  · intro hfew
    exact nodup_sceneImagePrompts_range (subject context) (mood context) hfew
  intro n hcount
  have hcounted : count = (max 1 (min 24 n)).toNat := by
    have h : resolveItemCount lib list context = .ok (max 1 (min 24 n)).toNat := bind_eq_ok.2 ⟨some n, hcount, rfl⟩
    rw [hitems] at h
    exact Except.ok.inj h
  refine ⟨hcounted, ?_⟩
  intro hsame
  have hall : total = (max 1 n).toNat := by
    have h : sceneTotal lib context = .ok (max 1 n).toNat := bind_eq_ok.2 ⟨some n, hsame, rfl⟩
    rw [htotal] at h
    exact Except.ok.inj h
  have hmin : count = min 24 total := by omega
  rw [hmin, nodup_sceneImagePrompts]
  omega

end

/-! ## A script and a list of scenes -/

/-- A library that reads one number. -/
def sixScenes : TemplateLibrary where
  str := stringText
  repr _ := ""
  general _ := ""
  fixed4 _ := ""
  parseFloat s := if s = "6" then some (.finite 6) else none
  pow10 _ := none
  str_str := stringText_str
  lower := String.toLower
  sha1 _ := []
  dumpsIndented _ := []

/-- The schema of a text. -/
def textSchema (title : String) : Value := .obj [("title", .str title), ("type", .str "string")]

/-- The schema of a text that may be missing. -/
def blankSchema (title : String) : Value := .obj [("default", .str ""), ("title", .str title), ("type", .str "string")]

/-- The schema of a list of models that are defined under a name. -/
def listSchema (title definition : String) : Value :=
  .obj [("items", .obj [("$ref", .str ("#/$defs/" ++ definition))]), ("minItems", .int 1), ("title", .str title),
    ("type", .str "array")]

/-- `ScriptResponse.model_json_schema()`. -/
def scriptSchema : Dict Value :=
  [("$defs", .obj [("ScriptLine", .obj [
      ("properties", .obj [("speaker", textSchema "Speaker"), ("text", textSchema "Text"),
        ("direction", .obj [("anyOf", .arr [.obj [("type", .str "string")], .obj [("type", .str "null")]]),
          ("default", .null), ("title", .str "Direction")])]),
      ("required", .arr [.str "speaker", .str "text"]), ("title", .str "ScriptLine"), ("type", .str "object")])]),
    ("properties", .obj [("lines", listSchema "Lines" "ScriptLine")]), ("required", .arr [.str "lines"]),
    ("title", .str "ScriptResponse"), ("type", .str "object")]

/-- `SceneListResponse.model_json_schema()`. -/
def sceneListSchema : Dict Value :=
  [("$defs", .obj [("SceneItem", .obj [
      ("properties", .obj [("heading", textSchema "Heading"), ("summary", blankSchema "Summary"),
        ("narration", blankSchema "Narration"), ("image_prompt", textSchema "Image Prompt"),
        ("image_negative", blankSchema "Image Negative"), ("bgm_mood", blankSchema "Bgm Mood"),
        ("duration_seconds", .obj [("default", .float (.finite 4)), ("title", .str "Duration Seconds"),
          ("type", .str "number")]),
        ("camera", blankSchema "Camera")]),
      ("required", .arr [.str "heading", .str "image_prompt"]), ("title", .str "SceneItem"), ("type", .str "object")])]),
    ("properties", .obj [("scenes", listSchema "Scenes" "SceneItem")]), ("required", .arr [.str "scenes"]),
    ("title", .str "SceneListResponse"), ("type", .str "object")]

/-- The schema of a property. -/
def propertySchema (schema root : Dict Value) (name : String) : Dict Value :=
  ((((resolveSchemaRef schema root).get? "properties").bind JsonOf.obj?).bind fun properties =>
    (Dict.get? properties name).bind JsonOf.obj?).getD []

theorem describes_scriptSchema : Describes scriptSchema scriptSchema scriptResponse := by
  refine .model (propertySchema scriptSchema scriptSchema) rfl rfl (by simp) (by decide) ?_
  refine List.forall_mem_cons.2 ⟨.list rfl rfl ?_, List.forall_mem_nil _⟩
  refine .model (propertySchema [("$ref", .str "#/$defs/ScriptLine")] scriptSchema) rfl rfl (by simp) (by decide) ?_
  simp only [List.forall_mem_cons]
  exact ⟨.str rfl, .str rfl, .optional (.str rfl), List.forall_mem_nil _⟩

theorem describes_sceneListSchema : Describes sceneListSchema sceneListSchema sceneListResponse := by
  refine .model (propertySchema sceneListSchema sceneListSchema) rfl rfl (by simp) (by decide) ?_
  refine List.forall_mem_cons.2 ⟨.list rfl rfl ?_, List.forall_mem_nil _⟩
  refine .model (propertySchema [("$ref", .str "#/$defs/SceneItem")] sceneListSchema) rfl rfl (by simp [sceneFields])
    (by decide) ?_
  simp only [sceneFields, List.forall_mem_cons]
  refine ⟨.str rfl, .str rfl, .str rfl, .str rfl, .str rfl, .str rfl, ?_, .str rfl, List.forall_mem_nil _⟩
  refine .float rfl ?_ ?_
  · intro n h
    cases h
  · intro n h
    cases h

/-- A brief with a subject and a count. -/
def sixBrief : Dict String := [("subject", "The last train"), ("scene_count", "6")]

theorem countsFinite_sixBrief : CountsFinite sixScenes sixBrief := by
  intro key _ raw _
  have hread : sixScenes.parseFloat raw = if raw = "6" then some (.finite 6) else none := rfl
  rw [hread]
  split <;> simp

/-- Six scenes, and six image prompts. -/
theorem nodup_imagePrompts_six : ∃ payload scenes,
    synthesizeFromSchema sixScenes sceneListSchema sixBrief [] 4 sceneListSchema "" 1 = .ok (.obj payload) ∧
      Dict.get? payload "scenes" = some (.arr scenes) ∧ scenes.length = 6 ∧ (scenes.map imagePromptOf).Nodup := by
  rcases nodup_imagePrompts [] countsFinite_sixBrief describes_sceneListSchema le_rfl with
    ⟨payload, scenes, total, hpayload, hscenes, -, -, hcounted⟩
  rcases hcounted 6 rfl with ⟨hlength, hnodup⟩
  exact ⟨payload, scenes, hpayload, hscenes, hlength, (hnodup rfl).2 (by decide)⟩

end CreativeStudio.Generators
