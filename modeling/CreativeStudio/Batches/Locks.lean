import CreativeStudio.Batches.FanOut

/-!
# What a lock keeps

A locked field is one that no patch may set outright; the keys that append are exempt.
The test for a lock looks at the keys of a patch. What a patch holds under `params` is
merged key by key without a test, the patches themselves are copied into `params`, and a
patch of the model moves an item to another index, from which its seed may be counted.
`locksHold_iff` says exactly when the locks hold all the same.
-/

namespace CreativeStudio.Batches
open Data Jobs

/-! ## Requests without overriding patches -/

/-- A patch key that appends to a field. -/
def appends (key : String) : Bool := (patchAppendKeys.lookup key).isSome

def AxisValue.appendsOnly (value : AxisValue) : AxisValue :=
  { value with patch := value.patch.filter fun entry => appends entry.1 }

def Axis.appendsOnly (axis : Axis) : Axis :=
  { axis with values := axis.values.map AxisValue.appendsOnly }

/-- The spec with all but the appending entries of its patches removed. -/
def BatchSpec.appendsOnly (spec : BatchSpec) : BatchSpec :=
  { spec with axes := spec.axes.map Axis.appendsOnly }

/-- A top-level field of a request, as a payload holds it. -/
def requestField (r : GenerationRequest) : Field → Json
  | .prompt => .str r.prompt
  | .negativePrompt => ofOption .str r.negativePrompt
  | .modelId => .str r.modelId
  | .seed => ofOption .int r.seed
  | .outputFormat => ofOption .str r.outputFormat
  | .taskType => ofOption .str r.taskType

/-- Two requests hold the same under a key: the top-level field of that name, or else the
value of `params`. -/
def SameAt (key : String) (r r' : GenerationRequest) : Prop :=
  match topLevelKeys.lookup key with
  | some field => requestField r field = requestField r' field
  | none =>
    if key = "media_type" then r.mediaType = r'.mediaType
    else if key = "references" then r.references = r'.references
    else if key = "params" then Obj.Same r.params r'.params
    else (r.params.get? key).map JsonOf.canon = (r'.params.get? key).map JsonOf.canon

instance (key : String) (r r' : GenerationRequest) : Decidable (SameAt key r r') :=
  match htop : topLevelKeys.lookup key with
  | some field => decidable_of_iff (requestField r field = requestField r' field) (by simp only [SameAt, htop])
  | none => decidable_of_iff
      (if key = "media_type" then r.mediaType = r'.mediaType
        else if key = "references" then r.references = r'.references
        else if key = "params" then Obj.Same r.params r'.params
        else (r.params.get? key).map JsonOf.canon = (r'.params.get? key).map JsonOf.canon)
      (by simp only [SameAt, htop])

/-- Every locked key of every item holds what it holds when all but the appending patches
are removed. -/
def LocksHold (lib : Library) (spec : BatchSpec) (stage : Stage) (stageIndex : ℕ)
    (seedItems : Option (List BatchItem)) (idPrefix : String) (items : List BatchItem) : Prop :=
  ∀ items', expandItems lib spec.appendsOnly stage stageIndex seedItems idPrefix = .ok items' →
    ∀ item ∈ items, ∀ item' ∈ items', item.id = item'.id → ∀ key ∈ spec.lockedFields,
      SameAt key item.request item'.request

/-! ## The condition -/

/-- The values of the members of a name. -/
def valuesAt (d : Obj) (key : String) : List Json := (d.filter fun kv => kv.1 == key).map Prod.snd

/-- The values that the `params` objects among patch entries hold under a key. -/
def nestedValues (key : String) (entries : List (String × Json)) : List Json :=
  entries.flatMap fun entry => match entry with
    | ("params", .obj members) => valuesAt members key
    | _ => []

/-- What a key holds after values are merged into it one after the other. -/
def overlay (held : Option Json) (values : List Json) : Option Json :=
  values.foldl (fun held value => some (mergeValue held value)) held

/-- A key of `params`, not a field of a request. -/
def Generic (key : String) : Prop :=
  topLevelKeys.lookup key = none ∧ key ∉ ["media_type", "references", "params"]

/-- The patches of a cell leave a locked key alone. -/
structure KeepsLock (spec : BatchSpec) (stage : Stage) (axisValues : AxisLabels) (key : String) :
    Prop where
  /-- `params` as a whole, and the copy of the patches in it, show every patch. -/
  copied : key = "params" ∨ key = "axis_values" →
    ∀ entry ∈ chosenEntries spec axisValues, appends entry.1 = true
  /-- A `params` object in a patch may only hold under the key what changes nothing. -/
  nested : Generic key → key ∈ batchKeys spec axisValues ∨
    (overlay (spec.params.get? key)
      (nestedValues key (chosenEntries spec axisValues) ++ valuesAt stage.paramOverrides key)).map JsonOf.canon =
    (overlay (spec.params.get? key) (valuesAt stage.paramOverrides key)).map JsonOf.canon

/-- The model id that the patches of a cell leave. -/
def patchedModelId (spec : BatchSpec) (axisValues : AxisLabels) : String :=
  ((lastValue "model_id" (chosenEntries spec axisValues)).bind readStr).getD spec.modelId

/-- The patches of every cell leave the locked keys alone, and where a locked seed is
counted from the index, the models they set do not move an item. -/
def LocksKept (lib : Library) (spec : BatchSpec) (stage : Stage) (seedItems : Option (List BatchItem)) :
    Prop :=
  ∀ seeded, seededCombinations lib spec seedItems = .ok seeded →
    (∀ c ∈ seeded, ∀ key ∈ spec.lockedFields, KeepsLock spec stage (Dict.ofPairs c.1) key) ∧
    ("seed" ∈ spec.lockedFields → reseeds spec seedItems = true →
      (seeded.map fun c => patchedModelId spec (Dict.ofPairs c.1)).Pairwise (· ≤ ·))

/-! ## Keys of a merged dictionary -/

@[simp] theorem overlay_nil (held : Option Json) : overlay held [] = held := rfl

@[simp] theorem overlay_append (held : Option Json) (values values' : List Json) :
    overlay held (values ++ values') = overlay (overlay held values) values' :=
  List.foldl_append

@[simp] theorem valuesAt_nil (key : String) : valuesAt [] key = [] := rfl

theorem valuesAt_cons (key key' : String) (value : Json) (rest : Obj) :
    valuesAt ((key', value) :: rest) key = if key' = key then value :: valuesAt rest key else valuesAt rest key := by
  unfold valuesAt
  by_cases hkey : key' = key <;> simp [hkey]

theorem get?_deepMerge (base patch : Obj) (key : String) :
    (deepMerge base patch).get? key = overlay (base.get? key) (valuesAt patch key) := by
  induction patch generalizing base with
  | nil => simp [deepMerge]
  | cons member rest ih =>
    obtain ⟨key', value⟩ := member
    rw [deepMerge, ih, valuesAt_cons, Dict.get?_set]
    by_cases hkey : key' = key
    · simp [hkey, overlay]
    · simp [hkey]

@[simp] theorem nestedValues_nil (key : String) : nestedValues key [] = [] := rfl

theorem nestedValues_cons (key : String) (entry : String × Json) (rest : List (String × Json)) :
    nestedValues key (entry :: rest) = nestedValues key [entry] ++ nestedValues key rest := by
  simp [nestedValues]

/-- An entry that does not set a key outright reaches it through a `params` object only. -/
theorem get?_writeParams {locked : List String} {key : String} (hkey : key ∈ locked)
    {entry : String × Json} (hlocks : ¬ SetsLocked locked entry) (params : Obj) :
    (writeParams params entry).get? key = overlay (params.get? key) (nestedValues key [entry]) := by
  obtain ⟨name, value⟩ := entry
  unfold writeParams nestedValues
  by_cases hplace : ((patchAppendKeys.lookup name).isSome || (topLevelKeys.lookup name).isSome) = true
  · have hname : name ≠ "params" := by
      rintro rfl
      revert hplace
      decide
    rw [if_pos hplace]
    simp only [List.flatMap_cons, List.flatMap_nil, List.append_nil]
    split
    · exact absurd (Prod.ext_iff.mp ‹_›).1 hname
    · rfl
  · rw [if_neg hplace]
    have hname : name ≠ key := by
      rintro rfl
      refine hlocks ⟨?_, hkey⟩
      rw [Bool.or_eq_true, not_or] at hplace
      exact Option.not_isSome_iff_eq_none.mp hplace.1
    simp only [List.flatMap_cons, List.flatMap_nil, List.append_nil]
    split
    · exact get?_deepMerge params _ key
    next hnot =>
      rw [get?_deepMerge, valuesAt_cons, if_neg hname]
      split
      · exact (hnot _ (Prod.ext_iff.mp ‹_›).1 (Prod.ext_iff.mp ‹_›).2).elim
      · rfl

/-- Where no entry sets a key outright, `params` objects are all that reaches it. -/
theorem get?_settledParams {locked : List String} {key : String} (hkey : key ∈ locked)
    {entries : List (String × Json)} (hlocks : ∀ entry ∈ entries, ¬ SetsLocked locked entry) (initial : Obj) :
    (settledParams initial entries).get? key = overlay (initial.get? key) (nestedValues key entries) := by
  induction entries generalizing initial with
  | nil => rfl
  | cons entry rest ih =>
    have hrest := ih (fun e he => hlocks e (List.mem_cons_of_mem _ he)) (writeParams initial entry)
    rw [settledParams] at hrest
    rw [settledParams, List.foldl_cons, hrest, get?_writeParams hkey (hlocks _ List.mem_cons_self),
      ← overlay_append, ← nestedValues_cons]

theorem get?_setWhen (condition : Bool) (key key' : String) (value : Json) (d : Obj) :
    (setWhen condition key value d).get? key' =
      if condition = true ∧ key' = key then some value else d.get? key' := by
  unfold setWhen
  cases condition with
  | false => simp
  | true => simp [Dict.get?_set, eq_comm]

/-- What a stage's `params` hold under a key. -/
theorem get?_finishParams (spec : BatchSpec) (axisValues : AxisLabels) (stage : Stage) (params : Obj)
    (key : String) :
    (finishParams spec axisValues stage params).get? key =
      if key = "batch_stage" then some (.str stage.name)
      else if key = "batch_axis_labels" then some (.obj (Dict.mapValues .str axisValues))
      else if (!(chosenPatches spec axisValues).isEmpty) = true ∧ key = "axis_values" then
        some (.obj (Dict.mapValues .obj (chosenPatches spec axisValues)))
      else if (!spec.bibleRefs.isEmpty) = true ∧ key = "bible_refs" then
        some (.arr (spec.bibleRefs.map .str))
      else (deepMerge params stage.paramOverrides).get? key := by
  simp only [finishParams, Dict.get?_set, get?_setWhen, eq_comm (b := key)]

/-! ## A spec without overriding patches -/

theorem axisByName_appendsOnly (spec : BatchSpec) (name : String) :
    axisByName spec.appendsOnly name = (axisByName spec name).map Axis.appendsOnly := by
  unfold axisByName BatchSpec.appendsOnly
  simp only [List.find?_map]
  rfl

theorem axisValue_appendsOnly (spec : BatchSpec) (name label : String) :
    axisValue spec.appendsOnly name label = (axisValue spec name label).map AxisValue.appendsOnly := by
  unfold axisValue
  rw [axisByName_appendsOnly]
  cases axisByName spec name with
  | none => rfl
  | some axis =>
    simp only [Option.map_some, Option.bind_some, Axis.appendsOnly, List.find?_map]
    rfl

theorem chosenPatches_appendsOnly (spec : BatchSpec) (axisValues : AxisLabels) :
    chosenPatches spec.appendsOnly axisValues = Dict.mapValues
      (fun patch => patch.filter fun entry => appends entry.1) (chosenPatches spec axisValues) := by
  unfold chosenPatches Dict.mapValues
  rw [List.map_filterMap]
  congr 1
  funext chosen
  rw [axisValue_appendsOnly]
  cases axisValue spec chosen.1 chosen.2 <;> rfl

theorem chosenEntries_appendsOnly (spec : BatchSpec) (axisValues : AxisLabels) :
    chosenEntries spec.appendsOnly axisValues =
      (chosenEntries spec axisValues).filter fun entry => appends entry.1 := by
  unfold chosenEntries
  rw [chosenPatches_appendsOnly, Dict.mapValues, List.flatMap_map, List.filter_flatMap]

/-- Where every patch only appends there is nothing to remove. -/
theorem chosenPatches_of_appends {spec : BatchSpec} {axisValues : AxisLabels}
    (h : ∀ entry ∈ chosenEntries spec axisValues, appends entry.1 = true) :
    chosenPatches spec.appendsOnly axisValues = chosenPatches spec axisValues := by
  rw [chosenPatches_appendsOnly, Dict.mapValues]
  conv_rhs => rw [← List.map_id (chosenPatches spec axisValues)]
  refine List.map_congr_left fun chosen hchosen => ?_
  have hpatch : chosen.2.filter (fun entry => appends entry.1) = chosen.2 :=
    List.filter_eq_self.mpr fun entry hentry => h entry (List.mem_flatMap.mpr ⟨chosen, hchosen, hentry⟩)
  rw [hpatch]
  rfl

theorem product_appendsOnly (axes : List Axis) : product (axes.map Axis.appendsOnly) = product axes := by
  induction axes with
  | nil => rfl
  | cons axis rest ih =>
    simp only [List.map_cons, product, ih, Axis.appendsOnly, List.flatMap_map]
    rfl

theorem combinations_appendsOnly (lib : Library) (spec : BatchSpec) :
    combinations lib spec.appendsOnly = combinations lib spec := by
  have haxes : spec.appendsOnly.axes.isEmpty = spec.axes.isEmpty := by
    simp [BatchSpec.appendsOnly]
  unfold combinations
  rw [haxes]
  simp only [BatchSpec.appendsOnly, product_appendsOnly]
  rfl

theorem seededCombinations_appendsOnly (lib : Library) (spec : BatchSpec)
    (seedItems : Option (List BatchItem)) :
    seededCombinations lib spec.appendsOnly seedItems = seededCombinations lib spec seedItems := by
  cases seedItems with
  | none => rw [seededCombinations, seededCombinations, combinations_appendsOnly]
  | some winners => rfl

/-! ## One request with and without overriding patches -/

/-- A locked field is only appended to. -/
theorem settledField_of_locked (lib : Library) {locked : List String} {key : String} {field : Field}
    (hkey : key ∈ locked) (htop : topLevelKeys.lookup key = some field) {entries : List (String × Json)}
    (hlocks : ∀ entry ∈ entries, ¬ SetsLocked locked entry) (initial : Json) :
    settledField lib field initial (entries.filter fun entry => appends entry.1) =
      settledField lib field initial entries := by
  induction entries generalizing initial with
  | nil => rfl
  | cons entry rest ih =>
    have hrest := ih fun e he => hlocks e (List.mem_cons_of_mem _ he)
    rw [List.filter_cons]
    by_cases happend : appends entry.1 = true
    · rw [if_pos happend]
      exact hrest (writeField lib field initial entry)
    · rw [if_neg happend, hrest initial]
      have hnone : patchAppendKeys.lookup entry.1 = none := Option.not_isSome_iff_eq_none.mp happend
      have hkeep : writeField lib field initial entry = initial := by
        unfold writeField
        rw [hnone]
        refine if_neg fun hsame => hlocks entry List.mem_cons_self ⟨hnone, ?_⟩
        exact topLevelKeys_inj hsame htop ▸ hkey
      rw [settledField, settledField, List.foldl_cons, hkeep]

theorem requestField_congr {lib : Library} {mediaType : MediaType} {fields fields' : Field → Json}
    {r r' : GenerationRequest} (hr : readFields lib mediaType fields = some r)
    (hr' : readFields lib mediaType fields' = some r') {field : Field} (h : fields field = fields' field) :
    requestField r field = requestField r' field := by
  unfold readFields at hr hr'
  simp only [Option.pure_def, Option.bind_eq_bind, Option.bind_eq_some_iff, Option.some.injEq] at hr hr'
  obtain ⟨taskType, htask, prompt, hprompt, negativePrompt, hnegative, modelId, hmodel, seed, hseed,
    outputFormat, houtput, rfl⟩ := hr
  obtain ⟨taskType', htask', prompt', hprompt', negativePrompt', hnegative', modelId', hmodel', seed', hseed',
    outputFormat', houtput', rfl⟩ := hr'
  cases field with
  | prompt =>
    rw [h, hprompt'] at hprompt
    rw [requestField, requestField, Option.some.inj hprompt]
  | negativePrompt =>
    rw [h, hnegative'] at hnegative
    rw [requestField, requestField, Option.some.inj hnegative]
  | modelId =>
    rw [h, hmodel'] at hmodel
    rw [requestField, requestField, Option.some.inj hmodel]
  | seed =>
    rw [h, hseed'] at hseed
    rw [requestField, requestField, Option.some.inj hseed]
  | outputFormat =>
    rw [h, houtput'] at houtput
    rw [requestField, requestField, Option.some.inj houtput]
  | taskType =>
    rw [h, htask'] at htask
    rw [requestField, requestField, Option.some.inj htask]

section Cell
variable {lib : Library} {spec : BatchSpec} {axisValues : AxisLabels} {stage : Stage} {position : ℕ}
  {inherited : Option ℤ} {r r' : GenerationRequest}

theorem axisValuesPatchSeed_of_locked (hlocked : "seed" ∈ spec.lockedFields)
    (hlocks : ∀ entry ∈ chosenEntries spec axisValues, ¬ SetsLocked spec.lockedFields entry) :
    axisValuesPatchSeed spec axisValues = false := by
  unfold axisValuesPatchSeed
  rw [List.any_eq_false]
  intro entry hentry hkey
  have hname : entry.1 = "seed" := by simpa using hkey
  exact hlocks entry hentry ⟨by rw [hname]; decide, hname ▸ hlocked⟩

/-- The seed a locked request starts from is the seed it ends with. -/
theorem seed_of_locked (hlocked : "seed" ∈ spec.lockedFields)
    (h : buildRequest lib spec axisValues stage position inherited = .ok r) :
    r.seed = if inherited.isSome then inherited else resolveSeed spec position := by
  obtain ⟨hlocks, request, -, rfl⟩ := buildRequest_eq_ok h
  simp only [axisValuesPatchSeed_of_locked hlocked hlocks, Bool.false_eq_true, if_false]

theorem modelId_of_buildRequest (h : buildRequest lib spec axisValues stage position inherited = .ok r) :
    r.modelId = patchedModelId spec axisValues := by
  obtain ⟨-, request, hread, rfl⟩ := buildRequest_eq_ok h
  unfold readFields at hread
  simp only [Option.pure_def, Option.bind_eq_bind, Option.bind_eq_some_iff, Option.some.injEq] at hread
  obtain ⟨taskType, -, prompt, -, negativePrompt, -, modelId, hmodel, seed, -, outputFormat, -, rfl⟩ := hread
  have htop : topLevelKeys.lookup "model_id" = some .modelId := by decide
  simp only [settled, settledField_of_topLevel lib htop (by simp)] at hmodel
  unfold patchedModelId
  cases hvalue : lastValue "model_id" (chosenEntries spec axisValues) with
  | none =>
    rw [hvalue] at hmodel
    exact (Option.some.inj hmodel).symm
  | some value =>
    rw [hvalue, Option.getD_some] at hmodel
    simp [hmodel]

theorem patchedModelId_appendsOnly (spec : BatchSpec) (axisValues : AxisLabels) :
    patchedModelId spec.appendsOnly axisValues = spec.modelId := by
  have hnone : lastValue "model_id" (chosenEntries spec.appendsOnly axisValues) = none := by
    rw [chosenEntries_appendsOnly, lastValue, List.filter_filter, List.filter_eq_nil_iff.mpr]
    · rfl
    · intro entry _ hentry
      rw [Bool.and_eq_true, beq_iff_eq] at hentry
      rw [hentry.1] at hentry
      exact absurd hentry.2 (by decide)
  rw [patchedModelId, hnone]
  rfl

/-- The whole `params` and the copy of the patches are as they were only when every patch appends. -/
theorem appends_of_copied (hnames : (axisValues.map Prod.fst).Nodup)
    (h : ((stageParams spec axisValues stage).get? "axis_values").map JsonOf.canon =
      ((stageParams spec.appendsOnly axisValues stage).get? "axis_values").map JsonOf.canon) :
    ∀ entry ∈ chosenEntries spec axisValues, appends entry.1 = true := by
  intro entry hentry
  obtain ⟨chosen, hchosen, hmem⟩ := List.mem_flatMap.mp hentry
  have hne : (chosenPatches spec axisValues).isEmpty = false := by
    rw [List.isEmpty_eq_false_iff]
    exact List.ne_nil_of_mem hchosen
  have hne' : (chosenPatches spec.appendsOnly axisValues).isEmpty = false := by
    rw [chosenPatches_appendsOnly, Dict.mapValues, List.isEmpty_map]
    exact hne
  unfold stageParams at h
  rw [get?_finishParams, get?_finishParams] at h
  simp only [hne, hne', String.reduceEq, if_false, Bool.not_false, true_and, if_true, Option.map_some,
    Option.some.injEq, JsonOf.canon_obj, JsonOf.obj.injEq] at h
  have hpatch := Obj.canon_eq_iff.mp h chosen.1
  have hget := Dict.get?_of_mem (nodup_chosenPatches spec hnames) hchosen
  rw [chosenPatches_appendsOnly, Dict.get?_mapValues, Dict.get?_mapValues, Dict.get?_mapValues, hget] at hpatch
  simp only [Option.map_some, Option.some.injEq, JsonOf.canon_obj, JsonOf.obj.injEq] at hpatch
  have hvalue := Obj.canon_eq_iff.mp hpatch entry.1
  rw [Dict.get?_filter] at hvalue
  by_contra hnot
  rw [if_neg hnot] at hvalue
  have hsome : (Dict.get? chosen.2 entry.1).isSome :=
    Dict.mem_names_iff.mp (List.mem_map.mpr ⟨entry, hmem, rfl⟩)
  simp only [Option.map_none, Option.map_eq_none_iff] at hvalue
  rw [hvalue] at hsome
  cases hsome

theorem stageParams_of_appends (h : ∀ entry ∈ chosenEntries spec axisValues, appends entry.1 = true) :
    stageParams spec.appendsOnly axisValues stage = stageParams spec axisValues stage := by
  have hpatches := chosenPatches_of_appends h
  have hentries : chosenEntries spec.appendsOnly axisValues = chosenEntries spec axisValues := by
    rw [chosenEntries, chosenEntries, hpatches]
  unfold stageParams finishParams
  rw [hentries, hpatches]
  rfl

theorem batchKeys_appendsOnly (spec : BatchSpec) (axisValues : AxisLabels) :
    batchKeys spec.appendsOnly axisValues = batchKeys spec axisValues := by
  unfold batchKeys
  rw [chosenPatches_appendsOnly, Dict.mapValues, List.isEmpty_map]
  rfl

/-- A key that the batch does not set itself is left by the patches and the stage. -/
theorem get?_stageParams {key : String} (hkey : key ∈ spec.lockedFields)
    (hlocks : ∀ entry ∈ chosenEntries spec axisValues, ¬ SetsLocked spec.lockedFields entry)
    (hbatch : key ∉ batchKeys spec axisValues) :
    (stageParams spec axisValues stage).get? key = overlay (spec.params.get? key)
      (nestedValues key (chosenEntries spec axisValues) ++ valuesAt stage.paramOverrides key) := by
  unfold batchKeys at hbatch
  simp only [List.mem_append, List.mem_ite_nil_right, List.mem_cons, List.not_mem_nil, or_false, not_or] at hbatch
  obtain ⟨hrefs, hpatches, hlabels, hstage⟩ := hbatch
  rw [stageParams, get?_finishParams, if_neg hstage, if_neg hlabels, if_neg hpatches, if_neg hrefs, get?_deepMerge,
    get?_settledParams hkey hlocks, overlay_append]

/-- What the batch sets itself does not depend on the patches, but for the copy of them. -/
theorem get?_stageParams_batch {key : String} (hbatch : key ∈ batchKeys spec axisValues)
    (hkey : key ≠ "axis_values") :
    (stageParams spec axisValues stage).get? key = (stageParams spec.appendsOnly axisValues stage).get? key := by
  unfold batchKeys at hbatch
  simp only [List.mem_append, List.mem_ite_nil_right, List.mem_cons, List.not_mem_nil, or_false] at hbatch
  simp only [stageParams, get?_finishParams]
  rcases hbatch with ⟨hrefs, rfl⟩ | ⟨-, rfl⟩ | rfl | rfl
  · have hrefs' : (!spec.appendsOnly.bibleRefs.isEmpty) = true := hrefs
    simp only [String.reduceEq, if_false, and_false, hrefs, hrefs', and_self, if_true]
    rfl
  · exact absurd rfl hkey
  · simp
  · simp

theorem nestedValues_of_appends {key : String} {entries : List (String × Json)}
    (h : ∀ entry ∈ entries, appends entry.1 = true) : nestedValues key entries = [] := by
  refine List.flatMap_eq_nil_iff.mpr fun entry hentry => ?_
  have happend := h entry hentry
  have hparams : appends "params" = false := by decide
  split
  · exact absurd happend (by simp [hparams])
  · rfl

/-- What the condition on a cell says. -/
theorem sameAt_iff (hnames : (axisValues.map Prod.fst).Nodup)
    (h : buildRequest lib spec axisValues stage position inherited = .ok r)
    (h' : buildRequest lib spec.appendsOnly axisValues stage position inherited = .ok r')
    {key : String} (hkey : key ∈ spec.lockedFields) (hseed : key ≠ "seed") :
    SameAt key r r' ↔ KeepsLock spec stage axisValues key := by
  obtain ⟨hlocks, request, hread, rfl⟩ := buildRequest_eq_ok h
  obtain ⟨hlocks', request', hread', rfl⟩ := buildRequest_eq_ok h'
  unfold SameAt
  cases htop : topLevelKeys.lookup key with
  | some field =>
    have hfield : field ≠ .seed := fun heq => hseed (key_of_lookup_seed (heq ▸ htop))
    have hsame : requestField request field = requestField request' field := by
      refine requestField_congr hread hread' ?_
      simp only [settled, chosenEntries_appendsOnly]
      exact (settledField_of_locked lib hkey htop hlocks _).symm
    refine iff_of_true ?_ ⟨?_, fun hgeneric => absurd hgeneric.1 (by simp [htop])⟩
    · cases field <;> first | exact absurd rfl hfield | exact hsame
    · have hcopies : ∀ copy ∈ ["params", "axis_values"], topLevelKeys.lookup copy = none := by decide
      intro hcopy
      rw [hcopies key (by simpa using hcopy)] at htop
      cases htop
  | none =>
    simp only []
    by_cases hmedia : key = "media_type"
    · subst hmedia
      have hsame : request.mediaType = request'.mediaType :=
        (readFields_eq_some hread).1.trans (readFields_eq_some hread').1.symm
      exact iff_of_true (by simpa using hsame) ⟨by simp, fun hgeneric => absurd hgeneric.2 (by simp)⟩
    by_cases hreferences : key = "references"
    · subst hreferences
      have hsame : request.references = request'.references :=
        (readFields_eq_some hread).2.2.1.trans (readFields_eq_some hread').2.2.1.symm
      exact iff_of_true (by simpa using hsame) ⟨by simp, fun hgeneric => absurd hgeneric.2 (by simp)⟩
    by_cases hparams : key = "params"
    · subst hparams
      simp only [String.reduceEq, if_false, if_true]
      constructor
      · intro hsame
        exact ⟨fun _ => appends_of_copied hnames (Obj.same_iff.mp hsame _), fun hgeneric => absurd hgeneric.2 (by simp)⟩
      · intro hkeeps
        rw [stageParams_of_appends (hkeeps.copied (.inl rfl))]
        exact Obj.Same.refl _
    rw [if_neg hmedia, if_neg hreferences, if_neg hparams]
    have hgeneric : Generic key := ⟨htop, by simp [hmedia, hreferences, hparams]⟩
    by_cases haxes : key = "axis_values"
    · subst haxes
      constructor
      · intro hsame
        have happends := appends_of_copied hnames hsame
        exact ⟨fun _ => happends, fun _ => .inr (by rw [nestedValues_of_appends happends]; rfl)⟩
      · intro hkeeps
        rw [stageParams_of_appends (hkeeps.copied (.inr rfl))]
    by_cases hbatch : key ∈ batchKeys spec axisValues
    · rw [get?_stageParams_batch hbatch haxes]
      exact iff_of_true rfl ⟨fun hcopy => absurd hcopy (by simp [hparams, haxes]), fun _ => .inl hbatch⟩
    · have hplain : (stageParams spec.appendsOnly axisValues stage).get? key =
          overlay (spec.params.get? key) (valuesAt stage.paramOverrides key) := by
        have happends : ∀ entry ∈ chosenEntries spec.appendsOnly axisValues, appends entry.1 = true := by
          rw [chosenEntries_appendsOnly]
          exact fun entry hentry => (List.mem_filter.mp hentry).2
        have hkey' : key ∈ spec.appendsOnly.lockedFields := hkey
        rw [get?_stageParams hkey' hlocks' (batchKeys_appendsOnly spec axisValues ▸ hbatch),
          nestedValues_of_appends happends]
        rfl
      rw [get?_stageParams hkey hlocks hbatch, hplain]
      exact ⟨fun hsame => ⟨fun hcopy => absurd hcopy (by simp [hparams, haxes]), fun _ => .inr hsame⟩,
        fun hkeeps => (hkeeps.nested hgeneric).resolve_left hbatch⟩

end Cell

/-! ## Where the sort leaves an item -/

/-- Items whose models are in order already stay where they are. -/
theorem insertionSort_of_models {built : List BatchItem} (hnumbered : Numbered built)
    (hmodels : (built.map fun b => b.request.modelId).Pairwise (· ≤ ·)) :
    built.insertionSort modelOrder = built := by
  refine List.Pairwise.insertionSort_eq (((List.pairwise_map.mp hmodels).and hnumbered.pairwise).imp ?_)
  rintro a b ⟨hmodel, hindex⟩
  rcases hmodel.lt_or_eq with hlt | heq
  · exact .inl hlt
  · exact .inr ⟨heq, hindex.le⟩

section Stage
variable {lib : Library} {spec : BatchSpec} {stage : Stage} {stageIndex : ℕ} {seedItems : Option (List BatchItem)}
  {idPrefix : String} {items : List BatchItem} {seeded : List (AxisLabels × Option ℤ)}

/-- Every item has the index it was built at just when the patched models are in order. -/
theorem inPlace_iff (h : expandItems lib spec stage stageIndex seedItems idPrefix = .ok items)
    (hseeded : seededCombinations lib spec seedItems = .ok seeded) :
    (∀ item ∈ items, item.id = itemId idPrefix stageIndex item.index) ↔
      (seeded.map fun c => patchedModelId spec (Dict.ofPairs c.1)).Pairwise (· ≤ ·) := by
  obtain ⟨seeded', built, hseeded', hbuilt, rfl⟩ := expandItems_eq_ok h
  obtain rfl := Except.ok.inj (hseeded.symm.trans hseeded')
  have hnumbered := numbered_of_buildItems hbuilt
  obtain ⟨hlen, hbuild⟩ := buildItems_getElem hbuilt
  have hid : ∀ n (hn : n < built.length), built[n].id = itemId idPrefix stageIndex n := by
    intro n hn
    obtain ⟨request, -, heq⟩ := buildItem_eq_ok (hbuild n (hlen ▸ hn) hn)
    rw [heq]
  have hmodels : (built.map fun b => b.request.modelId) =
      seeded.map fun c => patchedModelId spec (Dict.ofPairs c.1) := by
    refine List.ext_getElem (by simp [hlen]) fun n hn hn' => ?_
    simp only [List.length_map] at hn
    obtain ⟨request, hrequest, heq⟩ := buildItem_eq_ok (hbuild n (hlen ▸ hn) hn)
    rw [List.getElem_map, heq, List.getElem_map, ← modelId_of_buildRequest hrequest]
  rw [← hmodels]
  constructor
  · intro hplace
    have hsorted : built.insertionSort modelOrder = built := by
      refine List.ext_getElem (by simp) fun n hn hn' => ?_
      have hitem : reindex spec (reseeds spec seedItems) (built.insertionSort modelOrder)[n] n ∈
          ((built.insertionSort modelOrder).zipIdx).map fun c => reindex spec (reseeds spec seedItems) c.1 c.2 :=
        List.mem_map.mpr ⟨((built.insertionSort modelOrder)[n], n),
          List.mem_zipIdx_iff_getElem?.mpr (List.getElem?_eq_getElem hn), rfl⟩
      have hsame := hplace _ hitem
      obtain ⟨p, hp, heq⟩ := List.mem_iff_getElem.mp ((List.mem_insertionSort modelOrder).mp (List.getElem_mem hn))
      rw [id_reindex, index_reindex, ← heq, hid p hp] at hsame
      obtain rfl := (itemId_inj.mp hsame).2
      exact heq.symm
    have hpairwise := hsorted ▸ List.pairwise_insertionSort modelOrder built
    refine List.pairwise_map.mpr (hpairwise.imp ?_)
    rintro a b (hlt | ⟨heq, -⟩)
    · exact hlt.le
    · exact heq.le
  · intro hpairwise item hitem
    rw [insertionSort_of_models hnumbered hpairwise] at hitem
    obtain ⟨⟨b, n⟩, hmem, rfl⟩ := List.mem_map.mp hitem
    obtain ⟨hn, hb⟩ := List.getElem?_eq_some_iff.mp (List.mem_zipIdx_iff_getElem?.mp hmem)
    rw [id_reindex, index_reindex, ← hid n hn, ← hb]

/-- The request an item was built with, but for its seed. -/
theorem BuiltAt.exists_request {position : ℕ} {c : AxisLabels × Option ℤ} {item : BatchItem}
    (h : BuiltAt lib spec stage stageIndex seedItems idPrefix position c item) :
    ∃ r, buildRequest lib spec (Dict.ofPairs c.1) stage position c.2 = .ok r ∧
      item.request = { r with seed := item.request.seed } ∧
      item.request.seed = if reseeds spec seedItems && !axisValuesPatchSeed spec (Dict.ofPairs c.1) then
        resolveSeed spec item.index else r.seed := by
  obtain ⟨b, order, hb, rfl⟩ := h
  obtain ⟨r, hr, rfl⟩ := buildItem_eq_ok hb
  refine ⟨r, hr, request_reindex .., ?_⟩
  rw [seed_reindex, index_reindex]

theorem sameAt_setSeed {key : String} (hkey : key ≠ "seed") (r r' : GenerationRequest) (s s' : Option ℤ) :
    SameAt key { r with seed := s } { r' with seed := s' } ↔ SameAt key r r' := by
  unfold SameAt
  cases htop : topLevelKeys.lookup key with
  | none => rfl
  | some field =>
    have hfield : field ≠ .seed := fun heq => hkey (key_of_lookup_seed (heq ▸ htop))
    cases field <;> first | exact absurd rfl hfield | rfl

theorem sameAt_seed (r r' : GenerationRequest) : SameAt "seed" r r' ↔ r.seed = r'.seed := by
  have htop : topLevelKeys.lookup "seed" = some .seed := by decide
  unfold SameAt
  rw [htop]
  cases hseed : r.seed <;> cases hseed' : r'.seed <;> simp [requestField, ofOption, hseed, hseed']

theorem keepsLock_seed (spec : BatchSpec) (stage : Stage) (axisValues : AxisLabels) :
    KeepsLock spec stage axisValues "seed" where
  copied := by simp
  nested hgeneric := absurd hgeneric.1 (by decide)

/-- A seed that is counted from an index tells the index. -/
theorem resolveSeed_inj (hreseeds : reseeds spec seedItems = true) {m n : ℕ} :
    resolveSeed spec m = resolveSeed spec n ↔ m = n := by
  unfold reseeds at hreseeds
  unfold resolveSeed
  cases hpolicy : spec.seedPolicy <;> simp [hpolicy] at hreseeds ⊢

end Stage

/-! ## When locks hold -/

/-- The locks of a spec hold just when the patches leave the locked keys alone, or when
there is nothing to compare the items with. -/
theorem locksHold_iff {lib : Library} {spec : BatchSpec} {stage : Stage} {stageIndex : ℕ}
    {seedItems : Option (List BatchItem)} {idPrefix : String} {items : List BatchItem}
    (h : expandItems lib spec stage stageIndex seedItems idPrefix = .ok items) :
    LocksHold lib spec stage stageIndex seedItems idPrefix items ↔
      ((∃ items', expandItems lib spec.appendsOnly stage stageIndex seedItems idPrefix = .ok items') →
        LocksKept lib spec stage seedItems) := by
  by_cases hexpands : ∃ items', expandItems lib spec.appendsOnly stage stageIndex seedItems idPrefix = .ok items'
  swap
  · exact iff_of_true (fun items' h' => absurd ⟨items', h'⟩ hexpands) fun h' => absurd h' hexpands
  obtain ⟨items', h'⟩ := hexpands
  have hplain : ∀ seeded, seededCombinations lib spec seedItems = .ok seeded →
      seededCombinations lib spec.appendsOnly seedItems = .ok seeded := fun seeded hseeded =>
    (seededCombinations_appendsOnly lib spec seedItems).trans hseeded
  -- without patches every item keeps its place
  have hplace' : ∀ item' ∈ items', item'.id = itemId idPrefix stageIndex item'.index := by
    obtain ⟨seeded, built, hseeded, -⟩ := expandItems_eq_ok h'
    refine (inPlace_iff h' hseeded).mpr (List.pairwise_map.mpr (List.pairwise_of_forall fun c c' => ?_))
    rw [patchedModelId_appendsOnly, patchedModelId_appendsOnly]
  constructor
  · intro hholds _ seeded hseeded
    have hlocked : ∀ item ∈ items, ∀ item' ∈ items', item.id = item'.id → ∀ key ∈ spec.lockedFields,
        SameAt key item.request item'.request := hholds items' h'
    refine ⟨fun c hc key hkey => ?_, fun hseed hreseeds => (inPlace_iff h hseeded).mp fun item hitem => ?_⟩
    · by_cases hseed : key = "seed"
      · exact hseed ▸ keepsLock_seed spec stage _
      obtain ⟨position, hposition⟩ := List.mem_iff_getElem?.mp hc
      obtain ⟨item, hitem, hat⟩ := exists_builtAt h hseeded hposition
      obtain ⟨item', hitem', hat'⟩ := exists_builtAt h' (hplain _ hseeded) hposition
      obtain ⟨r, hr, hrequest, -⟩ := hat.exists_request
      obtain ⟨r', hr', hrequest', -⟩ := hat'.exists_request
      have hsame := hlocked item hitem item' hitem' (hat.id_eq.trans hat'.id_eq.symm) key hkey
      rw [hrequest, hrequest', sameAt_setSeed hseed] at hsame
      exact (sameAt_iff (Dict.nodup_ofPairs _) hr hr' hkey hseed).mp hsame
    · obtain ⟨position, c, hposition, hat⟩ := builtAt_of_mem h hseeded hitem
      obtain ⟨item', hitem', hat'⟩ := exists_builtAt h' (hplain _ hseeded) hposition
      have hsame := hlocked item hitem item' hitem' (hat.id_eq.trans hat'.id_eq.symm) "seed" hseed
      obtain ⟨r, hr, -, hcounted⟩ := hat.exists_request
      obtain ⟨r', hr', -, hcounted'⟩ := hat'.exists_request
      have hreseeds' : reseeds spec.appendsOnly seedItems = true := hreseeds
      have hseed' : "seed" ∈ spec.appendsOnly.lockedFields := hseed
      rw [sameAt_seed, hcounted, hcounted', hreseeds, hreseeds',
        axisValuesPatchSeed_of_locked hseed (buildRequest_eq_ok hr).1,
        axisValuesPatchSeed_of_locked hseed' (buildRequest_eq_ok hr').1] at hsame
      have hindex : item.index = item'.index := (resolveSeed_inj hreseeds).mp hsame
      rw [hat.id_eq, hindex, ← hplace' item' hitem', hat'.id_eq]
  · intro hkept items'' h''
    obtain rfl := Except.ok.inj (h'.symm.trans h'')
    obtain ⟨seeded, built, hseeded, -⟩ := expandItems_eq_ok h
    obtain ⟨hcells, hmodels⟩ := hkept ⟨items', h'⟩ seeded hseeded
    intro item hitem item' hitem' hid key hkey
    obtain ⟨position, c, hposition, hat⟩ := builtAt_of_mem h hseeded hitem
    obtain ⟨position', c', hposition', hat'⟩ := builtAt_of_mem h' (hplain _ hseeded) hitem'
    obtain rfl : position = position' := by
      rw [hat.id_eq, hat'.id_eq] at hid
      exact (itemId_inj.mp hid).2
    obtain rfl := Option.some.inj (hposition.symm.trans hposition')
    obtain ⟨r, hr, hrequest, hcounted⟩ := hat.exists_request
    obtain ⟨r', hr', hrequest', hcounted'⟩ := hat'.exists_request
    by_cases hseed : key = "seed"
    · subst hseed
      have hpatch := axisValuesPatchSeed_of_locked hkey (buildRequest_eq_ok hr).1
      have hkey' : "seed" ∈ spec.appendsOnly.lockedFields := hkey
      have hpatch' := axisValuesPatchSeed_of_locked hkey' (buildRequest_eq_ok hr').1
      rw [sameAt_seed, hcounted, hcounted', hpatch, hpatch']
      cases hreseeds : reseeds spec seedItems with
      | true =>
        have hreseeds' : reseeds spec.appendsOnly seedItems = true := hreseeds
        have hindex : item.index = item'.index := by
          have hplace := (inPlace_iff h hseeded).mpr (hmodels hkey hreseeds) item hitem
          rw [hid, hplace' item' hitem'] at hplace
          exact (itemId_inj.mp hplace).2.symm
        rw [hreseeds', hindex]
        rfl
      | false =>
        have hreseeds' : reseeds spec.appendsOnly seedItems = false := hreseeds
        rw [hreseeds', seed_of_locked hkey hr, seed_of_locked hkey' hr']
        rfl
    · rw [hrequest, hrequest', sameAt_setSeed hseed]
      exact (sameAt_iff (Dict.nodup_ofPairs _) hr hr' hkey hseed).mpr
        (hcells c (List.mem_of_getElem? hposition) key hkey)

/-- A spec that locks `steps`, with an axis value that holds them under `params`. -/
def nestedSteps : BatchSpec where
  name := "sheet"
  modelId := "sdxl"
  prompt := "a lighthouse"
  params := [("steps", .int 20)]
  axes := [{ name := "quality", values := [{ label := "fast", patch := [("params", .obj [("steps", .int 4)])] }] }]
  lockedFields := ["steps"]

/-- The validators accept the spec, and its one item runs with the steps of the axis value. -/
theorem not_locksHold_nestedSteps : nestedSteps.Valid ∧
    ∃ items, expandItems Library.plain nestedSteps { name := "single" } 0 none "item" = .ok items ∧
      ¬ LocksHold Library.plain nestedSteps { name := "single" } 0 none "item" items := by
  refine ⟨⟨by decide, fun axis haxis => ?_, by decide, by simp [nestedSteps], by decide,
    by simp [nestedSteps], by simp [nestedSteps], ?_⟩, _, rfl, fun hholds => ?_⟩
  · obtain rfl := List.mem_singleton.mp haxis
    exact ⟨by decide, by decide, by simp, by decide⟩
  · simp [BatchSpec.RespectsLocks, nestedSteps]
  · have hsame := hholds _ rfl _ List.mem_cons_self _ List.mem_cons_self rfl "steps" (by decide)
    revert hsame
    decide

theorem locksHold_iff_nestedSteps :
    ∃ items, expandItems Library.plain nestedSteps { name := "single" } 0 none "item" = .ok items ∧
      (LocksHold Library.plain nestedSteps { name := "single" } 0 none "item" items ↔
        ((∃ items', expandItems Library.plain nestedSteps.appendsOnly { name := "single" } 0 none "item" =
          .ok items') → LocksKept Library.plain nestedSteps { name := "single" } none)) :=
  ⟨_, rfl, locksHold_iff rfl⟩

end CreativeStudio.Batches
