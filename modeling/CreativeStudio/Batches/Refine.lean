import CreativeStudio.Batches.Records

/-!
# Whether a refine stage reproduces its winners

A patch entry writes to one place of a request: a top-level field or `params`. What a
field ends up with is therefore settled by the entries that write to it, in the order
they are applied. That order is the order of a dictionary, and a batch file is written
with sorted keys: the advance of a loaded record applies the same entries in another
order than the expansion that made the winner. `refines_iff` says when that makes no
difference.
-/

namespace CreativeStudio.Batches
open Data Jobs

/-! ## What patch entries leave in a request -/

/-- What a patch entry does to one top-level field. -/
def writeField (lib : Library) (field : Field) (value : Json) (entry : String × Json) : Json :=
  match patchAppendKeys.lookup entry.1 with
  | some target => if field = target then appended lib value entry.2 else value
  | none => if topLevelKeys.lookup entry.1 = some field then entry.2 else value

/-- What a patch entry does to `params`. -/
def writeParams (params : Obj) (entry : String × Json) : Obj :=
  if (patchAppendKeys.lookup entry.1).isSome || (topLevelKeys.lookup entry.1).isSome then params
  else match entry.1, entry.2 with
    | "params", .obj members => deepMerge params members
    | _, _ => deepMerge params [entry]

/-- The entry sets a locked field outright. -/
def SetsLocked (lockedFields : List String) (entry : String × Json) : Prop :=
  patchAppendKeys.lookup entry.1 = none ∧ entry.1 ∈ lockedFields

/-- The value a field is left with. -/
def settledField (lib : Library) (field : Field) (initial : Json) (entries : List (String × Json)) :
    Json :=
  entries.foldl (writeField lib field) initial

/-- The `params` a request is left with. -/
def settledParams (initial : Obj) (entries : List (String × Json)) : Obj :=
  entries.foldl writeParams initial

/-- The payload with every entry written to its place. -/
def settled (lib : Library) (payload : Payload) (entries : List (String × Json)) : Payload where
  fields field := settledField lib field (payload.fields field) entries
  params := settledParams payload.params entries

theorem applyEntry_of_not_setsLocked (lib : Library) {lockedFields : List String}
    {entry : String × Json} (h : ¬ SetsLocked lockedFields entry) (payload : Payload) :
    applyEntry lib lockedFields payload entry = .ok {
      fields := fun field => writeField lib field (payload.fields field) entry
      params := writeParams payload.params entry } := by
  obtain ⟨key, value⟩ := entry
  unfold applyEntry writeField writeParams
  cases happend : patchAppendKeys.lookup key with
  | some target =>
    simp only [happend, Option.isSome_some, Bool.true_or, if_true, Payload.setField]
    congr 2
    funext field
    by_cases hf : field = target
    · subst hf; simp
    · simp [hf]
  | none =>
    have hlocked : key ∉ lockedFields := fun hmem => h ⟨happend, hmem⟩
    simp only [happend, hlocked, if_false]
    cases htop : topLevelKeys.lookup key with
    | some target =>
      simp only [Option.isSome_none, Option.isSome_some, Bool.or_true, if_true, Payload.setField]
      congr 2
      funext field
      by_cases hf : field = target
      · subst hf; simp
      · simp [hf, Ne.symm hf]
    | none =>
      simp only [Option.isSome_none, Bool.or_self, Bool.false_eq_true, if_false, reduceCtorEq]
      split
      · rfl
      next hparams => simp

theorem applyEntry_of_setsLocked (lib : Library) {lockedFields : List String}
    {entry : String × Json} (h : SetsLocked lockedFields entry) (payload : Payload) :
    ∃ e, applyEntry lib lockedFields payload entry = .error e := by
  unfold applyEntry
  simp only [h.1, h.2, if_true]
  exact ⟨_, rfl⟩

/-- Patches are applied when no entry sets a locked field, and then each place holds what
the entries that write to it left there. -/
theorem foldlM_applyEntry (lib : Library) {lockedFields : List String}
    {entries : List (String × Json)} (h : ∀ entry ∈ entries, ¬ SetsLocked lockedFields entry)
    (payload : Payload) :
    entries.foldlM (applyEntry lib lockedFields) payload = .ok (settled lib payload entries) := by
  induction entries generalizing payload with
  | nil => rfl
  | cons entry rest ih =>
    rw [List.foldlM_cons, applyEntry_of_not_setsLocked lib (h entry List.mem_cons_self)]
    exact ih (fun e he => h e (List.mem_cons_of_mem _ he)) _

theorem not_setsLocked_of_foldlM {lib : Library} {lockedFields : List String}
    {entries : List (String × Json)} {payload payload' : Payload}
    (h : entries.foldlM (applyEntry lib lockedFields) payload = .ok payload') :
    ∀ entry ∈ entries, ¬ SetsLocked lockedFields entry := by
  induction entries generalizing payload with
  | nil => simp
  | cons entry rest ih =>
    rw [List.foldlM_cons] at h
    by_cases hlocked : SetsLocked lockedFields entry
    · obtain ⟨e, he⟩ := applyEntry_of_setsLocked lib hlocked payload
      rw [he] at h
      cases h
    · rw [applyEntry_of_not_setsLocked lib hlocked] at h
      intro e he
      rcases List.mem_cons.mp he with rfl | he
      · exact hlocked
      · exact ih h e he

theorem patchedRequest_eq (lib : Library) {spec : BatchSpec} {axisValues : AxisLabels}
    (h : ∀ entry ∈ chosenEntries spec axisValues, ¬ SetsLocked spec.lockedFields entry) :
    patchedRequest lib spec axisValues = readPayload lib spec.mediaType
      (settled lib (initialPayload spec none) (chosenEntries spec axisValues)) := by
  unfold patchedRequest
  rw [patchedPayload_eq, foldlM_applyEntry lib h]
  rfl

theorem not_setsLocked_of_patchedRequest {lib : Library} {spec : BatchSpec}
    {axisValues : AxisLabels} {r : GenerationRequest}
    (h : patchedRequest lib spec axisValues = .ok r) :
    ∀ entry ∈ chosenEntries spec axisValues, ¬ SetsLocked spec.lockedFields entry := by
  unfold patchedRequest at h
  rw [patchedPayload_eq] at h
  cases hp : (chosenEntries spec axisValues).foldlM (applyEntry lib spec.lockedFields)
      (initialPayload spec none) with
  | error e => rw [hp] at h; cases h
  | ok payload => exact not_setsLocked_of_foldlM hp

/-! ## The entries of a loaded record -/

@[simp] theorem axisByName_canon (spec : BatchSpec) (name : String) :
    axisByName spec.canon name = (axisByName spec name).map Axis.canon := by
  unfold axisByName BatchSpec.canon
  simp only [List.find?_map]
  rfl

@[simp] theorem axisValue_canon (spec : BatchSpec) (name label : String) :
    axisValue spec.canon name label = (axisValue spec name label).map AxisValue.canon := by
  unfold axisValue
  rw [axisByName_canon]
  cases axisByName spec name with
  | none => rfl
  | some axis =>
    simp only [Option.map_some, Option.bind_some, Axis.canon, List.find?_map]
    rfl

theorem chosenPatches_canon (spec : BatchSpec) (axisValues : AxisLabels) :
    chosenPatches spec.canon axisValues =
      Dict.mapValues Obj.canon (chosenPatches spec axisValues) := by
  unfold chosenPatches Dict.mapValues
  rw [List.map_filterMap]
  congr 1
  funext chosen
  rw [axisValue_canon]
  cases axisValue spec chosen.1 chosen.2 <;> rfl

/-- The patch entries of a cell in the order a batch file has them: axis names sorted,
and the keys of each patch. -/
def reloadedEntries (spec : BatchSpec) (axisValues : AxisLabels) : List (String × Json) :=
  (chosenPatches spec axisValues.sortByName).flatMap fun chosen => chosen.2.canon

theorem chosenEntries_canon (spec : BatchSpec) (axisValues : AxisLabels) :
    chosenEntries spec.canon axisValues.sortByName = reloadedEntries spec axisValues := by
  unfold chosenEntries reloadedEntries
  rw [chosenPatches_canon, Dict.mapValues, List.flatMap_map]

theorem mem_chosenPatches {spec : BatchSpec} {axisValues : AxisLabels} {name : String}
    {patch : Obj} :
    (name, patch) ∈ chosenPatches spec axisValues ↔ ∃ label value, (name, label) ∈ axisValues ∧
      axisValue spec name label = some value ∧ value.patch = patch := by
  unfold chosenPatches
  simp only [List.mem_filterMap, Option.map_eq_some_iff, Prod.mk.injEq, Prod.exists]
  constructor
  · rintro ⟨name', label, hmem, value, hvalue, rfl, rfl⟩
    exact ⟨label, value, hmem, hvalue, rfl⟩
  · rintro ⟨label, value, hmem, hvalue, rfl⟩
    exact ⟨name, label, hmem, value, hvalue, rfl, rfl⟩

/-- A loaded record has the same patches under other positions. -/
theorem mem_chosenPatches_sortByName {spec : BatchSpec} {axisValues : AxisLabels}
    (h : (axisValues.map Prod.fst).Nodup) {chosen : String × Obj} :
    chosen ∈ chosenPatches spec axisValues.sortByName ↔ chosen ∈ chosenPatches spec axisValues := by
  obtain ⟨name, patch⟩ := chosen
  simp only [mem_chosenPatches, Dict.mem_sortByName h]

/-- A loaded record has the same patch keys in another order. -/
theorem exists_reloadedEntries {spec : BatchSpec} {axisValues : AxisLabels}
    (h : (axisValues.map Prod.fst).Nodup) (key : String) :
    (∃ entry ∈ reloadedEntries spec axisValues, entry.1 = key) ↔
      ∃ entry ∈ chosenEntries spec axisValues, entry.1 = key := by
  have hnames : ∀ {patches : Dict Obj} {f : String × Obj → Obj},
      (∃ entry ∈ patches.flatMap f, entry.1 = key) ↔
        ∃ chosen ∈ patches, key ∈ (f chosen).map Prod.fst := by
    intro patches f
    simp only [List.mem_flatMap, List.mem_map]
    constructor
    · rintro ⟨entry, ⟨chosen, hchosen, hentry⟩, hkey⟩
      exact ⟨chosen, hchosen, entry, hentry, hkey⟩
    · rintro ⟨chosen, hchosen, entry, hentry, hkey⟩
      exact ⟨entry, ⟨chosen, hchosen, hentry⟩, hkey⟩
  unfold reloadedEntries chosenEntries
  rw [hnames, hnames]
  simp only [mem_chosenPatches_sortByName h, Obj.mem_names_canon]

theorem axisValuesPatchSeed_canon {spec : BatchSpec} {axisValues : AxisLabels}
    (h : (axisValues.map Prod.fst).Nodup) :
    axisValuesPatchSeed spec.canon axisValues.sortByName = axisValuesPatchSeed spec axisValues := by
  have hkeys : (∃ entry ∈ reloadedEntries spec axisValues, entry.1 = "seed") ↔
      ∃ entry ∈ chosenEntries spec axisValues, entry.1 = "seed" := exists_reloadedEntries h "seed"
  unfold axisValuesPatchSeed
  rw [chosenEntries_canon, Bool.eq_iff_iff]
  simpa only [List.any_eq_true, beq_iff_eq] using hkeys

theorem not_setsLocked_reloaded {spec : BatchSpec} {axisValues : AxisLabels}
    (h : (axisValues.map Prod.fst).Nodup)
    (hlocks : ∀ entry ∈ chosenEntries spec axisValues, ¬ SetsLocked spec.lockedFields entry) :
    ∀ entry ∈ reloadedEntries spec axisValues, ¬ SetsLocked spec.lockedFields entry := by
  intro entry hentry hlocked
  obtain ⟨entry', hentry', hkey⟩ := (exists_reloadedEntries h entry.1).mp ⟨entry, hentry, rfl⟩
  refine hlocks entry' hentry' ?_
  unfold SetsLocked at hlocked ⊢
  rwa [hkey]

/-! ## The params of a stage -/

/-- The keys of `params` that the batch sets itself, whatever patches and overrides say. -/
def batchKeys (spec : BatchSpec) (axisValues : AxisLabels) : List String :=
  (if !spec.bibleRefs.isEmpty then ["bible_refs"] else []) ++
    ((if !(chosenPatches spec axisValues).isEmpty then ["axis_values"] else []) ++
      ["batch_axis_labels", "batch_stage"])

theorem sameOutside_setWhen_iff {keys : List String} {condition : Bool} {key : String}
    {a b : Obj} {v w : Json} (hv : v.canon = w.canon) :
    Obj.SameOutside keys (setWhen condition key v a) (setWhen condition key w b) ↔
      Obj.SameOutside ((if condition then [key] else []) ++ keys) a b := by
  cases condition with
  | true => exact Obj.sameOutside_set_iff hv
  | false => exact Iff.rfl

theorem nodup_chosenPatches (spec : BatchSpec) {axisValues : AxisLabels}
    (h : (axisValues.map Prod.fst).Nodup) :
    ((chosenPatches spec axisValues).map Prod.fst).Nodup := by
  refine List.Nodup.sublist ?_ h
  clear h
  induction axisValues with
  | nil => simp [chosenPatches]
  | cons chosen rest ih =>
    unfold chosenPatches at ih ⊢
    cases hvalue : axisValue spec chosen.1 chosen.2 with
    | none => simpa [hvalue] using ih.cons chosen.1
    | some value => simpa [hvalue] using ih

/-- The `params` that the next stage gives a cell in a loaded record are those of the
declared spec when the two agree outside the keys that the batch sets itself. -/
theorem same_finishParams_iff {spec : BatchSpec} {axisValues : AxisLabels} {stage : Stage}
    (h : (axisValues.map Prod.fst).Nodup) {params params' : Obj} :
    Obj.Same (finishParams spec.canon axisValues.sortByName stage.canon params')
        (finishParams spec axisValues stage params) ↔
      Obj.SameOutside (batchKeys spec axisValues)
        (deepMerge params' stage.paramOverrides.canon) (deepMerge params stage.paramOverrides) := by
  have hempty : (chosenPatches spec.canon axisValues.sortByName).isEmpty =
      (chosenPatches spec axisValues).isEmpty := by
    rw [Bool.eq_iff_iff, List.isEmpty_iff, List.isEmpty_iff, chosenPatches_canon, Dict.mapValues,
      List.map_eq_nil_iff]
    simp only [List.eq_nil_iff_forall_not_mem, mem_chosenPatches_sortByName h]
  have hpatches : (Json.obj (Dict.mapValues .obj (chosenPatches spec.canon
        axisValues.sortByName))).canon =
      (Json.obj (Dict.mapValues .obj (chosenPatches spec axisValues))).canon := by
    simp only [JsonOf.canon_obj, JsonOf.obj.injEq]
    refine Obj.canon_eq_iff.mpr fun name => ?_
    have hsorted := nodup_chosenPatches spec (Dict.sorted_sortByName axisValues).nodup
    rw [chosenPatches_canon, Dict.get?_mapValues, Dict.get?_mapValues, Dict.get?_mapValues,
      Dict.get?_congr hsorted (nodup_chosenPatches spec h) fun _ => mem_chosenPatches_sortByName h]
    cases Dict.get? (chosenPatches spec axisValues) name with
    | none => rfl
    | some patch => simp
  have hlabels : (.obj (Dict.mapValues .str axisValues.sortByName) : Json).canon =
      (.obj (Dict.mapValues .str axisValues) : Json).canon := by
    simp only [JsonOf.canon_obj, JsonOf.obj.injEq]
    refine Obj.canon_eq_iff.mpr fun name => ?_
    rw [Dict.get?_mapValues, Dict.get?_mapValues, Dict.get?_sortByName]
  have hstage : (.str stage.canon.name : Json).canon = (.str stage.name : Json).canon := rfl
  simp only [finishParams]
  rw [← Obj.sameOutside_nil, Obj.sameOutside_set_iff hstage, Obj.sameOutside_set_iff hlabels, hempty,
    sameOutside_setWhen_iff hpatches]
  exact sameOutside_setWhen_iff rfl

/-- The `params` that a stage of the spec gives a cell. -/
def stageParams (spec : BatchSpec) (axisValues : AxisLabels) (stage : Stage) : Obj :=
  finishParams spec axisValues stage
    (settledParams spec.params (chosenEntries spec axisValues))

/-! ## When a request is reproduced -/

/-- Applying the patches of a cell in the order a batch file has them leaves the request
that the declared order leaves: the same six fields, and the same `params` under the
overrides of the next stage, outside the keys that the batch sets itself. -/
structure OrderFree (lib : Library) (spec : BatchSpec) (axisValues : AxisLabels) (next : Stage) :
    Prop where
  fields :
    readFields lib spec.mediaType
        (settled lib (initialPayload spec none) (reloadedEntries spec axisValues)).fields =
      readFields lib spec.mediaType
        (settled lib (initialPayload spec none) (chosenEntries spec axisValues)).fields
  params :
    Obj.SameOutside (batchKeys spec axisValues)
      (deepMerge (settledParams spec.params.canon (reloadedEntries spec axisValues))
        next.paramOverrides.canon)
      (deepMerge (settledParams spec.params (chosenEntries spec axisValues)) next.paramOverrides)

/-- A request of the next stage has the fields of the winner's own request, and the
`params` that the next stage of the declared spec gives the winner's cell. -/
structure Reproduces (spec : BatchSpec) (next : Stage) (winner item : BatchItem) : Prop where
  prompt : item.request.prompt = winner.request.prompt
  negativePrompt : item.request.negativePrompt = winner.request.negativePrompt
  modelId : item.request.modelId = winner.request.modelId
  seed : item.request.seed = winner.request.seed
  taskType : item.request.taskType = winner.request.taskType
  outputFormat : item.request.outputFormat = winner.request.outputFormat
  params : Obj.Same item.request.params (stageParams spec winner.axisValues next)

theorem readFields_eq_some {lib : Library} {mediaType : MediaType} {fields : Field → Json}
    {r : GenerationRequest} (h : readFields lib mediaType fields = some r) :
    r.mediaType = mediaType ∧ r.params = [] ∧ r.references = [] ∧
      readOptInt lib (fields .seed) = some r.seed := by
  unfold readFields at h
  simp only [Option.pure_def, Option.bind_eq_bind, Option.bind_eq_some_iff, Option.some.injEq] at h
  obtain ⟨taskType, -, prompt, -, negativePrompt, -, modelId, -, seed, hseed, outputFormat, -, rfl⟩ := h
  exact ⟨rfl, rfl, rfl, hseed⟩

/-- A field that no entry writes to keeps its value. -/
theorem settledSeed_of_not_patched (lib : Library) {entries : List (String × Json)}
    (h : ∀ entry ∈ entries, entry.1 ≠ "seed") (initial : Json) :
    settledField lib .seed initial entries = initial := by
  induction entries generalizing initial with
  | nil => rfl
  | cons entry rest ih =>
    have hentry := h entry List.mem_cons_self
    have hkeep : writeField lib .seed initial entry = initial := by
      unfold writeField
      cases happend : patchAppendKeys.lookup entry.1 with
      | some target => simp [(appendTarget_ne_seed happend).symm]
      | none =>
        have htop : topLevelKeys.lookup entry.1 ≠ some .seed := fun htop =>
          hentry (key_of_lookup_seed htop)
        simp [htop]
    rw [settledField, List.foldl_cons, hkeep]
    exact ih (fun e he => h e (List.mem_cons_of_mem _ he)) initial

/-- A request is read from what the patches settle. -/
theorem buildRequest_eq_ok {lib : Library} {spec : BatchSpec} {axisValues : AxisLabels}
    {stage : Stage} {itemIndex : ℕ} {inheritedSeed : Option ℤ} {request : GenerationRequest}
    (h : buildRequest lib spec axisValues stage itemIndex inheritedSeed = .ok request) :
    (∀ entry ∈ chosenEntries spec axisValues, ¬ SetsLocked spec.lockedFields entry) ∧
      ∃ r, readFields lib spec.mediaType
          (settled lib (initialPayload spec none) (chosenEntries spec axisValues)).fields = some r ∧
        request = { r with
          seed := if axisValuesPatchSeed spec axisValues then r.seed
            else if inheritedSeed.isSome then inheritedSeed else resolveSeed spec itemIndex
          params := stageParams spec axisValues stage } := by
  rw [buildRequest_eq] at h
  cases hp : patchedRequest lib spec axisValues with
  | error e => rw [hp] at h; cases h
  | ok patched =>
    have hlocks := not_setsLocked_of_patchedRequest hp
    refine ⟨hlocks, ?_⟩
    rw [hp] at h
    rw [patchedRequest_eq lib hlocks] at hp
    unfold readPayload at hp
    split at hp
    next r hr =>
      obtain rfl := Except.ok.inj hp
      exact ⟨r, hr, (Except.ok.inj h).symm⟩
    next => cases hp

theorem exists_buildRequest {lib : Library} {spec : BatchSpec} {axisValues : AxisLabels}
    (hlocks : ∀ entry ∈ chosenEntries spec axisValues, ¬ SetsLocked spec.lockedFields entry)
    {r : GenerationRequest} (hr : readFields lib spec.mediaType
      (settled lib (initialPayload spec none) (chosenEntries spec axisValues)).fields = some r) :
    ∃ patched, patchedRequest lib spec axisValues = .ok patched := by
  rw [patchedRequest_eq lib hlocks, readPayload, hr]
  exact ⟨_, rfl⟩

theorem stageParams_canon (spec : BatchSpec) (axisValues : AxisLabels) (stage : Stage) :
    stageParams spec.canon axisValues.sortByName stage.canon =
      finishParams spec.canon axisValues.sortByName stage.canon
        (settledParams spec.params.canon (reloadedEntries spec axisValues)) := by
  rw [stageParams, chosenEntries_canon]
  rfl

/-- A cell whose patches leave the seed alone keeps the seed it was given. -/
theorem seed_of_not_patched {lib : Library} {spec : BatchSpec} {entries : List (String × Json)}
    {r : GenerationRequest} (hentries : ∀ entry ∈ entries, entry.1 ≠ "seed")
    (hr : readFields lib spec.mediaType (settled lib (initialPayload spec none) entries).fields =
      some r) : r.seed = none := by
  have hseed := (readFields_eq_some hr).2.2.2
  simp only [settled, settledSeed_of_not_patched lib hentries] at hseed
  exact (Option.some.inj hseed).symm

/-- The seed that an item starts from is the winner's, also when the winner has none. -/
theorem inherited_seed {spec : BatchSpec} {i j : ℕ} {seed : Option ℤ}
    (h : seed = resolveSeed spec i) :
    (if seed.isSome then seed else resolveSeed spec.canon j) = seed := by
  cases seed with
  | some s => rfl
  | none =>
    have hpolicy : spec.canon.seedPolicy = spec.seedPolicy := rfl
    have hbase : spec.canon.seed = spec.seed := rfl
    unfold resolveSeed at h ⊢
    rw [hpolicy, hbase]
    cases hcase : spec.seedPolicy with
    | shared => simpa [hcase] using h.symm
    | perItem => simp [hcase] at h
    | sweep => simp [hcase] at h
    | other text => simp [hcase] at h

/-- The item that a loaded record builds from a winner reproduces it exactly when the
order of the winner's patches makes no difference. -/
theorem reproduces_iff_orderFree {lib : Library} {spec : BatchSpec} {stage next : Stage}
    {winner item : BatchItem} {i j : ℕ} (hn : (winner.axisValues.map Prod.fst).Nodup)
    (hwinner : buildRequest lib spec winner.axisValues stage i none = .ok winner.request)
    (hitem : buildRequest lib spec.canon winner.axisValues.sortByName next.canon j
      winner.request.seed = .ok item.request) :
    Reproduces spec next winner item ↔ OrderFree lib spec winner.axisValues next := by
  obtain ⟨hlocks, r, hr, hwinner⟩ := buildRequest_eq_ok hwinner
  obtain ⟨-, r', hr', hitem⟩ := buildRequest_eq_ok hitem
  rw [chosenEntries_canon] at hr'
  have hr' : readFields lib spec.mediaType
      (settled lib (initialPayload spec none) (reloadedEntries spec winner.axisValues)).fields =
      some r' := hr'
  rw [axisValuesPatchSeed_canon hn, stageParams_canon] at hitem
  have hparams : Obj.Same item.request.params (stageParams spec winner.axisValues next) ↔
      Obj.SameOutside (batchKeys spec winner.axisValues)
        (deepMerge (settledParams spec.params.canon (reloadedEntries spec winner.axisValues))
          next.paramOverrides.canon)
        (deepMerge (settledParams spec.params (chosenEntries spec winner.axisValues))
          next.paramOverrides) := by
    rw [hitem]
    exact same_finishParams_iff hn
  have hseed : item.request.seed = winner.request.seed ↔ r'.seed = r.seed := by
    by_cases hpatched : axisValuesPatchSeed spec winner.axisValues = true
    · rw [hitem, hwinner]
      simp [hpatched]
    · have hkeys : ∀ entry ∈ chosenEntries spec winner.axisValues, entry.1 ≠ "seed" := by
        intro entry hentry hkey
        exact hpatched (List.any_eq_true.mpr ⟨entry, hentry, by simp [hkey]⟩)
      have hkeys' : ∀ entry ∈ reloadedEntries spec winner.axisValues, entry.1 ≠ "seed" := by
        intro entry hentry hkey
        obtain ⟨entry', hentry', hkey'⟩ :=
          (exists_reloadedEntries hn "seed").mp ⟨entry, hentry, hkey⟩
        exact hkeys entry' hentry' hkey'
      have hstart : winner.request.seed = resolveSeed spec i := by
        rw [hwinner]
        simp [hpatched]
      have hkept : item.request.seed = winner.request.seed := by
        rw [hitem]
        simpa [hpatched] using inherited_seed hstart
      simp [hkept, seed_of_not_patched hkeys hr, seed_of_not_patched hkeys' hr']
  have hfields : readFields lib spec.mediaType
        (settled lib (initialPayload spec none) (reloadedEntries spec winner.axisValues)).fields =
      readFields lib spec.mediaType
        (settled lib (initialPayload spec none) (chosenEntries spec winner.axisValues)).fields ↔
      r' = r := by
    rw [hr, hr', Option.some.injEq]
  obtain ⟨hmedia, hempty, hreferences, -⟩ := readFields_eq_some hr
  obtain ⟨hmedia', hempty', hreferences', -⟩ := readFields_eq_some hr'
  constructor
  · intro h
    refine ⟨hfields.mpr ?_, hparams.mp h.params⟩
    have hprompt := h.prompt
    have hnegative := h.negativePrompt
    have hmodel := h.modelId
    have htask := h.taskType
    have hformat := h.outputFormat
    rw [hitem, hwinner] at hprompt hnegative hmodel htask hformat
    exact GenerationRequest.ext (hmedia'.trans hmedia.symm) htask hprompt hnegative hmodel
      (hseed.mp h.seed) hformat (hempty'.trans hempty.symm) (hreferences'.trans hreferences.symm)
  · intro h
    have hsame := hfields.mp h.fields
    refine ⟨?_, ?_, ?_, hseed.mpr (hsame ▸ rfl), ?_, ?_, hparams.mpr h.params⟩ <;>
      · rw [hitem, hwinner, hsame]

/-! ## Loaded records -/

/-- The records that the file of a batch holds before its first advance. -/
inductive InFirstStage (created : BatchRecord) : BatchRecord → Prop
  | create : InFirstStage created created.saved
  | assignIds {record : BatchRecord} (h : InFirstStage created record) (stageIndex : ℕ)
      (ids : ℕ → JobId) : InFirstStage created (record.assignIds stageIndex ids).saved
  | recompute {record : BatchRecord} (h : InFirstStage created record)
      (children : JobId → ChildRow) : InFirstStage created (record.recompute children).saved

/-- The item of a file that a created item has become. -/
structure SavedItem (c item : BatchItem) : Prop where
  id : item.id = c.id
  stageIndex : item.stageIndex = c.stageIndex
  axisValues : item.axisValues = c.axisValues.sortByName
  request : item.request = c.request.canon

/-- What the record of a file has kept of the created record. -/
structure SavedRecord (created record : BatchRecord) : Prop where
  id : record.id = created.id
  spec : record.spec = created.spec.canon
  stageIndex : record.stageIndex = created.stageIndex
  items : List.Forall₂ SavedItem created.items record.items

theorem SavedItem.save {c item : BatchItem} (h : SavedItem c item) : SavedItem c item.canon where
  id := h.id
  stageIndex := h.stageIndex
  axisValues := by simp [BatchItem.canon, h.axisValues]
  request := by simp [BatchItem.canon, h.request]

/-- The cell of a winner as the advance sees it. -/
theorem SavedItem.ofPairs_axisValues {c item : BatchItem} (h : SavedItem c item) :
    Dict.ofPairs item.axisValues = c.axisValues.sortByName := by
  rw [h.axisValues]
  exact Dict.ofPairs_of_nodup (Dict.sorted_sortByName c.axisValues).nodup

/-- Updates that keep what an item was built from, and a save, keep the relation. -/
theorem SavedRecord.update {created record record' : BatchRecord}
    (h : SavedRecord created record) (hid : record'.id = record.id)
    (hspec : record'.spec = record.spec) (hstage : record'.stageIndex = record.stageIndex)
    (hlen : record'.items.length = record.items.length)
    (hitems : ∀ n (hn : n < record.items.length) (hn' : n < record'.items.length),
      ∀ c, SavedItem c record.items[n] → SavedItem c record'.items[n]) :
    SavedRecord created record'.saved where
  id := hid.trans h.id
  spec := by simp [BatchRecord.saved, hspec, h.spec]
  stageIndex := hstage.trans h.stageIndex
  items := by
    refine List.forall₂_iff_get.mpr ⟨?_, fun n hn hn' => ?_⟩
    · simpa [BatchRecord.saved, hlen] using h.items.length_eq
    · have hlen' := h.items.length_eq
      simp only [BatchRecord.saved, List.length_map] at hn'
      have hsaved : SavedItem created.items[n] record.items[n] := h.items.get hn (hlen' ▸ hn)
      simpa [BatchRecord.saved] using (hitems n (hlen' ▸ hn) hn' _ hsaved).save

theorem InFirstStage.savedRecord {created record : BatchRecord}
    (h : InFirstStage created record) : SavedRecord created record := by
  induction h with
  | create =>
    refine ⟨rfl, rfl, rfl, ?_⟩
    rw [BatchRecord.saved, List.forall₂_map_right_iff, List.forall₂_same]
    exact fun c _ => ⟨rfl, rfl, rfl, rfl⟩
  | @assignIds record _ stageIndex ids ih =>
    refine ih.update rfl rfl rfl (by simp [BatchRecord.assignIds]) fun n hn hn' c hc => ?_
    simp only [BatchRecord.assignIds, List.getElem_map, List.getElem_zipIdx]
    split
    · exact ⟨hc.id, hc.stageIndex, hc.axisValues, hc.request⟩
    · exact hc
  | @recompute record _ children ih =>
    refine ih.update rfl rfl rfl (by simp [BatchRecord.recompute, rollUp]) fun n hn hn' c hc => ?_
    simp only [BatchRecord.recompute, rollUp, List.getElem_map]
    split
    · exact hc
    · exact ⟨by simp [hc.id], by simp [hc.stageIndex], by simp [hc.axisValues], by simp [hc.request]⟩

/-- A created record holds the expansion of its own spec. -/
theorem expandItems_of_newRecord {lib : Library} {preflight : Preflight} {maxItemsLimit : ℕ}
    {spec : BatchSpec} {batchId : BatchId} {created : BatchRecord}
    (h : newRecord lib preflight.validate maxItemsLimit spec batchId = .ok created) :
    created.stageIndex = 0 ∧ created.id = batchId ∧
      expandItems lib created.spec (created.spec.resolvedStages.headD { name := "single" }) 0 none
        (idPrefix batchId) = .ok created.items := by
  unfold newRecord at h
  simp only [liftExcept_eq, bind, Except.bind] at h
  split at h
  · cases h
  next items hitems =>
    split at h
    · cases h
    · obtain rfl := Except.ok.inj h
      exact ⟨rfl, rfl, hitems⟩

/-- A new seed for a new index is the seed that the index would have given at once. -/
theorem exists_buildRequest_reindex {lib : Library} {spec : BatchSpec} {stage : Stage}
    {position : ℕ} (item : BatchItem)
    (h : buildRequest lib spec item.axisValues stage position none = .ok item.request)
    (reseed : Bool) (order : ℕ) :
    ∃ i, buildRequest lib spec item.axisValues stage i none =
      .ok (reindex spec reseed item order).request := by
  by_cases hseed : (reseed && !axisValuesPatchSeed spec item.axisValues) = true
  · refine ⟨order, ?_⟩
    have hnot : axisValuesPatchSeed spec item.axisValues = false := by simp_all
    rw [buildRequest_eq] at h ⊢
    cases hp : patchedRequest lib spec item.axisValues with
    | error e => rw [hp] at h; cases h
    | ok r =>
      rw [hp] at h
      have hrequest := Except.ok.inj h
      have hreindex : (reindex spec reseed item order).request =
          { item.request with seed := resolveSeed spec order } := by simp [reindex, hseed]
      rw [hreindex, ← hrequest]
      simp [Except.map, hnot]
  · refine ⟨position, ?_⟩
    simpa [reindex, hseed] using h

theorem request_of_created {lib : Library} {spec : BatchSpec} {stage : Stage} {idPrefix : String}
    {items : List BatchItem} (h : expandItems lib spec stage 0 none idPrefix = .ok items)
    {c : BatchItem} (hc : c ∈ items) :
    (c.axisValues.map Prod.fst).Nodup ∧ (∃ i, c.id = itemId idPrefix 0 i) ∧
      ∃ i, buildRequest lib spec c.axisValues stage i none = .ok c.request := by
  obtain ⟨seeded, -, hseeded, -, -⟩ := expandItems_eq_ok h
  obtain ⟨position, combination, hcomb, hbuilt⟩ := builtAt_of_mem h hseeded hc
  have hnone : combination.2 = none := by
    simp only [seededCombinations] at hseeded
    cases hall : combinations lib spec with
    | error e => rw [hall] at hseeded; cases hseeded
    | ok all =>
      rw [hall] at hseeded
      obtain rfl := Except.ok.inj hseeded
      obtain ⟨a, -, rfl⟩ := List.mem_map.mp (List.mem_of_getElem? hcomb)
      rfl
  have hid := hbuilt.id_eq
  obtain ⟨b, order, hb, rfl⟩ := hbuilt
  obtain ⟨request, hrequest, rfl⟩ := buildItem_eq_ok hb
  rw [hnone] at hrequest
  refine ⟨?_, ⟨position, hid⟩, ?_⟩
  · rw [axisValues_reindex]
    exact Dict.nodup_ofPairs _
  · rw [axisValues_reindex]
    exact exists_buildRequest_reindex _ hrequest _ order

/-- The `params` of a created item are those that its stage gives its cell. -/
theorem params_of_created {lib : Library} {spec : BatchSpec} {stage : Stage} {idPrefix : String}
    {items : List BatchItem} (h : expandItems lib spec stage 0 none idPrefix = .ok items)
    {c : BatchItem} (hc : c ∈ items) : c.request.params = stageParams spec c.axisValues stage := by
  obtain ⟨-, -, i, hrequest⟩ := request_of_created h hc
  obtain ⟨-, r, -, heq⟩ := buildRequest_eq_ok hrequest
  rw [heq]

/-- What an item of a later stage was built from. -/
theorem request_of_winner {lib : Library} {spec : BatchSpec} {stage : Stage} {stageIndex : ℕ}
    {winners : List BatchItem} {idPrefix : String} {rank : ℕ} {axisValues : AxisLabels}
    {seed : Option ℤ} {item : BatchItem}
    (h : BuiltAt lib spec stage stageIndex (some winners) idPrefix rank (axisValues, seed) item) :
    buildRequest lib spec (Dict.ofPairs axisValues) stage rank seed = .ok item.request := by
  obtain ⟨b, order, hb, rfl⟩ := h
  obtain ⟨request, hrequest, rfl⟩ := buildItem_eq_ok hb
  simpa [reindex, reseeds] using hrequest

/-- Patches whose order makes no difference can be applied in the order of a file. -/
theorem OrderFree.exists_patchedRequest {lib : Library} {spec : BatchSpec} {stage next : Stage}
    {c : BatchItem} {i : ℕ} (h : OrderFree lib spec c.axisValues next)
    (hn : (c.axisValues.map Prod.fst).Nodup)
    (hc : buildRequest lib spec c.axisValues stage i none = .ok c.request) :
    ∃ r, patchedRequest lib spec.canon c.axisValues.sortByName = .ok r := by
  obtain ⟨hlocks, r, hr, -⟩ := buildRequest_eq_ok hc
  have hlocks' := not_setsLocked_reloaded hn hlocks
  have hr' := h.fields.trans hr
  rw [← chosenEntries_canon] at hlocks' hr'
  exact exists_buildRequest hlocks' hr'

/-- The advance builds an item from every winner, under the id of the winner's rank, that
reproduces the item the winner was created as. -/
def RefinesWinners (lib : Library) (preflight : Preflight) (created record : BatchRecord)
    (next : Stage) : Prop :=
  ∃ record', tryAdvanceInPlace lib preflight.validate record = .ok record' ∧
    ∀ rank winner, record.winners[rank]? = some winner →
      ∀ c ∈ created.items, c.id = winner.id →
        ∃ item ∈ record'.items,
          item.id = itemId (idPrefix record.id) (record.stageIndex + 1) rank ∧
            Reproduces created.spec next c item

/-- A loaded record before its first advance: what it has kept of the created record, and
the stages that its advance goes between. -/
structure BeforeAdvance (lib : Library) (created record : BatchRecord) (stage next : Stage) :
    Prop where
  expanded : expandItems lib created.spec stage 0 none (idPrefix created.id) = .ok created.items
  saved : SavedRecord created record
  stageIndex : record.stageIndex = 0
  stage : record.spec.resolvedStages[record.stageIndex]? = some stage.canon
  next : record.spec.resolvedStages[record.stageIndex + 1]? = some next.canon

theorem InFirstStage.beforeAdvance {lib : Library} {preflight : Preflight} {maxItemsLimit : ℕ}
    {spec : BatchSpec} {batchId : BatchId} {created record : BatchRecord} {next : Stage}
    (h : InFirstStage created record)
    (hcreated : newRecord lib preflight.validate maxItemsLimit spec batchId = .ok created)
    (hnext : created.spec.resolvedStages[1]? = some next) :
    ∃ stage, BeforeAdvance lib created record stage next := by
  obtain ⟨hstage, hid, hitems⟩ := expandItems_of_newRecord hcreated
  have hsaved := h.savedRecord
  have hstages : record.spec.resolvedStages = created.spec.resolvedStages.map Stage.canon := by
    rw [hsaved.spec, BatchSpec.resolvedStages_canon]
  have hindex : record.stageIndex = 0 := hsaved.stageIndex.trans hstage
  refine ⟨created.spec.resolvedStages.headD { name := "single" }, ?_, hsaved, hindex, ?_, ?_⟩
  · rw [hid]
    exact hitems
  · rw [hstages, hindex]
    cases hcases : created.spec.resolvedStages with
    | nil => exact absurd hcases created.spec.resolvedStages_ne_nil
    | cons first rest => rfl
  · simp [hstages, hindex, hnext]

namespace BeforeAdvance
variable {lib : Library} {preflight : Preflight} {created record : BatchRecord} {stage next : Stage}

/-- Every winner is the saved form of a created item. -/
theorem exists_created (h : BeforeAdvance lib created record stage next) {winner : BatchItem}
    (hwinner : winner ∈ record.winners) : ∃ c ∈ created.items, SavedItem c winner := by
  have hmem := (BatchRecord.mem_itemsForStage.mp (mem_of_mem_rankWinners hwinner).1).1
  obtain ⟨n, hn, rfl⟩ := List.mem_iff_getElem.mp hmem
  have hn' : n < created.items.length := h.saved.items.length_eq ▸ hn
  exact ⟨_, List.getElem_mem hn', h.saved.items.get hn' hn⟩

/-- Ids tell which created item a winner is. -/
theorem savedItem_of_id (h : BeforeAdvance lib created record stage next) {winner c : BatchItem}
    (hwinner : winner ∈ record.winners) (hc : c ∈ created.items) (hid : c.id = winner.id) :
    SavedItem c winner := by
  obtain ⟨c₀, hc₀, hsave⟩ := h.exists_created hwinner
  have heq : c = c₀ :=
    List.inj_on_of_nodup_map (nodup_ids h.expanded) hc hc₀ (hid.trans hsave.id)
  rwa [heq]

/-- The ids of a first stage do not occur in the next one. -/
theorem id_ne (h : BeforeAdvance lib created record stage next) {item : BatchItem}
    (hitem : item ∈ record.items) (rank : ℕ) :
    item.id ≠ itemId (idPrefix record.id) (record.stageIndex + 1) rank := by
  obtain ⟨n, hn, rfl⟩ := List.mem_iff_getElem.mp hitem
  have hn' : n < created.items.length := h.saved.items.length_eq ▸ hn
  have hsave : SavedItem created.items[n] record.items[n] := h.saved.items.get hn' hn
  obtain ⟨-, ⟨i, hi⟩, -⟩ := request_of_created h.expanded (List.getElem_mem hn')
  rw [hsave.id, hi, h.saved.id, h.stageIndex]
  intro heq
  have := (itemId_inj.mp heq).1
  omega

/-- An item built from a winner reproduces it exactly when the order of the winner's
patches makes no difference. -/
theorem reproduces_iff (h : BeforeAdvance lib created record stage next) {rank : ℕ}
    {winner c item : BatchItem} (hc : c ∈ created.items) (hsave : SavedItem c winner)
    (hitem : BuiltAt lib record.spec next.canon (record.stageIndex + 1) (some record.winners)
      (idPrefix record.id) rank (winner.axisValues, winner.request.seed) item) :
    Reproduces created.spec next c item ↔ OrderFree lib created.spec c.axisValues next := by
  obtain ⟨hn, -, i, hrequest⟩ := request_of_created h.expanded hc
  have hbuilt := request_of_winner hitem
  rw [h.saved.spec, hsave.ofPairs_axisValues, hsave.request] at hbuilt
  exact reproduces_iff_orderFree hn hrequest hbuilt

/-- Winners whose patches may be applied in any order expand. -/
theorem exists_expandItems (h : BeforeAdvance lib created record stage next)
    (hfree : ∀ winner ∈ record.winners, ∀ c ∈ created.items, c.id = winner.id →
      OrderFree lib created.spec c.axisValues next) :
    ∃ newItems, expandItems lib record.spec next.canon (record.stageIndex + 1)
      (some record.winners) (idPrefix record.id) = .ok newItems := by
  have hbuildable : ∀ c ∈ record.winners.map fun item => (item.axisValues, item.request.seed),
      ∃ r, patchedRequest lib record.spec (Dict.ofPairs c.1) = .ok r := by
    intro c hc
    obtain ⟨winner, hw, rfl⟩ := List.mem_map.mp hc
    obtain ⟨c₀, hc₀, hsave⟩ := h.exists_created hw
    obtain ⟨hn, -, i, hrequest⟩ := request_of_created h.expanded hc₀
    rw [h.saved.spec, hsave.ofPairs_axisValues]
    exact (hfree winner hw c₀ hc₀ hsave.id.symm).exists_patchedRequest hn hrequest
  obtain ⟨built, hbuilt⟩ := exists_buildItems next.canon (record.stageIndex + 1)
    (idPrefix record.id) 0 hbuildable
  rw [expandItems_eq]
  simp only [seededCombinations, Except.bind, hbuilt, Except.map]
  exact ⟨_, rfl⟩

end BeforeAdvance

/-- Giving a new item its label does not change its request. -/
theorem reproduces_label_iff {spec : BatchSpec} {next : Stage} {winner item : BatchItem}
    {label : String} :
    Reproduces spec next winner { item with label } ↔ Reproduces spec next winner item :=
  ⟨fun h => ⟨h.1, h.2, h.3, h.4, h.5, h.6, h.7⟩, fun h => ⟨h.1, h.2, h.3, h.4, h.5, h.6, h.7⟩⟩

/-- A two-stage spec whose axes are not declared in alphabetical order. -/
def toneThenPlace : BatchSpec where
  name := "lighthouse"
  prompt := "a lighthouse"
  axes := [
    { name := "tone", values := [{ label := "warm", patch := [("prompt_suffix", .str "warm light")] }] },
    { name := "place", values := [{ label := "cliff", patch := [("prompt_suffix", .str "on a cliff")] }] }]
  stages := [{ name := "probe" }, { name := "refine" }]

/-- Every child succeeds. -/
def allSucceed (job : JobId) : ChildRow :=
  .record {
    id := job
    projectId := none
    mediaType := .image
    status := .succeeded
    request := {
      mediaType := .image, taskType := none, prompt := "", negativePrompt := none,
      modelId := "", seed := none, outputFormat := none, params := [], references := [] }
    createdAt := job
    updatedAt := job }

/-- The created batch, and its file once the first stage has succeeded. -/
def toneThenPlaceRun : Except Exc (BatchRecord × BatchRecord) := do
  let created ← newRecord Library.plain Preflight.accept.validate 64 toneThenPlace 0
  let loaded := (created.saved.assignIds 0 id).saved
  return (created, (loaded.recompute allSucceed).saved)

theorem toneThenPlaceRun_eq_ok {created record : BatchRecord}
    (h : toneThenPlaceRun = .ok (created, record)) :
    newRecord Library.plain Preflight.accept.validate 64 toneThenPlace 0 =
      (.ok created : Except Exc BatchRecord) ∧ InFirstStage created record := by
  simp only [toneThenPlaceRun, bind, Except.bind] at h
  split at h
  · cases h
  next created' hcreated =>
    obtain ⟨rfl, rfl⟩ := Prod.mk.inj (Except.ok.inj h)
    exact ⟨hcreated, .recompute (.assignIds .create 0 _) _⟩

/-- What the advance of the loaded record does to the winner's prompt. -/
theorem ends_toneThenPlaceRun : ∃ created record record', toneThenPlaceRun = .ok (created, record) ∧
    created.spec.resolvedStages[1]? = some { name := "refine" } ∧ record.ReadyToAdvance ∧
    tryAdvanceInPlace Library.plain Preflight.accept.validate record =
      (.ok record' : Except Exc BatchRecord) ∧
    (record.winners.map BatchItem.id = ["batch_0_item_0_000"]) ∧
    (created.items.map fun c => (c.id, c.request.prompt)) =
      [("batch_0_item_0_000", "a lighthouse, warm light, on a cliff")] ∧
    ∀ item ∈ record'.items, item.id = itemId (idPrefix record.id) (record.stageIndex + 1) 0 →
      item.request.prompt = "a lighthouse, on a cliff, warm light" := by
  have hend : toneThenPlaceRun.toOption.any (fun run =>
      (tryAdvanceInPlace Library.plain Preflight.accept.validate run.2 :
        Except Exc BatchRecord).toOption.any fun record' =>
          decide (run.1.spec.resolvedStages[1]? = some { name := "refine" }) &&
          (!run.2.cancellationRequested &&
            (run.2.itemsForStage run.2.stageIndex).all BatchItem.isTerminal &&
            !run.2.winners.isEmpty) &&
          decide (run.2.winners.map BatchItem.id = ["batch_0_item_0_000"]) &&
          decide ((run.1.items.map fun c => (c.id, c.request.prompt)) =
            [("batch_0_item_0_000", "a lighthouse, warm light, on a cliff")]) &&
          record'.items.all fun item => decide (
            item.id = itemId (idPrefix run.2.id) (run.2.stageIndex + 1) 0 →
            item.request.prompt = "a lighthouse, on a cliff, warm light")) = true := by
    decide +kernel
  obtain ⟨⟨created, record⟩, hrun, h⟩ := (Option.any_eq_true ..).mp hend
  obtain ⟨record', hadvance, h⟩ := (Option.any_eq_true ..).mp h
  simp only [Bool.and_eq_true, decide_eq_true_eq, List.all_eq_true, Bool.not_eq_true',
    List.isEmpty_eq_false_iff] at h
  obtain ⟨⟨⟨⟨hnext, ⟨hcancel, hterminal⟩, hwinners⟩, hids⟩, hprompts⟩, hprompt⟩ := h
  exact ⟨created, record, record', ok_of_toOption hrun, hnext, ⟨hcancel, hterminal, hwinners⟩,
    ok_of_toOption hadvance, hids, hprompts, hprompt⟩

end CreativeStudio.Batches
