import CreativeStudio.Data.Text
import CreativeStudio.Batches.Schemas
import CreativeStudio.Schemas.Errors

/-!
# Axis expansion: turn a spec into concrete child requests

`expandItems` expands a stage into items, from the axes of the spec or from the winners
of the stage before. A request is built by applying the patches of an item's axis
values in dictionary order: patches append to a field, replace it, or merge into
`params`, so their order matters.
-/

namespace CreativeStudio.Batches
open Data Jobs

/-- What the expansion takes from the language runtime and from the validation library:
formatting of a value, reading an integer from text, and `random.Random(seed).sample`. -/
structure Library where
  format : Json → String
  parseInt : String → Option ℤ
  /-- `sample seed n k` chooses `k` of the indices below `n`. -/
  sample : Option ℤ → ℕ → ℕ → List ℕ
  format_str : ∀ s, format (.str s) = s
  sample_length : ∀ seed n k, k ≤ n → (sample seed n k).length = k
  sample_nodup : ∀ seed n k, (sample seed n k).Nodup
  sample_lt : ∀ seed n k, ∀ i ∈ sample seed n k, i < n

/-- A library for inputs that format nothing but texts, read no integers from text and
draw no sample. -/
def Library.plain : Library where
  format
    | .str s => s
    | _ => ""
  parseInt _ := none
  sample _ n k := List.range (min k n)
  format_str _ := rfl
  sample_length _ n k h := by simp [h]
  sample_nodup _ n k := List.nodup_range
  sample_lt _ n k i h := (List.mem_range.mp h).trans_le (min_le_right k n)

/-- The payload of a request while patches are applied to it: its top-level fields, which
a patch may set to anything, and its `params`. -/
structure Payload where
  fields : Field → Json
  params : Obj

/-- `payload[key] = value` for a top-level field. -/
def Payload.setField (payload : Payload) (field : Field) (value : Json) : Payload :=
  { payload with fields := Function.update payload.fields field value }

/-! ## Patches -/

mutual
/-- `_deep_merge`: members of `patch` replace those of `base`, objects merge. -/
def deepMerge : Obj → Obj → Obj
  | base, [] => base
  | base, (key, value) :: rest => deepMerge (base.set key (mergeValue (base.get? key) value)) rest
/-- What a key holds after a value is merged into it. -/
def mergeValue : Option Json → Json → Json
  | some (.obj existing), .obj value => .obj (deepMerge existing value)
  | _, value => value
end

/-- `payload.get(target) or ""` is the empty string for these values. -/
def falsy : Json → Bool
  | .null | .bool false | .int 0 | .str "" | .arr [] | .obj [] => true
  | .float q => q == 0
  | _ => false

/-- `text.strip(", ")`. -/
def stripCommas (text : String) : String :=
  let drop := List.dropWhile fun c => c == ',' || c == ' '
  String.ofList (drop (drop text.toList).reverse).reverse

/-- What a patch key that appends leaves in its target. -/
def appended (lib : Library) (existing : Json) (value : Json) : Json :=
  if falsy existing then value
  else .str (stripCommas (lib.format existing ++ ", " ++ lib.format value))

/-- One key of `_apply_patch`. -/
def applyEntry (lib : Library) (lockedFields : List String) (payload : Payload)
    (entry : String × Json) : Except Exc Payload :=
  let (key, value) := entry
  match patchAppendKeys.lookup key with
  | some target => .ok (payload.setField target (appended lib (payload.fields target) value))
  | none =>
    if key ∈ lockedFields then .error (.value s!"an axis value sets locked field {key}")
    else match topLevelKeys.lookup key with
      | some field => .ok (payload.setField field value)
      | none => match key, value with
        | "params", .obj members => .ok { payload with params := deepMerge payload.params members }
        | _, _ => .ok { payload with params := deepMerge payload.params [(key, value)] }

/-- `_apply_patch`. -/
def applyPatch (lib : Library) (lockedFields : List String) (payload : Payload) (patch : Obj) :
    Except Exc Payload :=
  patch.foldlM (applyEntry lib lockedFields) payload

/-- `_axis_by_name`. -/
def axisByName (spec : BatchSpec) (name : String) : Option Axis :=
  spec.axes.find? fun axis => axis.name == name

/-- The axis value that an axis name and a label stand for. -/
def axisValue (spec : BatchSpec) (name label : String) : Option AxisValue :=
  (axisByName spec name).bind fun axis => axis.values.find? fun entry => entry.label == label

/-- The patches of the chosen axis values under their axis names, in dictionary order. -/
def chosenPatches (spec : BatchSpec) (axisValues : AxisLabels) : Dict Obj :=
  axisValues.filterMap fun chosen =>
    (axisValue spec chosen.1 chosen.2).map fun value => (chosen.1, value.patch)

/-- Every patch entry of the chosen axis values, in the order they are applied. -/
def chosenEntries (spec : BatchSpec) (axisValues : AxisLabels) : List (String × Json) :=
  (chosenPatches spec axisValues).flatMap Prod.snd

/-- `_axis_values_patch_seed`: an axis value of this item sets `seed` directly. -/
def axisValuesPatchSeed (spec : BatchSpec) (axisValues : AxisLabels) : Bool :=
  (chosenEntries spec axisValues).any fun entry => entry.1 == "seed"

/-! ## Requests -/

/-- `_resolve_seed`: base + index, unless every item shares one seed. -/
def resolveSeed (spec : BatchSpec) (itemIndex : ℕ) : Option ℤ :=
  match spec.seedPolicy with
  | .shared => spec.seed
  | .perItem | .sweep | .other _ => some (spec.seed.getD 0 + itemIndex)

/-- An optional value as JSON holds it. -/
def ofOption (f : α → Json) : Option α → Json
  | none => .null
  | some a => f a

/-- The payload before any patch is applied. -/
def initialPayload (spec : BatchSpec) (seed : Option ℤ) : Payload where
  fields
    | .prompt => .str spec.prompt
    | .negativePrompt => ofOption .str spec.negativePrompt
    | .modelId => .str spec.modelId
    | .seed => ofOption .int seed
    | .outputFormat => ofOption .str spec.outputFormat
    | .taskType => ofOption .str spec.taskType
  params := spec.params

/-- Assign a key when there is something to assign. -/
def setWhen (condition : Bool) (key : String) (value : Json) (d : Obj) : Obj :=
  if condition then d.set key value else d

/-- The `params` of a request: the stage's overrides and the batch's own keys on top of
what the patches left. -/
def finishParams (spec : BatchSpec) (axisValues : AxisLabels) (stage : Stage) (params : Obj) : Obj :=
  let patches := chosenPatches spec axisValues
  let merged := deepMerge params stage.paramOverrides
  let withRefs := setWhen (!spec.bibleRefs.isEmpty) "bible_refs"
    (.arr (spec.bibleRefs.map .str)) merged
  let withPatches := setWhen (!patches.isEmpty) "axis_values"
    (.obj (Dict.mapValues .obj patches)) withRefs
  let withLabels := Dict.set withPatches "batch_axis_labels"
    (.obj (Dict.mapValues .str axisValues))
  Dict.set withLabels "batch_stage" (.str stage.name)

/-- A required text field. -/
def readStr : Json → Option String
  | .str s => some s
  | _ => none

/-- A text field that may be absent. -/
def readOptStr : Json → Option (Option String)
  | .null => some none
  | .str s => some (some s)
  | _ => none

/-- An integer field that may be absent, with the conversions the validation library
makes. -/
def readOptInt (lib : Library) : Json → Option (Option ℤ)
  | .null => some none
  | .int n => some (some n)
  | .bool b => some (some (if b then 1 else 0))
  | .float q => if q.den = 1 then some (some q.num) else none
  | .str s => (lib.parseInt s).map some
  | _ => none

/-- The fields of a request that a payload validates to; `params` is taken as it is. -/
def readFields (lib : Library) (mediaType : MediaType) (fields : Field → Json) :
    Option GenerationRequest := do
  return {
    mediaType
    taskType := ← readOptStr (fields .taskType)
    prompt := ← readStr (fields .prompt)
    negativePrompt := ← readOptStr (fields .negativePrompt)
    modelId := ← readStr (fields .modelId)
    seed := ← readOptInt lib (fields .seed)
    outputFormat := ← readOptStr (fields .outputFormat)
    params := []
    references := [] }

/-- `GenerationRequest(**payload)`. -/
def readPayload (lib : Library) (mediaType : MediaType) (payload : Payload) :
    Except Exc GenerationRequest :=
  match readFields lib mediaType payload.fields with
  | some request => .ok { request with params := payload.params }
  | none => .error (.value "the payload is not a generation request")

/-- The payload after every patch of the chosen axis values. -/
def patchedPayload (lib : Library) (spec : BatchSpec) (axisValues : AxisLabels)
    (seed : Option ℤ) : Except Exc Payload :=
  (chosenPatches spec axisValues).foldlM
    (fun payload chosen => applyPatch lib spec.lockedFields payload chosen.2)
    (initialPayload spec seed)

/-- `_build_request`. -/
def buildRequest (lib : Library) (spec : BatchSpec) (axisValues : AxisLabels) (stage : Stage)
    (itemIndex : ℕ) (inheritedSeed : Option ℤ) : Except Exc GenerationRequest := do
  let seed := if inheritedSeed.isSome then inheritedSeed else resolveSeed spec itemIndex
  let payload ← patchedPayload lib spec axisValues seed
  readPayload lib spec.mediaType
    { payload with params := finishParams spec axisValues stage payload.params }

/-! ### The seed a request starts from -/

@[simp] theorem fields_setField (p : Payload) (field field' : Field) (value : Json) :
    (p.setField field value).fields field' = if field' = field then value else p.fields field' := by
  simp [Payload.setField, Function.update_apply]

@[simp] theorem params_setField (p : Payload) (field : Field) (value : Json) :
    (p.setField field value).params = p.params := rfl

@[simp] theorem setField_setField (p : Payload) (field : Field) (v w : Json) :
    (p.setField field v).setField field w = p.setField field w := by
  simp [Payload.setField]

theorem setField_comm (p : Payload) {field field' : Field} (v w : Json) (h : field ≠ field') :
    (p.setField field v).setField field' w = (p.setField field' w).setField field v := by
  simp [Payload.setField, Function.update_comm h]

/-- Patches never append to the seed. -/
theorem appendTarget_ne_seed {key : String} {field : Field}
    (h : patchAppendKeys.lookup key = some field) : field ≠ .seed := by
  obtain ⟨before, after, happend, -⟩ := List.lookup_eq_some_iff.mp h
  have hmem : (key, field) ∈ patchAppendKeys := by rw [happend]; simp
  simp only [patchAppendKeys, List.mem_cons, Prod.mk.injEq, List.not_mem_nil, or_false] at hmem
  rcases hmem with ⟨-, rfl⟩ | ⟨-, rfl⟩ | ⟨-, rfl⟩ | ⟨-, rfl⟩ <;> simp

theorem key_of_lookup_seed {key : String} (h : topLevelKeys.lookup key = some .seed) :
    key = "seed" := by
  obtain ⟨before, after, htop, -⟩ := List.lookup_eq_some_iff.mp h
  have hmem : (key, Field.seed) ∈ topLevelKeys := by rw [htop]; simp
  simpa [topLevelKeys] using hmem

/-- Patches never read the seed, so they can be applied before or after it is set, unless
they set it themselves. -/
theorem applyEntry_setSeed (lib : Library) (locked : List String) (p : Payload) (v : Json)
    (entry : String × Json) :
    applyEntry lib locked (p.setField .seed v) entry =
      (applyEntry lib locked p entry).map fun q =>
        if entry.1 == "seed" then q else q.setField .seed v := by
  obtain ⟨key, value⟩ := entry
  unfold applyEntry
  by_cases hkey : key = "seed"
  · subst hkey
    have happend : patchAppendKeys.lookup "seed" = none := by decide
    have htop : topLevelKeys.lookup "seed" = some .seed := by decide
    simp only [happend, htop]
    split <;> simp [Except.map]
  · cases happend : patchAppendKeys.lookup key with
    | some target =>
      have hne := appendTarget_ne_seed happend
      simp [happend, Except.map, hkey, hne, setField_comm p v _ hne.symm]
    | none =>
      simp only [happend]
      split
      · rfl
      · cases htop : topLevelKeys.lookup key with
        | some field =>
          have hne : field ≠ .seed := fun h => hkey (key_of_lookup_seed (h ▸ htop))
          simp [Except.map, hkey, setField_comm p v value hne.symm]
        | none =>
          simp only []
          split <;> simp [Except.map, hkey, Payload.setField]

theorem foldlM_setSeed (lib : Library) (locked : List String) (v : Json)
    (entries : List (String × Json)) (p : Payload) :
    entries.foldlM (applyEntry lib locked) (p.setField .seed v) =
      (entries.foldlM (applyEntry lib locked) p).map fun q =>
        if entries.any fun entry => entry.1 == "seed" then q else q.setField .seed v := by
  induction entries generalizing p v with
  | nil => rfl
  | cons entry rest ih =>
    simp only [List.foldlM_cons, applyEntry_setSeed, List.any_cons]
    cases h : applyEntry lib locked p entry with
    | error e => rfl
    | ok q =>
      simp only [Except.map, bind, Except.bind]
      by_cases hkey : (entry.1 == "seed") = true
      · -- the entry has set the seed: what it was before is gone
        simp only [hkey, if_true, Bool.true_or]
        cases rest.foldlM (applyEntry lib locked) q <;> rfl
      · simp only [hkey, if_false, Bool.false_or, Bool.false_eq_true]
        rw [ih]
        rfl

theorem patchedPayload_eq (lib : Library) (spec : BatchSpec) (axisValues : AxisLabels)
    (seed : Option ℤ) :
    patchedPayload lib spec axisValues seed =
      (chosenEntries spec axisValues).foldlM (applyEntry lib spec.lockedFields)
        (initialPayload spec seed) := by
  unfold patchedPayload chosenEntries
  generalize initialPayload spec seed = p
  induction chosenPatches spec axisValues generalizing p with
  | nil => rfl
  | cons chosen rest ih =>
    simp only [List.foldlM_cons, List.flatMap_cons, List.foldlM_append, applyPatch]
    exact bind_congr fun q => ih q

/-- The seed a request starts from is the seed it ends with, unless a patch sets one; it
changes nothing else. -/
theorem patchedPayload_seed (lib : Library) (spec : BatchSpec) (axisValues : AxisLabels)
    (seed seed' : Option ℤ) :
    patchedPayload lib spec axisValues seed' =
      (patchedPayload lib spec axisValues seed).map fun q =>
        if axisValuesPatchSeed spec axisValues then q
        else q.setField .seed (ofOption .int seed') := by
  have h : initialPayload spec seed' =
      (initialPayload spec seed).setField .seed (ofOption .int seed') := by
    simp only [Payload.setField, initialPayload, Payload.mk.injEq, and_true]
    funext field
    cases field <;> simp
  simp only [patchedPayload_eq, h, foldlM_setSeed]
  rfl

theorem readFields_setSeed (lib : Library) (mediaType : MediaType) (p : Payload)
    (seed seed' : Option ℤ) :
    readFields lib mediaType (p.setField .seed (ofOption .int seed')).fields =
      (readFields lib mediaType (p.setField .seed (ofOption .int seed)).fields).map fun r =>
        { r with seed := seed' } := by
  have hread : ∀ s : Option ℤ, readOptInt lib (ofOption .int s) = some s := by
    rintro (_ | s) <;> rfl
  simp only [readFields, fields_setField, reduceCtorEq, if_false, if_true, hread]
  cases readOptStr (p.fields .taskType) <;> [rfl; skip]
  cases readStr (p.fields .prompt) <;> [rfl; skip]
  cases readOptStr (p.fields .negativePrompt) <;> [rfl; skip]
  cases readStr (p.fields .modelId) <;> [rfl; skip]
  cases readOptStr (p.fields .outputFormat) <;> rfl

/-- The request that the patches alone make, from no seed and before the stage adds to its
`params`. -/
def patchedRequest (lib : Library) (spec : BatchSpec) (axisValues : AxisLabels) :
    Except Exc GenerationRequest := do
  readPayload lib spec.mediaType (← patchedPayload lib spec axisValues none)

/-- A request is what the patches make of the spec, with the seed it was to start from
unless a patch sets one, and with the stage's `params`. -/
theorem buildRequest_eq (lib : Library) (spec : BatchSpec) (axisValues : AxisLabels)
    (stage : Stage) (itemIndex : ℕ) (inheritedSeed : Option ℤ) :
    buildRequest lib spec axisValues stage itemIndex inheritedSeed =
      (patchedRequest lib spec axisValues).map fun r =>
        { r with
          seed := if axisValuesPatchSeed spec axisValues then r.seed
            else if inheritedSeed.isSome then inheritedSeed else resolveSeed spec itemIndex
          params := finishParams spec axisValues stage r.params } := by
  unfold buildRequest patchedRequest
  generalize (if inheritedSeed.isSome then inheritedSeed else resolveSeed spec itemIndex) = seed
  simp only []
  rw [patchedPayload_seed lib spec axisValues none seed]
  have hstart := patchedPayload_seed lib spec axisValues none none
  cases h : patchedPayload lib spec axisValues none with
  | error e => rfl
  | ok q =>
    rw [h] at hstart
    simp only [Except.map, bind, Except.bind, Except.ok.injEq] at hstart ⊢
    by_cases hseed : axisValuesPatchSeed spec axisValues = true
    · simp only [hseed, if_true, readPayload]
      cases readFields lib spec.mediaType q.fields <;> rfl
    · simp only [hseed, Bool.false_eq_true, if_false] at hstart ⊢
      simp only [readPayload, readFields_setSeed lib spec.mediaType q none seed, ← hstart]
      cases readFields lib spec.mediaType q.fields <;> rfl

/-! ## Items -/

/-- The elements of the product of the axes; the first axis varies slowest. -/
def product : List Axis → List AxisLabels
  | [] => [[]]
  | axis :: rest =>
    axis.values.flatMap fun value => (product rest).map fun labels => (axis.name, value.label) :: labels

/-- The combinations that the strategy runs: all of them, or a sample in a stable order. -/
def chooseCombinations (lib : Library) (spec : BatchSpec) (all : List AxisLabels) :
    Except Exc (List AxisLabels) :=
  match spec.strategy, spec.maxItems with
  | .sample, none => .error (.value "A sample strategy requires max_items.")
  | .sample, some maxItems =>
    if maxItems < all.length then
      let indices := (lib.sample spec.sampleSeed all.length maxItems).insertionSort (· ≤ ·)
      .ok (indices.filterMap fun i => all[i]?)
    else .ok all
  | _, _ => .ok all

/-- `_combinations`. -/
def combinations (lib : Library) (spec : BatchSpec) : Except Exc (List AxisLabels) :=
  if spec.axes.isEmpty then .ok [[]]
  else (chooseCombinations lib spec (product spec.axes)).bind fun chosen =>
    if chosen.length > spec.limit then
      .error (.value s!"Batch would expand to {chosen.length} items, which exceeds the limit of {spec.limit}.")
    else .ok chosen

/-- `f"{number:03d}"`. -/
def pad3 (number : ℕ) : String :=
  let digits := toString number
  String.ofList (List.replicate (3 - digits.length) '0') ++ digits

/-- `_build_label`. -/
def buildLabel (axisValues : AxisLabels) (position : ℕ) : String :=
  if axisValues.isEmpty then "item-" ++ pad3 position
  else "__".intercalate (axisValues.map Prod.snd)

/-- `f"{id_prefix}_{stage_index}_{position:03d}"`. -/
def itemId (idPrefix : String) (stageIndex position : ℕ) : String :=
  idPrefix ++ "_" ++ toString stageIndex ++ "_" ++ pad3 position

theorem toList_pad3 (n : ℕ) :
    (pad3 n).toList = List.replicate (3 - (toString n).length) '0' ++ Nat.toDigits 10 n :=
  toList_zeroPadded 3 n

/-- Padding keeps the number. -/
theorem pad3_injective : Function.Injective pad3 := zeroPadded_injective 3

/-- The stage and the position can be read off an item's id. -/
theorem itemId_inj {idPrefix : String} {k k' i i' : ℕ} :
    itemId idPrefix k i = itemId idPrefix k' i' ↔ k = k' ∧ i = i' := by
  constructor
  swap
  · rintro ⟨rfl, rfl⟩; rfl
  intro h
  have hlist := congrArg String.toList h
  have hunderscore : "_".toList = ['_'] := rfl
  have hdigits : ∀ n : ℕ, (toString n).toList = Nat.toDigits 10 n := fun n => Nat.toList_repr
  simp only [itemId, String.toList_append, List.append_assoc, List.append_cancel_left_eq,
    hunderscore, List.cons_append, List.nil_append, hdigits, List.cons.injEq, true_and] at hlist
  -- the digits of the stage end at the first underscore
  have hpad : ∀ n, '_' ∉ (pad3 n).toList := by
    intro n
    simp [toList_pad3, List.mem_replicate]
  obtain ⟨hk, -, hi⟩ := (List.append_cons_inj_of_notMem (by simp) (hpad i)).mp hlist
  have hk' := congrArg (fun cs => Nat.ofDigitChars 10 cs 0) hk
  simp only [Nat.ofDigitChars_ten_toDigits] at hk'
  exact ⟨hk', pad3_injective (String.toList_inj.mp hi)⟩

/-- The item for one combination, before the items are put in order. -/
def buildItem (lib : Library) (spec : BatchSpec) (stage : Stage) (stageIndex : ℕ)
    (idPrefix : String) (position : ℕ) (combination : AxisLabels) (inheritedSeed : Option ℤ) :
    Except Exc BatchItem := do
  let axisValues := Dict.ofPairs combination
  let request ← buildRequest lib spec axisValues stage position inheritedSeed
  return {
    id := itemId idPrefix stageIndex position
    index := position
    label := buildLabel axisValues position
    stageName := stage.name
    stageIndex
    axisValues
    request }

/-- Items that share a model run consecutively. -/
def modelOrder (a b : BatchItem) : Prop :=
  a.request.modelId < b.request.modelId ∨
    (a.request.modelId = b.request.modelId ∧ a.index ≤ b.index)

instance : DecidableRel modelOrder := fun a b => by unfold modelOrder; infer_instance

/-- Give an item its final index, and the seed that goes with it. -/
def reindex (spec : BatchSpec) (reseed : Bool) (item : BatchItem) (order : ℕ) : BatchItem :=
  if reseed && !axisValuesPatchSeed spec item.axisValues then
    { item with index := order, request := { item.request with seed := resolveSeed spec order } }
  else { item with index := order }

/-- Build the items of a list of combinations, each with its inherited seed, counting
positions from `start`. -/
def buildItems (lib : Library) (spec : BatchSpec) (stage : Stage) (stageIndex : ℕ)
    (idPrefix : String) : ℕ → List (AxisLabels × Option ℤ) → Except Exc (List BatchItem)
  | _, [] => .ok []
  | start, (combination, inheritedSeed) :: rest => do
    let item ← buildItem lib spec stage stageIndex idPrefix start combination inheritedSeed
    let items ← buildItems lib spec stage stageIndex idPrefix (start + 1) rest
    return item :: items

/-- `expand_items`. -/
def expandItems (lib : Library) (spec : BatchSpec) (stage : Stage) (stageIndex : ℕ)
    (seedItems : Option (List BatchItem)) (idPrefix : String) : Except Exc (List BatchItem) := do
  let seeded ← match seedItems with
    | none => do
      let all ← combinations lib spec
      pure (all.map fun combination => (combination, none))
    | some winners =>
      pure (winners.map fun item => (item.axisValues, item.request.seed))
  let items ← buildItems lib spec stage stageIndex idPrefix 0 seeded
  let reseed := seedItems.isNone && (spec.seedPolicy == .perItem || spec.seedPolicy == .sweep)
  return ((items.insertionSort modelOrder).zipIdx).map fun (item, order) =>
    reindex spec reseed item order

/-! ### What an expansion returns -/

theorem buildItem_eq_ok {lib : Library} {spec : BatchSpec} {stage : Stage} {stageIndex : ℕ}
    {idPrefix : String} {position : ℕ} {combination : AxisLabels} {inheritedSeed : Option ℤ}
    {item : BatchItem}
    (h : buildItem lib spec stage stageIndex idPrefix position combination inheritedSeed = .ok item) :
    ∃ request, buildRequest lib spec (Dict.ofPairs combination) stage position inheritedSeed = .ok request ∧
      item = {
        id := itemId idPrefix stageIndex position
        index := position
        label := buildLabel (Dict.ofPairs combination) position
        stageName := stage.name
        stageIndex
        axisValues := Dict.ofPairs combination
        request } := by
  unfold buildItem at h
  cases hr : buildRequest lib spec (Dict.ofPairs combination) stage position inheritedSeed with
  | error e => simp [hr, bind, Except.bind] at h
  | ok request =>
    simp only [hr, bind, Except.bind, pure, Except.pure, Except.ok.injEq] at h
    exact ⟨request, rfl, h.symm⟩

/-- The items built from a list of combinations, position by position. -/
theorem forall₂_of_buildItems {lib : Library} {spec : BatchSpec} {stage : Stage} {stageIndex : ℕ}
    {idPrefix : String} {start : ℕ} {seeded : List (AxisLabels × Option ℤ)}
    {items : List BatchItem}
    (h : buildItems lib spec stage stageIndex idPrefix start seeded = .ok items) :
    List.Forall₂ (fun (c : (AxisLabels × Option ℤ) × ℕ) item =>
      buildItem lib spec stage stageIndex idPrefix c.2 c.1.1 c.1.2 = .ok item)
      (seeded.zipIdx start) items := by
  induction seeded generalizing start items with
  | nil =>
    obtain rfl : items = [] := by simpa [buildItems] using h.symm
    exact .nil
  | cons c rest ih =>
    obtain ⟨combination, inheritedSeed⟩ := c
    simp only [buildItems, bind, Except.bind] at h
    cases hi : buildItem lib spec stage stageIndex idPrefix start combination inheritedSeed with
    | error e => simp [hi] at h
    | ok item =>
      simp only [hi] at h
      cases hrest : buildItems lib spec stage stageIndex idPrefix (start + 1) rest with
      | error e => simp [hrest] at h
      | ok items' =>
        simp only [hrest, pure, Except.pure, Except.ok.injEq] at h
        subst h
        exact .cons hi (ih hrest)

/-- Building succeeds as soon as the patches of every combination make a request. -/
theorem exists_buildItems {lib : Library} {spec : BatchSpec} (stage : Stage) (stageIndex : ℕ)
    (idPrefix : String) (start : ℕ) {seeded : List (AxisLabels × Option ℤ)}
    (h : ∀ c ∈ seeded, ∃ r, patchedRequest lib spec (Dict.ofPairs c.1) = .ok r) :
    ∃ items, buildItems lib spec stage stageIndex idPrefix start seeded = .ok items := by
  induction seeded generalizing start with
  | nil => exact ⟨[], rfl⟩
  | cons c rest ih =>
    obtain ⟨combination, inheritedSeed⟩ := c
    obtain ⟨r, hr⟩ := h _ List.mem_cons_self
    obtain ⟨items, hitems⟩ := ih (start + 1) fun c hc => h c (List.mem_cons_of_mem _ hc)
    simp [buildItems, buildItem, buildRequest_eq, hr, hitems, Except.map, bind, Except.bind,
      pure, Except.pure]

section Reindex
variable (spec : BatchSpec) (reseed : Bool) (item : BatchItem) (order : ℕ)

@[simp] theorem id_reindex : (reindex spec reseed item order).id = item.id := by
  unfold reindex; split <;> rfl
@[simp] theorem axisValues_reindex :
    (reindex spec reseed item order).axisValues = item.axisValues := by
  unfold reindex; split <;> rfl
@[simp] theorem stageIndex_reindex :
    (reindex spec reseed item order).stageIndex = item.stageIndex := by
  unfold reindex; split <;> rfl
@[simp] theorem jobId_reindex : (reindex spec reseed item order).jobId = item.jobId := by
  unfold reindex; split <;> rfl
@[simp] theorem status_reindex : (reindex spec reseed item order).status = item.status := by
  unfold reindex; split <;> rfl

end Reindex

/-- The combinations a stage expands, each with the seed it inherits. -/
def seededCombinations (lib : Library) (spec : BatchSpec) :
    Option (List BatchItem) → Except Exc (List (AxisLabels × Option ℤ))
  | none => (combinations lib spec).map fun all => all.map fun combination => (combination, none)
  | some winners => .ok (winners.map fun item => (item.axisValues, item.request.seed))

/-- Whether items get a new seed with their final index. -/
def reseeds (spec : BatchSpec) (seedItems : Option (List BatchItem)) : Bool :=
  seedItems.isNone && (spec.seedPolicy == .perItem || spec.seedPolicy == .sweep)

theorem expandItems_eq (lib : Library) (spec : BatchSpec) (stage : Stage) (stageIndex : ℕ)
    (seedItems : Option (List BatchItem)) (idPrefix : String) :
    expandItems lib spec stage stageIndex seedItems idPrefix =
      (seededCombinations lib spec seedItems).bind fun seeded =>
        (buildItems lib spec stage stageIndex idPrefix 0 seeded).map fun items =>
          ((items.insertionSort modelOrder).zipIdx).map fun c =>
            reindex spec (reseeds spec seedItems) c.1 c.2 := by
  unfold expandItems seededCombinations reseeds
  cases seedItems with
  | none =>
    cases combinations lib spec with
    | error e => rfl
    | ok all => rfl
  | some winners => rfl

/-- The items of an expansion are the built items, put in order and reindexed. -/
theorem expandItems_eq_ok {lib : Library} {spec : BatchSpec} {stage : Stage} {stageIndex : ℕ}
    {seedItems : Option (List BatchItem)} {idPrefix : String} {items : List BatchItem}
    (h : expandItems lib spec stage stageIndex seedItems idPrefix = .ok items) :
    ∃ seeded built, seededCombinations lib spec seedItems = .ok seeded ∧
      buildItems lib spec stage stageIndex idPrefix 0 seeded = .ok built ∧
      items = ((built.insertionSort modelOrder).zipIdx).map fun c =>
        reindex spec (reseeds spec seedItems) c.1 c.2 := by
  rw [expandItems_eq] at h
  cases hseeded : seededCombinations lib spec seedItems with
  | error e => simp [hseeded, Except.bind] at h
  | ok seeded =>
    simp only [hseeded, Except.bind] at h
    cases hbuilt : buildItems lib spec stage stageIndex idPrefix 0 seeded with
    | error e => simp [hbuilt, Except.map] at h
    | ok built =>
      simp only [hbuilt, Except.map, Except.ok.injEq] at h
      exact ⟨seeded, built, rfl, hbuilt, h.symm⟩

theorem mem_reindexed {spec : BatchSpec} {reseed : Bool} {built : List BatchItem} {item : BatchItem}
    (h : item ∈ ((built.insertionSort modelOrder).zipIdx).map fun c => reindex spec reseed c.1 c.2) :
    ∃ b ∈ built, ∃ order, item = reindex spec reseed b order := by
  obtain ⟨⟨b, order⟩, hb, rfl⟩ := List.mem_map.mp h
  have hmem : b ∈ built.insertionSort modelOrder := List.fst_mem_of_mem_zipIdx hb
  exact ⟨b, (List.mem_insertionSort modelOrder).mp hmem, order, rfl⟩

theorem exists_mem_reindexed {spec : BatchSpec} {reseed : Bool} {built : List BatchItem}
    {b : BatchItem} (h : b ∈ built) :
    ∃ order, reindex spec reseed b order ∈
      ((built.insertionSort modelOrder).zipIdx).map fun c => reindex spec reseed c.1 c.2 := by
  have hmem := (List.mem_insertionSort modelOrder).mpr h
  obtain ⟨order, horder, rfl⟩ := List.mem_iff_getElem.mp hmem
  have hzip : (((built.insertionSort modelOrder)[order]), order) ∈
      (built.insertionSort modelOrder).zipIdx :=
    List.mem_zipIdx_iff_getElem?.mpr (List.getElem?_eq_getElem horder)
  exact ⟨order, List.mem_map.mpr ⟨_, hzip, rfl⟩⟩

/-- Building keeps positions. -/
theorem buildItems_getElem {lib : Library} {spec : BatchSpec} {stage : Stage} {stageIndex : ℕ}
    {idPrefix : String} {seeded : List (AxisLabels × Option ℤ)} {built : List BatchItem}
    (h : buildItems lib spec stage stageIndex idPrefix 0 seeded = .ok built) :
    built.length = seeded.length ∧ ∀ n (hn : n < seeded.length) (hn' : n < built.length),
      buildItem lib spec stage stageIndex idPrefix n seeded[n].1 seeded[n].2 = .ok built[n] := by
  have hall := forall₂_of_buildItems h
  have hlen := hall.length_eq
  rw [List.length_zipIdx] at hlen
  refine ⟨hlen.symm, fun n hn hn' => ?_⟩
  have hget := hall.get (by simpa using hn) hn'
  simpa using hget

section Positions
variable {lib : Library} {spec : BatchSpec} {stage : Stage} {stageIndex : ℕ}
  {seedItems : Option (List BatchItem)} {idPrefix : String} {items : List BatchItem}
  {seeded : List (AxisLabels × Option ℤ)}

/-- The item was built at a position of the stage, from the combination there. -/
def BuiltAt (lib : Library) (spec : BatchSpec) (stage : Stage) (stageIndex : ℕ)
    (seedItems : Option (List BatchItem)) (idPrefix : String) (position : ℕ)
    (combination : AxisLabels × Option ℤ) (item : BatchItem) : Prop :=
  ∃ b order, buildItem lib spec stage stageIndex idPrefix position combination.1 combination.2 =
    .ok b ∧ item = reindex spec (reseeds spec seedItems) b order

theorem BuiltAt.id_eq {position : ℕ} {c : AxisLabels × Option ℤ} {item : BatchItem}
    (h : BuiltAt lib spec stage stageIndex seedItems idPrefix position c item) :
    item.id = itemId idPrefix stageIndex position := by
  obtain ⟨b, order, hb, rfl⟩ := h
  obtain ⟨request, -, rfl⟩ := buildItem_eq_ok hb
  simp

/-- Every position of a stage has its item. -/
theorem exists_builtAt
    (h : expandItems lib spec stage stageIndex seedItems idPrefix = .ok items)
    (hseeded : seededCombinations lib spec seedItems = .ok seeded) {position : ℕ}
    {c : AxisLabels × Option ℤ} (hc : seeded[position]? = some c) :
    ∃ item ∈ items, BuiltAt lib spec stage stageIndex seedItems idPrefix position c item := by
  obtain ⟨seeded', built, hseeded', hbuilt, rfl⟩ := expandItems_eq_ok h
  obtain rfl := Except.ok.inj (hseeded.symm.trans hseeded')
  obtain ⟨hn, rfl⟩ := List.getElem?_eq_some_iff.mp hc
  obtain ⟨hlen, hbuild⟩ := buildItems_getElem hbuilt
  have hn' : position < built.length := hlen ▸ hn
  obtain ⟨order, hmem⟩ := exists_mem_reindexed (List.getElem_mem hn')
  exact ⟨_, hmem, built[position], order, hbuild position hn hn', rfl⟩

/-- Every item of a stage was built at some position. -/
theorem builtAt_of_mem
    (h : expandItems lib spec stage stageIndex seedItems idPrefix = .ok items)
    (hseeded : seededCombinations lib spec seedItems = .ok seeded) {item : BatchItem}
    (hitem : item ∈ items) :
    ∃ position c, seeded[position]? = some c ∧
      BuiltAt lib spec stage stageIndex seedItems idPrefix position c item := by
  obtain ⟨seeded', built, hseeded', hbuilt, rfl⟩ := expandItems_eq_ok h
  obtain rfl := Except.ok.inj (hseeded.symm.trans hseeded')
  obtain ⟨b, hb, order, rfl⟩ := mem_reindexed hitem
  obtain ⟨position, hn', rfl⟩ := List.mem_iff_getElem.mp hb
  obtain ⟨hlen, hbuild⟩ := buildItems_getElem hbuilt
  have hn : position < seeded.length := hlen ▸ hn'
  exact ⟨position, seeded[position], List.getElem?_eq_getElem hn, built[position], order,
    hbuild position hn hn', rfl⟩

/-- The items of a stage have the ids of its positions, each once. -/
theorem ids_perm (h : expandItems lib spec stage stageIndex seedItems idPrefix = .ok items) :
    (items.map BatchItem.id).Perm
      ((List.range items.length).map (itemId idPrefix stageIndex)) := by
  obtain ⟨seeded, built, -, hbuilt, rfl⟩ := expandItems_eq_ok h
  obtain ⟨hlen, hbuild⟩ := buildItems_getElem hbuilt
  have hids : built.map BatchItem.id = (List.range built.length).map (itemId idPrefix stageIndex) := by
    refine List.ext_getElem (by simp) fun n hn hn' => ?_
    simp only [List.length_map] at hn
    obtain ⟨request, -, heq⟩ := buildItem_eq_ok (hbuild n (hlen ▸ hn) hn)
    rw [List.getElem_map, heq]
    simp
  have hperm : (((built.insertionSort modelOrder).zipIdx).map fun c =>
      reindex spec (reseeds spec seedItems) c.1 c.2).map BatchItem.id =
      (built.insertionSort modelOrder).map BatchItem.id := by
    have hid : ∀ c ∈ (built.insertionSort modelOrder).zipIdx,
        (BatchItem.id ∘ fun c : BatchItem × ℕ => reindex spec (reseeds spec seedItems) c.1 c.2) c =
          (BatchItem.id ∘ Prod.fst) c := fun c _ => by simp
    rw [List.map_map, List.map_congr_left hid, ← List.map_map, List.zipIdx_map_fst]
  rw [hperm]
  simp only [List.length_map, List.length_zipIdx, List.length_insertionSort]
  exact ((List.perm_insertionSort modelOrder built).map _).trans (.of_eq hids)

theorem nodup_ids (h : expandItems lib spec stage stageIndex seedItems idPrefix = .ok items) :
    (items.map BatchItem.id).Nodup := by
  refine (ids_perm h).nodup_iff.mpr (List.nodup_range.map fun i j hij => ?_)
  exact (itemId_inj.mp hij).2

end Positions
end CreativeStudio.Batches
