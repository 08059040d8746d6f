import CreativeStudio.Jobs.Statuses
import CreativeStudio.Schemas.Generation

/-!
# Batch schemas: one intent expanded into many jobs

A batch is a spec, the items expanded from it so far, and their rollup. `BatchSpec.Valid`
collects what the schema's own validators accept; a spec built by `model_copy` skips
them, so the expansion is defined on every spec.
-/

namespace CreativeStudio.Batches
open Data Jobs

/-- `batch_` followed by a uuid. -/
abbrev BatchId := ℕ

/-- `DEFAULT_ITEM_LIMIT`. -/
def defaultItemLimit : ℕ := 64

/-- The top-level request fields that a patch may set. -/
inductive Field
  | prompt | negativePrompt | modelId | seed | outputFormat | taskType
  deriving DecidableEq, Repr

/-- `_TOP_LEVEL_KEYS`. -/
def topLevelKeys : List (String × Field) :=
  [("prompt", .prompt), ("negative_prompt", .negativePrompt), ("model_id", .modelId),
    ("seed", .seed), ("output_format", .outputFormat), ("task_type", .taskType)]

/-- `PATCH_APPEND_KEYS`: patch keys that append to a field instead of replacing it. -/
def patchAppendKeys : List (String × Field) :=
  [("prompt_suffix", .prompt), ("prompt_fragment", .prompt),
    ("negative_suffix", .negativePrompt), ("negative_fragment", .negativePrompt)]

/-- One option along an axis, plus the request patch it applies. -/
structure AxisValue where
  label : String
  patch : Obj
  deriving DecidableEq, Repr

/-- A named dimension of the sweep. -/
structure Axis where
  name : String
  values : List AxisValue
  deriving DecidableEq, Repr

/-- One pass over the sweep; `keepTopN` winners of it seed the next pass. -/
structure Stage where
  name : String
  paramOverrides : Obj := []
  keepTopN : Option ℕ := none
  deriving DecidableEq, Repr

/-- `strategy`: any text but `sample` runs the whole grid. -/
inductive Strategy
  | grid | sample | other (text : String)
  deriving DecidableEq, Repr

/-- `seed_policy`: a text outside `SEED_POLICIES` is accepted too. -/
inductive SeedPolicy
  | shared | perItem | sweep | other (text : String)
  deriving DecidableEq, Repr

/-- Declarative description of a fan-out run. -/
structure BatchSpec where
  name : String
  mediaType : MediaType := .image
  taskType : Option String := none
  modelId : String := ""
  projectId : Option String := none
  prompt : String := ""
  negativePrompt : Option String := none
  seed : Option ℤ := none
  outputFormat : Option String := none
  params : Obj := []
  axes : List Axis := []
  bibleRefs : List String := []
  strategy : Strategy := .grid
  maxItems : Option ℕ := none
  sampleSeed : Option ℤ := none
  seedPolicy : SeedPolicy := .shared
  stages : List Stage := []
  limit : ℕ := defaultItemLimit
  lockedFields : List String := []
  deriving DecidableEq, Repr

/-- The stages to run, defaulting to a single unnamed pass. -/
def BatchSpec.resolvedStages (spec : BatchSpec) : List Stage :=
  if spec.stages.isEmpty then [{ name := "single" }] else spec.stages

/-- What an item's `status` holds: `pending`, or the status of its job. -/
inductive ItemStatus
  | pending
  | job (status : GenerationStatus)
  deriving DecidableEq, Repr

/-- `is_terminal_status` of an item's status. -/
def ItemStatus.isTerminal : ItemStatus → Bool
  | .pending => false
  | .job status => status.isTerminalStatus

/-- The labels chosen along each axis, in dictionary order. -/
abbrev AxisLabels := Dict String

/-- One expanded child of a batch. -/
structure BatchItem where
  id : String
  index : ℕ
  label : String
  stageName : String
  stageIndex : ℕ
  axisValues : AxisLabels
  request : GenerationRequest
  jobId : Option JobId := none
  status : ItemStatus := .pending
  score : Option ℚ := none
  outputPath : Option String := none
  previewPath : Option String := none
  errorMessage : Option String := none
  promoted : Bool := false
  deriving DecidableEq, Repr

/-- `is_terminal_status(item.status)`. -/
abbrev BatchItem.isTerminal (item : BatchItem) : Bool := item.status.isTerminal

/-- Rollup of item states, recomputed on every reconcile. -/
structure BatchAggregate where
  total : ℕ := 0
  pending : ℕ := 0
  running : ℕ := 0
  succeeded : ℕ := 0
  failed : ℕ := 0
  cancelled : ℕ := 0
  averageScore : Option ℚ := none
  bestItemId : Option String := none
  deriving DecidableEq, Repr

inductive BatchStatus
  | queued | running | partialSuccess | succeeded | failed | cancelled
  deriving DecidableEq, Repr

/-- The statuses a batch does not leave on its own. -/
def BatchStatus.Final : BatchStatus → Prop
  | .succeeded | .partialSuccess | .failed | .cancelled => True
  | .queued | .running => False

instance : DecidablePred BatchStatus.Final := fun s => by
  cases s <;> unfold BatchStatus.Final <;> infer_instance

/-- Persisted batch state. -/
structure BatchRecord where
  id : BatchId
  spec : BatchSpec
  status : BatchStatus := .queued
  stageIndex : ℕ := 0
  items : List BatchItem := []
  aggregate : BatchAggregate := {}
  advanceError : Option String := none
  cancellationRequested : Bool := false
  deriving DecidableEq, Repr

namespace BatchRecord

def itemsForStage (record : BatchRecord) (stageIndex : ℕ) : List BatchItem :=
  record.items.filter fun item => item.stageIndex == stageIndex

theorem mem_itemsForStage {record : BatchRecord} {k : ℕ} {item : BatchItem} :
    item ∈ record.itemsForStage k ↔ item ∈ record.items ∧ item.stageIndex = k := by
  simp [itemsForStage]

end BatchRecord

/-! ## Validation -/

/-- `Axis`: at least one value, and labels that tell the values apart. -/
structure Axis.Valid (axis : Axis) : Prop where
  name_ne : axis.name ≠ ""
  labels_ne : ∀ value ∈ axis.values, value.label ≠ ""
  values_ne_nil : axis.values ≠ []
  labels_nodup : (axis.values.map AxisValue.label).Nodup

/-- No axis value sets a locked field outright. -/
def BatchSpec.RespectsLocks (spec : BatchSpec) : Prop :=
  ∀ axis ∈ spec.axes, ∀ value ∈ axis.values, ∀ key ∈ value.patch.map Prod.fst,
    key ∈ spec.lockedFields → key ∈ patchAppendKeys.map Prod.fst

/-- What the validators of `BatchSpec`, `Axis` and `Stage` accept. -/
structure BatchSpec.Valid (spec : BatchSpec) : Prop where
  name_ne : spec.name ≠ ""
  axes : ∀ axis ∈ spec.axes, axis.Valid
  names_nodup : (spec.axes.map Axis.name).Nodup
  maxItems_pos : ∀ n, spec.maxItems = some n → 1 ≤ n
  limit_pos : 1 ≤ spec.limit
  stageNames_ne : ∀ stage ∈ spec.stages, stage.name ≠ ""
  keepTopN_pos : ∀ stage ∈ spec.stages, ∀ n, stage.keepTopN = some n → 1 ≤ n
  locks : spec.RespectsLocks

theorem BatchSpec.resolvedStages_ne_nil (spec : BatchSpec) : spec.resolvedStages ≠ [] := by
  unfold resolvedStages
  split
  · simp
  next h => simpa using h

theorem BatchSpec.Valid.keepTopN_of_resolved {spec : BatchSpec} (h : spec.Valid) {stage : Stage}
    (hs : stage ∈ spec.resolvedStages) {n : ℕ} (hn : stage.keepTopN = some n) : 1 ≤ n := by
  unfold resolvedStages at hs
  split at hs
  · obtain rfl : stage = { name := "single" } := by simpa using hs
    cases hn
  · exact h.keepTopN_pos stage hs n hn

/-! ## What a batch file holds -/

/-- An axis value as a file written with sorted keys holds it. -/
def AxisValue.canon (value : AxisValue) : AxisValue :=
  { value with patch := value.patch.canon }

def Axis.canon (axis : Axis) : Axis := { axis with values := axis.values.map AxisValue.canon }

def Stage.canon (stage : Stage) : Stage :=
  { stage with paramOverrides := stage.paramOverrides.canon }

def BatchSpec.canon (spec : BatchSpec) : BatchSpec :=
  { spec with
    params := spec.params.canon
    axes := spec.axes.map Axis.canon
    stages := spec.stages.map Stage.canon }

def BatchItem.canon (item : BatchItem) : BatchItem :=
  { item with axisValues := Dict.sortByName item.axisValues, request := item.request.canon }

@[simp] theorem AxisValue.canon_canon (value : AxisValue) : value.canon.canon = value.canon := by
  simp [AxisValue.canon]

@[simp] theorem Axis.canon_canon (axis : Axis) : axis.canon.canon = axis.canon := by
  simp [Axis.canon]

@[simp] theorem Stage.canon_canon (stage : Stage) : stage.canon.canon = stage.canon := by
  simp [Stage.canon]

@[simp] theorem BatchSpec.canon_canon (spec : BatchSpec) : spec.canon.canon = spec.canon := by
  simp [BatchSpec.canon]

theorem BatchSpec.resolvedStages_canon (spec : BatchSpec) :
    spec.canon.resolvedStages = spec.resolvedStages.map Stage.canon := by
  unfold resolvedStages canon
  by_cases h : spec.stages = []
  · simp [h, Stage.canon, Obj.canon, JsonOf.canonMembers, Dict.sortByName]
  · simp [h]

/-- The record that reading a file back returns after `write_json_atomic` wrote this
one: every dictionary in it, at every depth, has its keys sorted. -/
def BatchRecord.saved (record : BatchRecord) : BatchRecord :=
  { record with spec := record.spec.canon, items := record.items.map BatchItem.canon }

end CreativeStudio.Batches
