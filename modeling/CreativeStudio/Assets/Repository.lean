import CreativeStudio.Batches.Expansion
import CreativeStudio.Data.Text
import CreativeStudio.Jobs.Schemas
import Mathlib.Data.List.AList

/-!
# The asset repository

One JSON file for each asset. Every operation reads a file, changes what it has read, and
replaces the file; the change is a function of its own here, so that it can be followed
through any interleaving of the reads and the replacements.
-/

namespace CreativeStudio.Assets
open Data Jobs Batches

/-- The name of an asset file. -/
abbrev AssetId := String

/-- `_stable_asset_id`. The source takes a digest of the text after the prefix, and digests
of different texts differ; the text stands for its digest. -/
def stableAssetId (job : JobId) (outputPath : String) : AssetId :=
  "asset_" ++ toString job ++ ":" ++ outputPath

/-- A list can be split at the first place of an element. -/
theorem append_cons_inj_of_notMem {α : Type*} {a : α} {l l' r r' : List α} (hl : a ∉ l) (hl' : a ∉ l') :
    l ++ a :: r = l' ++ a :: r' ↔ l = l' ∧ r = r' := by
  induction l generalizing l' with
  | nil =>
    cases l' with
    | nil => simp
    | cons b l' =>
      simp only [List.mem_cons, not_or] at hl'
      simp [hl'.1]
  | cons b l ih =>
    simp only [List.mem_cons, not_or] at hl
    cases l' with
    | nil => simp [Ne.symm hl.1]
    | cons b' l' =>
      simp only [List.mem_cons, not_or] at hl'
      simp [ih hl.2 hl'.2, and_assoc]

/-- The job of an asset can be read off its id. -/
theorem stableAssetId_inj {job job' : JobId} {path path' : String} :
    stableAssetId job path = stableAssetId job' path' ↔ job = job' ∧ path = path' := by
  constructor
  swap
  · rintro ⟨rfl, rfl⟩
    rfl
  intro h
  have hlist := congrArg String.toList h
  have hcolon : ":".toList = [':'] := rfl
  have hdigits : ∀ n : ℕ, (toString n).toList = Nat.toDigits 10 n := fun n => Nat.toList_repr
  simp only [stableAssetId, String.toList_append, List.append_assoc, List.append_cancel_left_eq,
    hcolon, List.cons_append, List.nil_append, hdigits] at hlist
  -- the digits of the job end at the first colon
  have hnot : ∀ n : ℕ, ':' ∉ Nat.toDigits 10 n := by
    intro n hmem
    have hdigit := Nat.isDigit_of_mem_toDigits (by omega) (by omega) hmem
    revert hdigit
    decide
  obtain ⟨hjob, hpath⟩ := (append_cons_inj_of_notMem (hnot job) (hnot job')).mp hlist
  have hjob' := congrArg (fun cs => Nat.ofDigitChars 10 cs 0) hjob
  simp only [Nat.ofDigitChars_ten_toDigits] at hjob'
  exact ⟨hjob', String.toList_inj.mp hpath⟩

/-- `Asset`. -/
structure Asset where
  id : AssetId
  jobId : JobId
  projectId : Option String
  mediaType : MediaType
  kind : String := "output"
  title : String
  prompt : String
  modelId : String
  path : String
  previewPath : Option String := none
  parentAssetId : Option String := none
  lineage : List String := []
  exportPaths : List String := []
  tags : List String := []
  metadata : Obj := []
  createdAt : ℕ
  updatedAt : ℕ
  deriving DecidableEq, Repr

/-- The asset that reading a file back returns after it was written with sorted keys. -/
def Asset.saved (asset : Asset) : Asset := { asset with metadata := asset.metadata.canon }

@[simp] theorem Asset.saved_saved (asset : Asset) : asset.saved.saved = asset.saved := by
  simp [saved]

/-! ## Synchronising the assets of a job -/

/-- The texts of the literals that a dump writes. -/
def mediaTypeText : MediaType → String
  | .image => "image"
  | .video => "video"
  | .audio => "audio"
  | .text => "text"

def roleText : ReferenceRole → String
  | .character => "character"
  | .location => "location"

def preprocessingText : ReferencePreprocessing → String
  | .none => "none"
  | .auto => "auto"
  | .faceCrop => "face_crop"
  | .canny => "canny"
  | .depth => "depth"

/-- `model_dump(mode="json")` of one reference. -/
def dumpReference (reference : ReferenceImageInput) : Json :=
  .obj [("asset_id", .str reference.assetId), ("role", .str (roleText reference.role)),
    ("strength", .float reference.strength),
    ("preprocessing", .str (preprocessingText reference.preprocessing))]

/-- `model_dump(mode="json")` of a request. -/
def dumpRequest (request : GenerationRequest) : Json :=
  .obj [("media_type", .str (mediaTypeText request.mediaType)),
    ("task_type", .ofStr? request.taskType), ("prompt", .str request.prompt),
    ("negative_prompt", .ofStr? request.negativePrompt), ("model_id", .str request.modelId),
    ("seed", request.seed.elim .null .int), ("output_format", .ofStr? request.outputFormat),
    ("params", .obj request.params), ("references", .arr (request.references.map dumpReference))]

/-- `_effective_request_snapshot`. -/
def effectiveRequestSnapshot (job : JobRecord) (metadata : Obj) : Json :=
  let runtimeParams := ((metadata.get? "params").bind JsonOf.obj?).getD []
  let merged := Dict.update job.request.params runtimeParams
  let params := if (merged.get? "num_inference_steps").isSome then merged.erase "steps" else merged
  let seed := match metadata.get? "seed" with
    | some (.int n) => some n
    | _ => job.request.seed
  let modelId := match metadata.get? "model_id" with
    | some (.str s) => if s = "" then job.request.modelId else s
    | _ => job.request.modelId
  let outputFormat := match metadata.get? "output_format" with
    | some (.str s) => if s = "" then job.request.outputFormat else some s
    | _ => job.request.outputFormat
  dumpRequest { job.request with modelId, seed, outputFormat, params }

/-- `_summarize_prompt`. -/
def summarizePrompt (prompt fallback : String) : String :=
  let compact := " ".intercalate ((splitWords prompt.toList).map String.ofList)
  if compact = "" then fallback
  else if compact.length ≤ 72 then compact
  else String.ofList (compact.toList.take 69) ++ "..."

/-- `_variation_metadata_for_output`. -/
def variationMetadataForOutput (records : List Obj) (outputPath : String) (outputIndex : ℕ) : Obj :=
  match records.find? fun record => record.get? "output_path" == some (.str outputPath) with
  | some record => record
  | none => records[outputIndex]?.getD []

/-- `int(value)`. -/
def toInt (lib : Library) : Json → Except Exc ℤ
  | .bool b => .ok (if b then 1 else 0)
  | .int n => .ok n
  | .float q => .ok (if 0 ≤ q then ⌊q⌋ else ⌈q⌉)
  | .str s => match lib.parseInt s with
    | some n => .ok n
    | none => .error (.value s!"invalid literal for int() with base 10: {s}")
  | _ => .error (.other "int() argument must be a string, a bytes-like object or a real number")

/-- What `sync_job` reads off the result before it looks at any output. -/
structure SyncSource where
  outputs : List String
  previews : List String
  metadata : Obj
  variations : List Obj
  fallbackPreview : Option String

/-- The beginning of `sync_job`. -/
def syncSource (result : GenerationResult) : SyncSource where
  outputs := result.outputs.filter fun output => output != ""
  previews := result.previews
  metadata := result.metadata.erase "variations"
  variations := match result.metadata.get? "variations" with
    | some (.arr items) => items.filterMap JsonOf.obj?
    | _ => []
  fallbackPreview := result.previews.find? fun preview => preview != ""

/-- The preview of one output. -/
def previewPath (lib : Library) (source : SyncSource) (variation : Obj) (outputIndex : ℕ)
    (outputPath : String) : String :=
  match source.previews[outputIndex]? with
  | some preview => if preview != "" then preview else fallback
  | none => fallback
where
  fallback : String :=
    match (variation.get? "preview_path").filter JsonOf.truthy with
    | some preview => lib.format preview
    | none => source.fallbackPreview.getD outputPath

/-- The asset that `sync_job` computes for one output, `updated_at` apart. -/
def syncedAsset (lib : Library) (job : JobRecord) (source : SyncSource) (outputIndex : ℕ)
    (outputPath : String) (existing : Option Asset) : Except Exc Asset := do
  let lineage := existing.elim [] Asset.lineage
  let exportPaths := existing.elim [] Asset.exportPaths
  let variation := variationMetadataForOutput source.variations outputPath outputIndex
  let metadata := Dict.update (Dict.update (existing.elim [] Asset.metadata) source.metadata) variation
  let metadata := metadata.set "request_snapshot" (effectiveRequestSnapshot job metadata)
  let named := ((job.request.params.get? "source_asset_id").bind JsonOf.str?).filter fun id => id != ""
  let lineage := match named with
    | some parent => if parent ∈ lineage then lineage else lineage ++ [parent]
    | none => lineage
  let reuseCount ← toInt lib ((metadata.get? "reuse_count").getD (.int 0))
  let metadata := (metadata.set "reuse_count" (.int reuseCount)).set "export_count"
    (.int exportPaths.length)
  return {
    id := stableAssetId job.id outputPath
    jobId := job.id
    projectId := job.projectId
    mediaType := job.mediaType
    title := summarizePrompt job.request.prompt (mediaTypeText job.mediaType ++ " asset")
    prompt := job.request.prompt
    modelId := job.request.modelId
    path := outputPath
    previewPath := some (previewPath lib source variation outputIndex outputPath)
    parentAssetId := match named with
      | some parent => some parent
      | none => existing.bind Asset.parentAssetId
    lineage
    exportPaths
    tags := existing.elim [] Asset.tags
    metadata
    createdAt := existing.elim job.createdAt Asset.createdAt
    updatedAt := 0 }

/-- `_asset_state`: everything but `updated_at`, with `metadata` as a dictionary. -/
def Asset.state (asset : Asset) : Asset := { asset.saved with updatedAt := 0 }

/-- What `sync_job` does about one output: the asset to write, or `none` when the file
already says so. -/
def syncEdit (lib : Library) (job : JobRecord) (source : SyncSource) (outputIndex : ℕ)
    (outputPath : String) (existing : Option Asset) : Except Exc (Option Asset) := do
  let asset ← syncedAsset lib job source outputIndex outputPath existing
  return if existing.any fun old => old.state = asset.state then none else some asset

/-! ## The other operations -/

/-- `bind_project`. -/
def bindProjectEdit (projectId : Option String) (asset : Asset) : Option Asset :=
  if asset.projectId = projectId then none else some { asset with projectId }

/-- `mark_reused`. -/
def markReusedEdit (lib : Library) (action : String) (derivedJobId : Option String)
    (asset : Asset) : Except Exc (Option Asset) := do
  let derived := match asset.metadata.get? "derived_job_ids" with
    | some (.arr ids) => ids
    | _ => []
  let derived := match derivedJobId with
    | some id => if Json.str id ∈ derived then derived else derived ++ [.str id]
    | none => derived
  let reuseCount ← toInt lib ((asset.metadata.get? "reuse_count").getD (.int 0))
  return some { asset with
    metadata := ((asset.metadata.set "reuse_count" (.int (reuseCount + 1))).set
      "last_reuse_action" (.str action)).set "derived_job_ids" (.arr derived) }

/-- `record_export`. -/
def recordExportEdit (exportPath : String) (asset : Asset) : Option Asset :=
  let exportPaths := if exportPath ∈ asset.exportPaths then asset.exportPaths
    else asset.exportPaths ++ [exportPath]
  let metadata := (asset.metadata.set "export_count" (.int exportPaths.length)).set
    "last_export_path" (.str exportPath)
  let edited := { asset with exportPaths, metadata }
  if edited.state = asset.state then none else some edited

end CreativeStudio.Assets
