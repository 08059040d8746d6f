import CreativeStudio.Projects.Repository
import CreativeStudio.Routes.Stories
import CreativeStudio.Story.Race

/-!
# The routes that put jobs into projects

A route answers, or ends in an error, over the stores of projects, jobs, assets and
feedback. Ids that the server draws are part of the request here. What the preflight of
references and the check of a melody answer may depend on all of the stores, and what the
batch service comes to is given with its call: the rows that it has created, and how it
ends.
-/

namespace CreativeStudio.Routes
open Data Jobs Assets Projects Story
open Batches (Library)

/-- `Feedback`. -/
structure Feedback where
  id : String
  jobId : JobId
  assetId : Option AssetId := none
  projectId : Option ProjectId := none
  qualityRating : ℤ := 3
  semanticRating : Option ℤ := none
  creativeRating : Option ℤ := none
  reuseIntent : Option Bool := none
  exportReady : Option Bool := none
  issueTags : List String := []
  comments : String := ""
  createdAt : ℕ
  metadata : Obj := []
  deriving DecidableEq, Repr

/-- The stores. -/
structure Studio where
  projects : AList fun _ : ProjectId => Project
  stage : Stage
  feedback : List Feedback

namespace Studio

def project? (s : Studio) (id : ProjectId) : Option Project := s.projects.lookup id

def job? (s : Studio) (id : JobId) : Option JobRecord := s.stage.shelves.job? id

def asset? (s : Studio) (id : AssetId) : Option Asset := s.stage.shelves.assets.lookup id

/-- A row of the jobs table has this id. -/
def HasRow (s : Studio) (id : JobId) : Prop := (s.stage.shelves.jobs.lookup id).isSome

instance (s : Studio) (id : JobId) : Decidable (s.HasRow id) := inferInstanceAs (Decidable (_ = true))

def now (s : Studio) : ℕ := s.stage.shelves.clock

/-! ## The repositories -/

/-- Write a row. -/
def setRow (s : Studio) (id : JobId) (job : JobRecord) : Studio :=
  { s with stage := { s.stage with shelves := s.stage.shelves.setRow id job } }

/-- `_save_project`. -/
def saveProject (s : Studio) (project : Project) : Studio :=
  { s with projects := s.projects.insert project.id project.saved }

/-- `_save_asset`, with the time stamped. -/
def saveAsset (s : Studio) (asset : Asset) : Studio :=
  let saved := { asset with updatedAt := s.now }.saved
  { s with stage := { s.stage with shelves := { s.stage.shelves with
      assets := s.stage.shelves.assets.insert saved.id saved
      clock := s.now + 1 } } }

/-- Save what a change makes of a project. -/
def editProject (s : Studio) (id : ProjectId) (edit : Project → Option Project) : Studio :=
  match (s.project? id).bind edit with
  | some project => s.saveProject project
  | none => s

/-- `add_job`. -/
def addJob (s : Studio) (id : ProjectId) (job : JobId) : Studio := s.editProject id (addJobEdit s.now job)

/-- `remove_job`. -/
def removeJob (s : Studio) (id : ProjectId) (job : JobId) : Studio := s.editProject id (removeJobEdit s.now job)

/-- Remove a job from the project that it is in, unless that is the next one too. -/
def leave (s : Studio) (job : JobId) (current next : Option ProjectId) : Studio :=
  match current with
  | some current => if current ≠ "" ∧ some current ≠ next then s.removeJob current job else s
  | none => s

/-- The same, by way of the document of the current project. -/
def leavePrevious (s : Studio) (job : JobId) (current : Option ProjectId) (next : ProjectId) : Studio :=
  match current with
  | some current =>
    if current ≠ "" ∧ current ≠ next then
      match s.project? current with
      | some previous => s.removeJob previous.id job
      | none => s
    else s
  | none => s

/-- `delete`. -/
def deleteProject (s : Studio) (id : ProjectId) : Studio := { s with projects := s.projects.erase id }

/-- `update_project`. -/
def updateProject (s : Studio) (id : JobId) (project : Option ProjectId) : Studio :=
  match s.job? id with
  | some job => s.setRow id { job with projectId := project }
  | none => s

/-- Save an asset whose project changes. -/
def rebindAsset (project : Option ProjectId) (s : Studio) (asset : Asset) : Studio :=
  match bindProjectEdit project asset with
  | some asset => s.saveAsset asset
  | none => s

/-- `bind_project`. -/
def bindProject (s : Studio) (id : AssetId) (project : Option ProjectId) : Studio :=
  match s.asset? id with
  | some asset => s.rebindAsset project asset
  | none => s

/-- `bind_job_assets`. -/
def bindJobAssets (s : Studio) (job : JobId) (project : Option ProjectId) : Studio :=
  (s.stage.shelves.listAssets.filter fun asset => asset.jobId = job).foldl (rebindAsset project) s

/-- `mark_reused`. -/
def markReused (lib : Library) (s : Studio) (id : AssetId) (action : String) (derivedJobId : JobId) :
    Except Exc Unit × Studio :=
  match s.asset? id with
  | none => (.ok (), s)
  | some asset => match markReusedEdit lib action (some (toString derivedJobId)) asset with
    | .error e => (.error e, s)
    | .ok none => (.ok (), s)
    | .ok (some asset) => (.ok (), s.saveAsset asset)

end Studio

/-! ## What the routes call -/

/-- The checks of the server that look at more than these stores. -/
structure Checks where
  lib : Library
  /-- `validate_references`. -/
  validateReferences : Studio → GenerationRequest → Option ProjectId → Except Exc Unit
  /-- `_validate_melody_reuse`. -/
  validateMelodyReuse : Studio → Asset → String → Except RouteError Unit
  /-- `GenerationRequest.model_validate`. -/
  validateRequest : Json → Option GenerationRequest

/-- `CreateProjectRequest`. -/
structure CreateProjectRequest where
  name : String
  description : String := ""
  status : String := "active"
  tags : List String := []
  metadata : Obj := []
  deriving DecidableEq, Repr

/-- `action` of a reuse. -/
inductive ReuseAction
  | variation | rerun | melody
  deriving DecidableEq, Repr

def ReuseAction.text : ReuseAction → String
  | .variation => "variation"
  | .rerun => "rerun"
  | .melody => "melody"

/-- `ReuseAssetRequest`. -/
structure ReuseAssetRequest where
  action : ReuseAction := .rerun
  prompt : Option String := none
  negativePrompt : Option String := none
  modelId : Option String := none
  seed : Option ℤ := none
  outputFormat : Option String := none
  projectId : Option ProjectId := none
  params : Obj := []
  deriving DecidableEq, Repr

/-- `RerunJobRequest`. -/
structure RerunJobRequest where
  prompt : Option String := none
  negativePrompt : Option String := none
  modelId : Option String := none
  seed : Option ℤ := none
  outputFormat : Option String := none
  params : Option Obj := none
  projectId : Option ProjectId := none
  deriving DecidableEq, Repr

/-- How a call of the batch service ends: with a record whose items have these job ids, with
`BatchStageMaterializationError` for such a record, with another exception and the batch
that was committed before it, or without a batch. -/
inductive BatchEnding
  | record (itemJobs : List JobId)
  | unconfirmed (batch : ℕ) (itemJobs : List JobId)
  | raised (e : Exc) (committed : Option ℕ)
  | missing
  deriving DecidableEq, Repr

/-- A call of `create_batch` or `advance`: the child rows it creates, and how it ends. -/
structure BatchCall where
  children : List JobRecord
  ending : BatchEnding
  deriving DecidableEq, Repr

/-- What a route answers with. -/
inductive Response
  | project (id : ProjectId)
  | asset (id : AssetId)
  | job (id : JobId)
  | batch (itemJobs : List JobId)
  | feedback (id : String)
  | none
  deriving DecidableEq, Repr

/-- The answer of a route, and what it leaves behind. -/
abbrev Reply := Except RouteError Response × Studio

/-- A route refuses, with the stores as they are. -/
def refuse (s : Studio) (status : ℕ) (detail : String) : Reply := (.error (.http status detail), s)

/-! ## The routes of projects -/

/-- `create_project`. -/
def createProject (id : ProjectId) (request : CreateProjectRequest) (s : Studio) : Reply :=
  (.ok (.project id), s.saveProject {
    id
    name := request.name
    description := request.description
    status := request.status
    tags := request.tags
    metadata := request.metadata
    createdAt := s.now
    updatedAt := s.now })

/-- `update_project`. -/
def updateProject (id : ProjectId) (changes : ProjectChanges) (s : Studio) : Reply :=
  match s.project? id with
  | none => refuse s 404 "Project not found"
  | some _ => (.ok (.project id), s.editProject id (updateEdit s.now changes))

/-- `add_job_to_project`. -/
def addJobToProject (id : ProjectId) (jobId : JobId) (s : Studio) : Reply :=
  match s.job? jobId with
  | none => refuse s 404 "Job not found"
  | some job =>
    let s := s.leave jobId job.projectId (some id)
    match s.project? id with
    | none => refuse s 404 "Project not found"
    | some project =>
      (.ok (.project id),
        (((s.addJob id jobId).updateProject jobId (some project.id)).bindJobAssets jobId (some project.id)))

/-- `remove_job_from_project`. -/
def removeJobFromProject (id : ProjectId) (jobId : JobId) (s : Studio) : Reply :=
  match s.project? id with
  | none => refuse s 404 "Project not found"
  | some project => match s.job? jobId with
    | none => refuse s 404 "Job not found in project"
    | some job =>
      if job.projectId ≠ some project.id ∨ jobId ∉ project.jobIds then
        refuse s 404 "Job not found in project"
      else
        (.ok (.project id), ((s.removeJob id jobId).updateProject jobId none).bindJobAssets jobId none)

/-- `add_asset_to_project`. -/
def addAssetToProject (id : ProjectId) (assetId : AssetId) (s : Studio) : Reply :=
  match s.project? id with
  | none => refuse s 404 "Project not found"
  | some _ => match s.asset? assetId with
    | none => refuse s 404 "Asset not found"
    | some asset =>
      let s := s.leavePrevious asset.jobId asset.projectId id
      let s := ((s.addJob id asset.jobId).updateProject asset.jobId (some id)).bindJobAssets asset.jobId (some id)
      let s := s.bindProject assetId (some id)
      match s.project? id with
      | none => refuse s 404 "Project not found"
      | some project => (.ok (.project project.id), s)

/-- `delete_project`. -/
def deleteProject (id : ProjectId) (s : Studio) : Reply :=
  match s.project? id with
  | none => refuse s 404 "Project not found"
  | some project =>
    (.ok .none, (project.jobIds.foldl (fun s job => (s.updateProject job none).bindJobAssets job none) s).deleteProject id)

/-! ## The routes of the gallery -/

/-- `_rebind_source_job_project`: the stores it leaves behind, and whether it has raised. -/
def rebindSourceJobProject (jobId : JobId) (project : Option ProjectId) (s : Studio) : Except RouteError Unit × Studio :=
  match s.job? jobId with
  | none => (.error (.http 404 "Source job not found"), s)
  | some sourceJob =>
    let s := s.leave jobId sourceJob.projectId project
    let enter (s : Studio) : Except RouteError Unit × Studio :=
      (.ok (), (s.updateProject jobId project).bindJobAssets jobId project)
    match project with
    | some id =>
      if id ≠ "" ∧ some id ≠ sourceJob.projectId then
        match s.project? id with
        | none => (.error (.http 404 "Project not found"), s)
        | some _ => enter (s.addJob id jobId)
      else enter s
    | none => enter s

/-- The errors of `_serialize_gallery_detail`. -/
def serializeGalleryDetail (lib : Library) (s : Studio) (asset : Asset) : Except RouteError Response :=
  match s.job? asset.jobId with
  | none => .error (.http 404 "Source job not found")
  | some _ => match toInt lib ((asset.metadata.get? "reuse_count").getD (.int 0)) with
    | .error e => .error (.raised e)
    | .ok _ => .ok (.asset asset.id)

/-- `bind_gallery_asset_to_project`. -/
def bindGalleryAssetToProject (lib : Library) (assetId : AssetId) (project : Option ProjectId) (s : Studio) : Reply :=
  match s.asset? assetId with
  | none => refuse s 404 "Gallery asset not found"
  | some asset => match rebindSourceJobProject asset.jobId project s with
    | (.error e, s) => (.error e, s)
    | (.ok (), s) =>
      let s := s.bindProject assetId project
      match s.asset? assetId with
      | none => refuse s 404 "Gallery asset not found"
      | some rebound => (serializeGalleryDetail lib s rebound, s)

/-! ## The routes that create one job -/

section Create
variable (checks : Checks)

/-- `create_job` of the job service. -/
def createJob (id : JobId) (request : GenerationRequest) (project : Option ProjectId) (s : Studio) :
    Except Exc Unit × Studio :=
  match checks.validateReferences s request project with
  | .error e => (.error e, s)
  | .ok () =>
    if s.HasRow id then (.error .integrity, s)
    else (.ok (), s.setRow id {
      id
      projectId := project
      mediaType := request.mediaType
      status := .queued
      request
      createdAt := s.now
      updatedAt := s.now })

/-- The error that a route makes of an exception of `create_job`. -/
def referenceError : Exc → RouteError
  | .reference message => .http 422 message
  | e => .raised e

/-- `_resolve_project_id`. -/
def resolveProjectId (detail : String) (project : Option ProjectId) (s : Studio) :
    Except RouteError (Option ProjectId) :=
  match project with
  | none => .ok none
  | some id => if (s.project? id).isSome then .ok (some id) else .error (.http 404 detail)

/-- `create_job`, and `add_job` to the project that the job is created for. -/
def createBoundJob (id : JobId) (request : GenerationRequest) (project : Option ProjectId) (s : Studio) :
    Except RouteError Unit × Studio :=
  match createJob checks id request project s with
  | (.error e, s) => (.error (referenceError e), s)
  | (.ok (), s) => (.ok (), project.elim s fun project => s.addJob project id)

/-- `_enqueue_generation`, by way of `_create_project_bound_job`. -/
def enqueueGeneration (id : JobId) (request : GenerationRequest) (project : Option ProjectId) (s : Studio) : Reply :=
  match resolveProjectId "Project not found" project s with
  | .error e => (.error e, s)
  | .ok project => match createBoundJob checks id request project s with
    | (.error e, s) => (.error e, s)
    | (.ok (), s) => (.ok (.job id), s)

/-- The request of `rerun_job`. -/
def rerunRequest (source : GenerationRequest) (request : RerunJobRequest) : GenerationRequest :=
  { source with
    prompt := request.prompt.getD source.prompt
    negativePrompt := request.negativePrompt.orElse fun _ => source.negativePrompt
    modelId := request.modelId.getD source.modelId
    seed := request.seed.orElse fun _ => source.seed
    outputFormat := request.outputFormat.orElse fun _ => source.outputFormat
    params := request.params.getD source.params }

/-- `rerun_job`. -/
def rerunJob (source id : JobId) (request : RerunJobRequest) (s : Studio) : Reply :=
  match s.job? source with
  | none => refuse s 404 "Job not found."
  | some sourceJob =>
    match resolveProjectId "Project not found." (request.projectId.orElse fun _ => sourceJob.projectId) s with
    | .error e => (.error e, s)
    | .ok project => match createBoundJob checks id (rerunRequest sourceJob.request request) project s with
      | (.error e, s) => (.error e, s)
      | (.ok (), s) => (.ok (.job id), s)

/-- `_request_from_asset`. -/
def requestFromAsset (asset : Asset) (sourceJob : JobRecord) : GenerationRequest :=
  match asset.metadata.get? "request_snapshot" with
  | some (.obj snapshot) => (checks.validateRequest (.obj snapshot)).getD sourceJob.request
  | _ => sourceJob.request

/-- The request of `_build_reuse_request`; `drawn` is the seed that a rerun draws. -/
def reuseRequest (source : GenerationRequest) (asset : Asset) (drawn : ℤ) (request : ReuseAssetRequest) :
    GenerationRequest :=
  { source with
    prompt := match request.prompt with
      | some prompt => if strip prompt = "" then source.prompt else prompt
      | none => source.prompt
    negativePrompt := request.negativePrompt.orElse fun _ => source.negativePrompt
    modelId := request.modelId.getD source.modelId
    seed := match request.seed with
      | some seed => some seed
      | none => if request.action = .rerun then some drawn else source.seed
    outputFormat := request.outputFormat.orElse fun _ => source.outputFormat
    params := Dict.update (Dict.update source.params request.params) [
      ("source_asset_id", .str asset.id), ("source_job_id", .str (toString asset.jobId)),
      ("reference_asset_path", .str asset.path), ("reuse_action", .str request.action.text)] }

/-- `_build_reuse_request`. -/
def buildReuseRequest (asset : Asset) (drawn : ℤ) (request : ReuseAssetRequest) (s : Studio) :
    Except RouteError (GenerationRequest × Option ProjectId) :=
  match s.job? asset.jobId with
  | none => .error (.http 404 "Source job not found")
  | some sourceJob => do
    let project ← resolveProjectId "Project not found" (request.projectId.orElse fun _ => asset.projectId) s
    let source := requestFromAsset checks asset sourceJob
    if request.action = .melody then
      checks.validateMelodyReuse s asset (request.modelId.getD source.modelId)
    return (reuseRequest source asset drawn request, project)

/-- `reuse_gallery_asset`. -/
def reuseGalleryAsset (assetId : AssetId) (id : JobId) (drawn : ℤ) (request : ReuseAssetRequest) (s : Studio) :
    Reply :=
  match s.asset? assetId with
  | none => refuse s 404 "Gallery asset not found"
  | some asset => match buildReuseRequest checks asset drawn request s with
    | .error e => (.error e, s)
    | .ok (generation, project) => match createBoundJob checks id generation project s with
      | (.error e, s) => (.error e, s)
      | (.ok (), s) => match s.markReused checks.lib assetId request.action.text id with
        | (.error e, s) => (.error (.raised e), s)
        | (.ok (), s) => (.ok (.job id), s)

end Create

/-! ## The routes of batches -/

/-- `create_if_absent` of a child row. -/
def Studio.createChild (s : Studio) (job : JobRecord) : Studio := if s.HasRow job.id then s else s.setRow job.id job

/-- The loop of `create_batch` over the items of the record. -/
def bindItems (project : Option ProjectId) (itemJobs : List JobId) (s : Studio) : Studio :=
  project.elim s fun project => itemJobs.foldl (fun s job => s.addJob project job) s

/-- `_detail_with_committed_batch_id`. -/
def detailWithCommittedBatchId (e : Exc) : Option ℕ → String
  | some batch => s!"{e.text} (batch {batch} was already created -- " ++
      s!"do not resubmit; use GET /batches/{batch} instead)"
  | none => e.text

/-- `create_batch`; `project` is the project of the spec that the body or its template
gives, or the error of a body that gives none. -/
def createBatch (project : Except RouteError (Option ProjectId)) (call : BatchCall) (s : Studio) : Reply :=
  match project with
  | .error e => (.error e, s)
  | .ok project =>
    if project.any fun id => (s.project? id).isNone then refuse s 404 "Project not found"
    else
      let s := call.children.foldl Studio.createChild s
      match call.ending with
      | .record itemJobs => (.ok (.batch itemJobs), bindItems project itemJobs s)
      | .unconfirmed _ itemJobs => (.ok (.batch itemJobs), bindItems project itemJobs s)
      | .raised (.reference message) committed =>
        refuse s 422 (detailWithCommittedBatchId (.reference message) committed)
      | .raised (.value message) committed =>
        refuse s 400 (detailWithCommittedBatchId (.value message) committed)
      | .raised e _ => (.error (.raised e), s)
      | .missing => (.error (.raised (.other "create_batch returned no record")), s)

/-- `advance_batch`. -/
def advanceBatch (call : BatchCall) (s : Studio) : Reply :=
  let s := call.children.foldl Studio.createChild s
  match call.ending with
  | .record itemJobs => (.ok (.batch itemJobs), s)
  | .unconfirmed batch _ => refuse s 503 (Exc.stageMaterialization batch).text
  | .raised e _ => (.error (referenceError e), s)
  | .missing => refuse s 404 "Batch not found"

/-! ## The routes of feedback -/

/-- `submit_feedback`. -/
def submitFeedback (feedback : Feedback) (s : Studio) : Reply :=
  if (s.job? feedback.jobId).isNone then refuse s 404 "Job not found"
  else if feedback.assetId.any fun id => (s.asset? id).isNone then refuse s 404 "Asset not found"
  else if feedback.projectId.any fun id => (s.project? id).isNone then refuse s 404 "Project not found"
  else (.ok (.feedback feedback.id), { s with feedback := s.feedback ++ [feedback] })

/-! ## Serving a request -/

/-- A request, with the ids that the server draws for it. `work` is what the workers do
between requests. -/
inductive Request
  | createProject (id : ProjectId) (request : CreateProjectRequest)
  | updateProject (id : ProjectId) (changes : ProjectChanges)
  | deleteProject (id : ProjectId)
  | addJobToProject (id : ProjectId) (job : JobId)
  | removeJobFromProject (id : ProjectId) (job : JobId)
  | addAssetToProject (id : ProjectId) (asset : AssetId)
  | bindAsset (asset : AssetId) (project : Option ProjectId)
  | reuse (asset : AssetId) (id : JobId) (drawn : ℤ) (request : ReuseAssetRequest)
  | rerun (source id : JobId) (request : RerunJobRequest)
  | generate (id : JobId) (request : GenerationRequest) (project : Option ProjectId)
  | createBatch (project : Except RouteError (Option ProjectId)) (call : BatchCall)
  | advanceBatch (call : BatchCall)
  | submitFeedback (feedback : Feedback)
  | work (event : Event)

/-- Serve a request. -/
def Studio.serve (checks : Checks) (s : Studio) : Request → Reply
  | .createProject id request => Routes.createProject id request s
  | .updateProject id changes => Routes.updateProject id changes s
  | .deleteProject id => Routes.deleteProject id s
  | .addJobToProject id job => Routes.addJobToProject id job s
  | .removeJobFromProject id job => Routes.removeJobFromProject id job s
  | .addAssetToProject id asset => Routes.addAssetToProject id asset s
  | .bindAsset asset project => bindGalleryAssetToProject checks.lib asset project s
  | .reuse asset id drawn request => reuseGalleryAsset checks asset id drawn request s
  | .rerun source id request => rerunJob checks source id request s
  | .generate id request project => enqueueGeneration checks id request project s
  | .createBatch project call => Routes.createBatch project call s
  | .advanceBatch call => Routes.advanceBatch call s
  | .submitFeedback feedback => Routes.submitFeedback feedback s
  | .work event => (.ok .none, { s with stage := s.stage.step checks.lib event })

/-- Serve one request after the other. -/
def Studio.serveAll (checks : Checks) (s : Studio) (requests : List Request) : Studio :=
  requests.foldl (fun s request => (s.serve checks request).2) s

/-- Nothing but stories is stored yet. -/
def Studio.fresh (stories : Stories) : Studio where
  projects := ∅
  stage := { shelves := { jobs := ∅, assets := ∅, stories }, index := {} }
  feedback := []

end CreativeStudio.Routes
