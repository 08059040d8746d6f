import CreativeStudio.Jobs.Completion
import CreativeStudio.Story.Binding

/-!
# Replaying a completion onto its scene

When the live binding of a finished job was lost, convergence binds it later: it
synchronises the assets of the job, and if the slot is still empty it lets the newest of the
usable candidates win. A candidate that loses gives up for good.
-/

namespace CreativeStudio.Story
open Data Jobs Assets Batches Storage

/-- A row of the jobs table: a record, or a row that does not decode, with its raw status
and the params that can be read off it. -/
inductive JobEntry
  | record (job : JobRecord)
  | poison (rawStatus : StatusText) (params : Option Obj)
  deriving DecidableEq, Repr

/-- The stores that a replay works on. -/
structure Shelves where
  jobs : AList fun _ : JobId => JobEntry
  assets : AList fun _ : AssetId => Asset
  stories : Stories
  clock : ℕ := 0

namespace Shelves

/-- `JobRepository.get` of a row that decodes. -/
def job? (s : Shelves) (id : JobId) : Option JobRecord :=
  match s.jobs.lookup id with
  | some (.record job) => some job
  | _ => none

/-- `AssetRepository.list_all`: the latest written first. -/
def listAssets (s : Shelves) : List Asset :=
  (s.assets.entries.map Sigma.snd).insertionSort fun a b => b.updatedAt ≤ a.updatedAt

/-- `get_primary_by_job`. -/
def primaryByJob (s : Shelves) (job : JobId) : Option Asset :=
  s.listAssets.find? fun asset => asset.jobId == job

end Shelves

/-! ## Synchronising -/

/-- The loop of `sync_job`. -/
def syncOutputs (lib : Library) (job : JobRecord) (source : SyncSource) :
    ℕ → List String → Shelves → Except Exc Unit × Shelves
  | _, [], s => (.ok (), s)
  | index, path :: rest, s =>
    match syncEdit lib job source index path (s.assets.lookup (stableAssetId job.id path)) with
    | .error e => (.error e, s)
    | .ok none => syncOutputs lib job source (index + 1) rest s
    | .ok (some asset) =>
      let saved := { asset with updatedAt := s.clock }.saved
      syncOutputs lib job source (index + 1) rest
        { s with assets := s.assets.insert saved.id saved, clock := s.clock + 1 }

/-- `AssetRepository.sync_job`. -/
def syncJob (lib : Library) (job : JobRecord) (s : Shelves) : Except Exc Unit × Shelves :=
  match job.result with
  | some result =>
    if job.status = .succeeded then
      syncOutputs lib job (syncSource result) 0 (syncSource result).outputs s
    else (.ok (), s)
  | none => (.ok (), s)

/-! ## Choosing the winner -/

/-- `SceneCandidateIndex`. -/
structure SceneCandidateIndex where
  candidates : List JobRecord := []
  poisonedKeys : List Target := []
  hasUnattributablePoisonRow : Bool := false

/-- The slot that an undecodable row may be for. -/
def poisonedKey (params : Obj) : Option Target := do
  let story ← textParam params "story_id"
  let scene ← textParam params "scene_id"
  let role ← textParam params "scene_role"
  return { story, scene, role }

/-- `build_scene_candidate_index`. -/
def buildSceneCandidateIndex (s : Shelves) : SceneCandidateIndex where
  candidates := (s.jobs.entries.filterMap fun entry => match entry.2 with
    | .record job =>
      if job.status = .succeeded ∧ (selectSceneBoundParams job.request.params).isSome then some job
      else none
    | .poison _ _ => none).insertionSort fun a b => b.createdAt ≤ a.createdAt
  poisonedKeys := s.jobs.entries.filterMap fun entry => match entry.2 with
    | .poison (.known .succeeded) (some params) => poisonedKey params
    | _ => none
  hasUnattributablePoisonRow := s.jobs.entries.any fun entry => match entry.2 with
    | .poison (.known .succeeded) none => true
    | _ => false

/-- `_succeeded_candidates_for_role`. -/
def SceneCandidateIndex.forTarget (index : SceneCandidateIndex) (target : Target) :
    List JobRecord × Bool :=
  (index.candidates.filter fun job => selectSceneBoundParams job.request.params = some target,
    index.hasUnattributablePoisonRow || decide (target ∈ index.poisonedKeys))

/-- `any(result.outputs)`. -/
def HasOutput (job : JobRecord) : Prop :=
  ∃ result, job.result = some result ∧ ∃ output ∈ result.outputs, output ≠ ""

instance (job : JobRecord) : Decidable (HasOutput job) :=
  decidable_of_iff ((job.result.elim [] GenerationResult.outputs).any fun output => output ≠ "") <| by
    cases h : job.result <;> simp [HasOutput, h]

/-- `_has_usable_output`. -/
def HasUsableOutput (s : Shelves) (job : JobRecord) : Prop :=
  HasOutput job ∨ (s.primaryByJob job.id).isSome

instance (s : Shelves) (job : JobRecord) : Decidable (HasUsableOutput s job) :=
  inferInstanceAs (Decidable (_ ∨ _))

/-- The order of `(created_at, id)`. -/
def Newer (a b : JobRecord) : Prop :=
  b.createdAt < a.createdAt ∨ (a.createdAt = b.createdAt ∧ b.id < a.id)

instance : DecidableRel Newer := fun a b => by unfold Newer; infer_instance

/-- `_select_winner`: the first of the newest. -/
def selectWinner (first : JobRecord) (rest : List JobRecord) : JobRecord :=
  rest.foldl (fun best job => if Newer job best then job else best) first

/-- The winner among the usable candidates; without any it is the job itself. -/
def chooseWinner (job : JobRecord) : List JobRecord → JobRecord
  | [] => job
  | first :: rest => selectWinner first rest

/-! ## One job -/

/-- `replay_job_safely`, and `bind_job` when it is not a replay. -/
def bindJob (replay : Bool) (job : JobId) (s : Shelves) : Option StoryDocument × Shelves :=
  let (bound, stories) := bind replay s.stories s.clock (s.job? job)
    ((s.primaryByJob job).map Asset.id)
  (bound, { s with stories, clock := s.clock + 1 })

/-- The scene of a slot: `next(entry for entry in scenes if entry.id == scene_id)`. -/
def StoryDocument.scene? (story : StoryDocument) (id : String) : Option Scene :=
  story.scenes.find? fun scene => scene.id == id

/-- What the end of `converge_scene_binding` makes of the story after a replay that
answered nothing. -/
def outcomeAfter (stories : Stories) (target : Target) : ReplayOutcome :=
  match stories.file? target.story with
  | none => .converged
  | some .malformed => .retryable
  | some (.value story) => match story.scene? target.scene with
    | none => .converged
    | some scene => if (scene.slot target.role).isSome then .converged else .ambiguous

/-- `converge_scene_binding`. -/
def convergeSceneBinding (job : JobRecord) (index : Option SceneCandidateIndex) (s : Shelves) :
    ReplayOutcome × Shelves :=
  match selectSceneBoundParams job.request.params with
  | none => (.converged, s)
  | some target =>
    match s.stories.file? target.story with
    | none => (.converged, s)
    | some .malformed => (.retryable, s)
    | some (.value story) => match story.scene? target.scene with
      | none => (.converged, s)
      | some scene =>
        if job.id ∈ scene.jobIds ∨ (scene.slot target.role).isSome then
          (.converged, (bindJob true job.id s).2)
        else if ¬ HasUsableOutput s job then (.retryable, s)
        else
          let index := index.getD (buildSceneCandidateIndex s)
          let (candidates, hasUnresolvablePoisonSibling) := index.forTarget target
          if hasUnresolvablePoisonSibling then (.ambiguous, s)
          else
            let usable := candidates.filter fun candidate => HasUsableOutput s candidate
            if (chooseWinner job usable).id ≠ job.id then (.converged, s)
            else match bindJob true job.id s with
              | (some _, s') => (.converged, s')
              | (none, s') => (outcomeAfter s'.stories target, s')

/-- What `converge_job` answers, with the outcome of the Story step if it came to one. -/
structure ConvergeReport where
  outcome : CompletionOutcome
  story : Option ReplayOutcome := none
  deriving DecidableEq, Repr

/-- The row with its completion marked. -/
def Shelves.markDone (s : Shelves) (job : JobRecord) : Shelves :=
  { s with jobs := s.jobs.insert job.id (.record { job with completionState := .done }) }

/-- `converge_job`: `batchRetryable` is the answer of `_reconcile_batch`. -/
def convergeJob (lib : Library) (id : JobId) (index : Option SceneCandidateIndex)
    (batchRetryable : Bool) (s : Shelves) : ConvergeReport × Shelves :=
  match s.jobs.lookup id with
  | none => ({ outcome := .safeNoop }, s)
  | some (.poison _ _) => ({ outcome := .unresolved }, s)
  | some (.record job) =>
    if !job.status.isTerminalStatus then ({ outcome := .safeNoop }, s)
    else if job.completionState = .done then ({ outcome := .safeNoop }, s)
    else if job.status ≠ .succeeded then
      if batchRetryable then ({ outcome := .retryableFailure, story := some .converged }, s)
      else ({ outcome := .done, story := some .converged }, s.markDone job)
    else match syncJob lib job s with
      | (.error _, s) => ({ outcome := .retryableFailure }, s)
      | (.ok (), s) =>
        match convergeSceneBinding job index s with
        | (.retryable, s) => ({ outcome := .retryableFailure, story := some .retryable }, s)
        | (.ambiguous, s) => ({ outcome := .unresolved, story := some .ambiguous }, s)
        | (.converged, s) =>
          if batchRetryable then ({ outcome := .retryableFailure, story := some .converged }, s)
          else ({ outcome := .done, story := some .converged }, s.markDone job)

/-! ## What a replay leaves alone -/

theorem job?_eq_some {s : Shelves} {id : JobId} {job : JobRecord} :
    s.job? id = some job ↔ s.jobs.lookup id = some (.record job) := by
  unfold Shelves.job?
  split <;> simp_all

/-- Binding a job changes the slot that its row's params name, at most. -/
theorem confined_bindJob {replay : Bool} {s : Shelves} {job : JobRecord} {target : Target}
    (hrow : s.job? job.id = some job) (h : Names job.request.params target) :
    Confined target s.stories (bindJob replay job.id s).2.stories := by
  simp only [bindJob, hrow]
  exact confined_bind h

/-- A convergence writes through a replay, or not at all. -/
theorem stories_convergeSceneBinding (job : JobRecord) (index : Option SceneCandidateIndex)
    (s : Shelves) :
    (convergeSceneBinding job index s).2.stories = s.stories ∨
      (convergeSceneBinding job index s).2.stories = (bindJob true job.id s).2.stories := by
  unfold convergeSceneBinding
  split
  · exact .inl rfl
  split
  · exact .inl rfl
  · exact .inl rfl
  split
  · exact .inl rfl
  split
  · exact .inr rfl
  split
  · exact .inl rfl
  simp only
  split
  · exact .inl rfl
  split
  · exact .inl rfl
  · split <;> next h => exact .inr (by rw [h])

theorem confined_convergeSceneBinding {s : Shelves} {job : JobRecord} {target : Target}
    {index : Option SceneCandidateIndex} (hrow : s.job? job.id = some job)
    (h : Names job.request.params target) :
    Confined target s.stories (convergeSceneBinding job index s).2.stories := by
  rcases stories_convergeSceneBinding job index s with heq | heq
  · rw [heq]
    exact .refl target s.stories
  · rw [heq]
    exact confined_bindJob hrow h

end CreativeStudio.Story
