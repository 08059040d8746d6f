import CreativeStudio.Batches.Expansion
import CreativeStudio.Conc.System
import CreativeStudio.Storage.Database
import Mathlib.Data.List.AList

/-!
# The shared state of the studio, and its atomic commands

The state that survives a crash is the jobs table and the batch files; the job queue, the
batch repository's lock and the retry candidates live in memory. One SQL statement, one
file read, one file replacement and one queue operation are one command each. Where
storage may fail, the failure is another outcome of the command.

`Attempt`, `claims`, `invoked` and `phase` are not in the program: they record what a
thread has been told, so that statements about runs can be written down.
-/

namespace CreativeStudio.Storage
open Data Jobs Batches Conc

/-- What the Story replay step of a completion answers. -/
inductive ReplayOutcome
  | converged | retryable | ambiguous
  deriving DecidableEq, Repr

/-- What reading one batch file gives: `unreadable` is a transient failure, `malformed`
content that does not validate. -/
inductive FileRead
  | missing | unreadable | malformed
  | record (record : BatchRecord)
  deriving DecidableEq, Repr

/-- What a generator does with the hooks it is given. A hook may raise, and the generator
decides what to do about it. -/
inductive GeneratorRun
  | returns (result : Except Exc GenerationResult)
  /-- `context.report_progress`. -/
  | report (fraction : ℚ) (rest : Except Exc Unit → GeneratorRun)
  /-- The `progress_callback` of a segmented generator. -/
  | reportSegment (fraction : ℚ) (rest : Except Exc Unit → GeneratorRun)
  /-- `context.is_cancelled`, which asks the in-memory registry first. -/
  | pollContext (rest : Except Exc Bool → GeneratorRun)
  /-- The `cancel_requested` of a segmented generator. -/
  | pollJob (rest : Except Exc Bool → GeneratorRun)

/-- What the program is configured with, and what its collaborators may answer. -/
structure Env where
  lib : Library
  maxItemsLimit : ℕ
  /-- Storage may fail at any command. -/
  faults : Bool
  /-- What `sync_job` and the Story replay may raise. -/
  raised : List Exc
  /-- What `validate_references` may raise. -/
  rejections : List Exc
  /-- What finding the generator of a request may raise. -/
  unsupported : List Exc
  /-- The runs of the generator that a job is handed to. -/
  generators : JobId → GenerationRequest → List GeneratorRun
  /-- `assign_lane` of a multi-lane configuration. -/
  assignLane : Option (MediaType → Option String → Except Exc String)

/-- Storage works, references are fine, and no generator runs. -/
def Env.plain : Env where
  lib := .plain
  maxItemsLimit := defaultItemLimit
  faults := false
  raised := []
  rejections := []
  unsupported := []
  generators _ _ := []
  assignLane := none

/-! ## The job queue -/

/-- `JobQueue`: the lanes, and the pending ids in order of arrival with the lane each is
in. The source keeps one deque for each lane and a map from ids to lanes; both are read
off this list. -/
structure JobQueue where
  lanes : List String := ["default"]
  pending : List (JobId × String) := []
  deriving DecidableEq, Repr

namespace JobQueue

/-- `_resolve_lane`. -/
def resolveLane (queue : JobQueue) : Option String → Except Exc String
  | none => match queue.lanes with
    | [lane] => .ok lane
    | _ => .error (.value "lane must be specified for a multi-lane JobQueue")
  | some lane =>
    if lane ∈ queue.lanes then .ok lane else .error (.value s!"Unknown lane {lane}")

/-- `enqueue`: idempotent in the same lane, refused in another. -/
def enqueue (queue : JobQueue) (id : JobId) (lane : Option String) : Except Exc JobQueue := do
  let target ← queue.resolveLane lane
  match queue.pending.lookup id with
  | some existing =>
    if existing = target then .ok queue
    else .error (.value s!"Job {id} is already queued in lane {existing}")
  | none => .ok { queue with pending := queue.pending ++ [(id, target)] }

/-- `dequeue`: the oldest id of the lane. -/
def dequeue (queue : JobQueue) (lane : Option String) : Except Exc (Option JobId × JobQueue) := do
  let target ← queue.resolveLane lane
  match queue.pending.find? fun entry => entry.2 == target with
  | some entry => .ok (some entry.1, { queue with pending := queue.pending.erase entry })
  | none => .ok (none, queue)

/-- The id is waiting in some lane. -/
def Holds (queue : JobQueue) (id : JobId) : Prop := id ∈ queue.pending.map Prod.fst

instance (queue : JobQueue) (id : JobId) : Decidable (queue.Holds id) :=
  inferInstanceAs (Decidable (id ∈ _))

end JobQueue

/-! ## The world -/

/-- Where the process is in its life: after a crash only startup recovery runs. -/
inductive Phase
  | restarting | recovering | serving
  deriving DecidableEq, Repr

/-- The phase that follows. -/
def Phase.next : Phase → Phase
  | .restarting => .recovering
  | .recovering | .serving => .serving

/-- What a thread has been told since its last completion attempt began. -/
structure Attempt where
  job : JobId := 0
  /-- The status the attempt found its job in. -/
  status : GenerationStatus := .queued
  /-- `sync_job` has returned. -/
  synced : Bool := false
  story : Option ReplayOutcome := none
  /-- The record that the attempt's own recompute produced. -/
  recomputed : Option BatchRecord := none
  /-- The ids handed to `JobQueue.enqueue`. -/
  handed : List JobId := []
  deriving DecidableEq, Repr

/-- An entry of the `CancellationRegistry`: which event object it holds, and whether it is
set. -/
structure Registration where
  token : ℕ
  requested : Bool := false
  deriving DecidableEq, Repr

structure World where
  jobs : AList (fun _ : JobId => JobRow)
  files : AList (fun _ : BatchId => Column BatchRecord)
  batchLock : Option Tid := none
  queue : JobQueue := {}
  /-- `_poison_retry_candidates`. -/
  poison : List (JobId × Exc) := []
  /-- `CancellationRegistry`, and how many event objects it has made. -/
  registry : AList (fun _ : JobId => Registration) := ∅
  tokens : ℕ := 0
  /-- The uuids drawn so far: the place of each is its value, and the thread drew it. -/
  uuids : List Tid := []
  clock : ℕ := 0
  phase : Phase := .restarting
  attempts : Tid → Attempt := fun _ => {}
  /-- The execution claims that have not been used: a thread moved the job from `queued`
  to `preparing`. -/
  claims : List (Tid × JobId) := []
  /-- The jobs a generator was invoked for. -/
  invoked : List JobId := []

/-- The atomic commands. -/
inductive Cmd : Type → Type
  | insertJob (id : JobId) (row : JobRow) : Cmd (Except Exc Unit)
  | selectJob (id : JobId) : Cmd (Except Exc (Option JobRow))
  /-- `SELECT ... FROM jobs ORDER BY created_at DESC`. -/
  | selectJobs : Cmd (Except Exc (List (JobId × JobRow)))
  | updateJob (id : JobId) (update : JobUpdate) : Cmd (Except Exc Bool)
  /-- `os.scandir` of the batch directory, latest written first: the order its callers
  sort the records in. -/
  | scanBatchFiles : Cmd (Except Exc (List BatchId))
  | readBatchFile (id : BatchId) : Cmd FileRead
  /-- `write_json_atomic`. -/
  | writeBatchFile (record : BatchRecord) : Cmd (Except Exc Unit)
  | acquireBatchLock : Cmd Unit
  | releaseBatchLock : Cmd Unit
  | enqueue (id : JobId) (lane : Option String) : Cmd (Except Exc Unit)
  | dequeue (lane : Option String) : Cmd (Except Exc (Option JobId))
  | poisonCandidates : Cmd (List (JobId × Exc))
  | setPoisonCandidates (candidates : List (JobId × Exc)) : Cmd Unit
  | uuid4 : Cmd ℕ
  | utcNow : Cmd ℕ
  | validateReferences (request : GenerationRequest) (projectId : Option String) :
      Cmd (Except Exc Unit)
  /-- `AssetRepository.sync_job`, which returns the assets it wrote. -/
  | syncJob (job : JobRecord) : Cmd (Except Exc ℕ)
  /-- `converge_scene_binding`. -/
  | convergeScene (job : JobRecord) : Cmd (Except Exc ReplayOutcome)
  /-- `CancellationRegistry.begin`, which hands out the event of the entry. -/
  | registryBegin (id : JobId) : Cmd ℕ
  /-- `CancellationRegistry.request_cancel`. -/
  | registryRequestCancel (id : JobId) : Cmd Unit
  /-- `CancellationRegistry.is_cancelled`. -/
  | registryCancelled (id : JobId) : Cmd Bool
  /-- `CancellationRegistry.end`. -/
  | registryEnd (id : JobId) (token : ℕ) : Cmd Unit
  /-- `stop_event.is_set`, which may answer either way. -/
  | stopRequested : Cmd Bool
  /-- `GeneratorRegistry.get`. -/
  | findGenerator (mediaType : MediaType) (request : GenerationRequest) : Cmd (Except Exc Unit)
  /-- `run` or `run_with_control` of the generator. -/
  | generate (id : JobId) (request : GenerationRequest) : Cmd GeneratorRun
  | beginAttempt (id : JobId) : Cmd Unit
  | noteStatus (status : GenerationStatus) : Cmd Unit
  | noteRecomputed (record : BatchRecord) : Cmd Unit
  | enterPhase (phase : Phase) : Cmd Unit

namespace World

/-- The row of a job. -/
def row? (w : World) (id : JobId) : Option JobRow := w.jobs.lookup id

/-- What a batch file holds. -/
def file? (w : World) (id : BatchId) : Option (Column BatchRecord) := w.files.lookup id

/-- Rows by `created_at`, latest first. -/
def latestFirst (a b : JobId × JobRow) : Prop := b.2.createdAt.order ≤ a.2.createdAt.order

instance : DecidableRel latestFirst := fun a b => by unfold latestFirst; infer_instance

/-- All rows, as a `SELECT` returns them. -/
def rows (w : World) : List (JobId × JobRow) :=
  (w.jobs.entries.map fun entry => (entry.1, entry.2)).insertionSort latestFirst

/-- What the thread has been told changes. -/
def attempt (w : World) (t : Tid) (f : Attempt → Attempt) : World :=
  { w with attempts := Function.update w.attempts t (f (w.attempts t)) }

/-- The row replaced by an `UPDATE`; moving it from `queued` to `preparing` is an
execution claim of the thread. -/
def replaceRow (w : World) (t : Tid) (id : JobId) (old new : JobRow) : World :=
  { w with
    jobs := w.jobs.insert id new
    clock := w.clock + 1
    claims := if old.status = .known .queued ∧ new.status = .known .preparing then
      (t, id) :: w.claims else w.claims }

/-- The process dies: what lives in memory is gone, and startup recovery comes next. -/
def crash (w : World) : World :=
  { w with
    batchLock := none
    queue := { lanes := w.queue.lanes }
    poison := []
    registry := ∅
    claims := []
    phase := .restarting }

end World

/-- The outcomes of a command that storage may fail. -/
def fallible (env : Env) (w : World) (outcomes : List (Except Exc α × World)) :
    List (Except Exc α × World) :=
  if env.faults then outcomes ++ [(.error .storage, w)] else outcomes

/-- What one command does. -/
def step (env : Env) (t : Tid) : Cmd α → World → List (α × World)
  | .insertJob id row, w => fallible env w
    (match w.row? id with
    | some _ => [(.error .integrity, w)]
    | none => [(.ok (), { w with jobs := w.jobs.insert id row })])
  | .selectJob id, w => fallible env w [(.ok (w.row? id), w)]
  | .selectJobs, w => fallible env w [(.ok w.rows, w)]
  | .updateJob id update, w => fallible env w
    (match w.row? id with
    | none => [(.ok false, w)]
    | some row => match update.run w.clock row with
      | none => [(.ok false, w)]
      | some new => [(.ok true, w.replaceRow t id row new)])
  | .scanBatchFiles, w => fallible env w [(.ok w.files.keys, w)]
  | .readBatchFile id, w =>
    (match w.file? id with
    | none => (.missing, w)
    | some .malformed => (.malformed, w)
    | some (.value record) => (.record record, w)) ::
      if env.faults then [(.unreadable, w)] else []
  | .writeBatchFile record, w => fallible env w
    [(.ok (), { w with files := w.files.insert record.id (.value record.saved) })]
  | .acquireBatchLock, w => match w.batchLock with
    | some _ => []
    | none => [((), { w with batchLock := some t })]
  | .releaseBatchLock, w => [((), { w with batchLock := none })]
  | .enqueue id lane, w => match w.queue.enqueue id lane with
    | .error e => [(.error e, w)]
    | .ok queue => [(.ok (), { w.attempt t fun a => { a with handed := id :: a.handed } with queue })]
  | .dequeue lane, w => match w.queue.dequeue lane with
    | .error e => [(.error e, w)]
    | .ok (id, queue) => [(.ok id, { w with queue })]
  | .poisonCandidates, w => [(w.poison, w)]
  | .setPoisonCandidates candidates, w => [((), { w with poison := candidates })]
  | .uuid4, w => [(w.uuids.length, { w with uuids := w.uuids ++ [t] })]
  | .utcNow, w => [(w.clock, { w with clock := w.clock + 1 })]
  | .validateReferences _ _, w => (.ok (), w) :: env.rejections.map fun e => (.error e, w)
  | .syncJob job, w => fallible env w ((.ok (job.result.elim 0 fun r => r.outputs.length),
      w.attempt t fun a => { a with synced := true }) :: env.raised.map fun e => (.error e, w))
  | .convergeScene _, w =>
    ([.converged, .retryable, .ambiguous].map fun outcome =>
      (.ok outcome, w.attempt t fun a => { a with story := some outcome })) ++
      env.raised.map fun e => (.error e, w)
  | .registryBegin id, w => match w.registry.lookup id with
    | some entry => [(entry.token, w)]
    | none => [(w.tokens, { w with
        registry := w.registry.insert id { token := w.tokens }
        tokens := w.tokens + 1 })]
  | .registryRequestCancel id, w => match w.registry.lookup id with
    | some entry => [((), { w with registry := w.registry.insert id { entry with requested := true } })]
    | none => [((), w)]
  | .registryCancelled id, w => [((w.registry.lookup id).any Registration.requested, w)]
  | .registryEnd id token, w =>
    if (w.registry.lookup id).any fun entry => entry.token == token then
      [((), { w with registry := w.registry.erase id })]
    else [((), w)]
  | .stopRequested, w => [(false, w), (true, w)]
  | .findGenerator _ _, w => (.ok (), w) :: env.unsupported.map fun e => (.error e, w)
  | .generate id request, w => (env.generators id request).map fun run =>
    (run, { w with
      claims := w.claims.erase (t, id)
      invoked := id :: w.invoked })
  | .beginAttempt id, w => [((), w.attempt t fun _ => { job := id })]
  | .noteStatus status, w => [((), w.attempt t fun a => { a with status })]
  | .noteRecomputed record, w => [((), w.attempt t fun a => { a with recomputed := some record })]
  | .enterPhase phase, w => if phase = w.phase.next then [((), { w with phase })] else []

/-- The machine of the studio. -/
abbrev studio (env : Env) : Machine Cmd World where
  step t c w := step env t c w

theorem studio_step (env : Env) (t : Tid) (c : Cmd α) (w : World) :
    (studio env).step t c w = step env t c w := rfl

/-- A program of the studio. -/
abbrev App (α : Type) := Prog Cmd Exc α

end CreativeStudio.Storage
