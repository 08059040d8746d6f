import CreativeStudio.Jobs.Completion
import CreativeStudio.Jobs.Runner

/-!
# Startup recovery, and the running studio

`run_startup_recovery` runs before any worker or request. `studioSystem` is the whole: after
a crash only the recovery may start, while it runs only the subscribers it publishes to may,
and then everything may, on any number of threads.
-/

namespace CreativeStudio.Jobs
open Data Storage Batches Conc

namespace StartupRecovery
variable (env : Env)

/-- `_reconcile_quarantined_batch_child`. -/
def reconcileQuarantinedBatchChild (id : JobId) (e : Exc) : App Unit := do
  if ← CompletionConverger.reconcileQuarantinedChild env id then
    CompletionConverger.registerPoisonRetryCandidate id e

/-- Step 1: quarantine the rows that do not decode. -/
def quarantineFailures : List (JobId × Exc) → App Unit
  | [] => pure ()
  | (id, e) :: rest => do
    let outcome ← quarantineOrDeferForBatchCancellation id e
    if outcome.unsettled then CompletionConverger.registerPoisonRetryCandidate id e
    else if outcome.needsBatchConvergence then reconcileQuarantinedBatchChild env id e
    quarantineFailures rest

/-- Step 3: end the jobs whose worker is gone. -/
def resolveInterrupted : List JobRecord → App Unit
  | [] => pure ()
  | job :: rest => do
    if job.status ∈ interruptedJobStatuses then
      let _ ← JobRepository.transitionIfStatus job.id [.known job.status] (.known .failed)
        (some 1) (some (some processInterruptedReason))
    else if job.status = .cancelRequested then
      let _ ← JobRepository.transitionIfStatus job.id [.known .cancelRequested]
        (.known .cancelled) (some 1)
    resolveInterrupted rest

/-- The loop of step 4 over the pending jobs. -/
def convergeAll (index : BatchService.OwnershipIndex) : List JobRecord → App Unit
  | [] => pure ()
  | job :: rest => do
    let _ ← CompletionConverger.convergeJob env job.id (some index)
    convergeAll index rest

/-- Step 4: converge the completions that a crash interrupted. -/
def convergePending : App Unit := do
  let pending ← JobRepository.listTerminalPendingCompletion
  if pending.isEmpty then pure ()
  else
    let index ← CompletionConverger.buildIndexes pending
    convergeAll env index pending

/-- The loop of `_repair_assets_for_succeeded_jobs`. -/
def repairAssets : List JobRecord → App Unit
  | [] => pure ()
  | job :: rest => do
    if job.status = .succeeded then
      let _ ← (Prog.call (.syncJob job) : App ℕ).attempt
    repairAssets rest

/-- `_repair_assets_for_succeeded_jobs`. -/
def repairAssetsForSucceededJobs : App Unit := do
  let (records, _) ← JobRepository.listTolerant
  repairAssets records

/-- Step 6: hand the queued jobs to the queue again. -/
def requeue : List JobRecord → App Unit
  | [] => pure ()
  | job :: rest => do
    if job.status ≠ .queued then requeue rest
    else
      match ← (JobRepository.get job.id).attempt with
      | .ok (some fresh) =>
        if fresh.status ≠ .queued then requeue rest
        else
          let _ ← JobService.enqueueJob env job.id
          requeue rest
      | _ => requeue rest

/-- Step 6, unless some batch may be cancelling without having been read. -/
def requeueQueued (reliable : Bool) : App Unit := do
  if reliable then
    let (candidates, _) ← JobRepository.listTolerant
    requeue env candidates

/-- `run_startup_recovery`. -/
def runStartupRecovery : App Unit := do
  let (_, failures) ← JobRepository.listTolerant
  quarantineFailures env failures
  let _ ← JobRepository.listTolerant
  let reliable ← BatchService.resumePendingCancellations
  BatchService.resumeCurrentStageForAllBatches env
  let (records, _) ← JobRepository.listTolerant
  resolveInterrupted records
  convergePending env
  repairAssetsForSucceededJobs
  let _ ← BatchService.listBatchesTolerant
  requeueQueued env reliable

/-- The start of the process: recovery, and then service. -/
def start : App Unit := do
  Prog.exec (.enterPhase .recovering)
  runStartupRecovery env
  Prog.exec (.enterPhase .serving)

/-! ### Footprints -/

section Footprints
variable {kinds : List Kind}

/-- What startup recovery takes. -/
abbrev recoveryKinds : List Kind := .poison :: CompletionConverger.convergeKinds

theorem within_quarantineFailures (failures : List (JobId × Exc)) (h : recoveryKinds ⊆ kinds) :
    Within kinds (quarantineFailures env failures) := by
  have hchild : BatchService.childKinds ⊆ kinds := List.Subset.trans (by decide) h
  have hstage : BatchService.stageKinds ⊆ kinds := List.Subset.trans (by decide) h
  simp only [List.cons_subset] at h
  induction failures with
  | nil => exact within_ret _
  | cons failure rest ih =>
    simp [quarantineFailures, reconcileQuarantinedBatchChild, ih, hchild, h]

theorem within_resolveInterrupted (jobs : List JobRecord) (h : .update ∈ kinds) :
    Within kinds (resolveInterrupted jobs) := by
  have htransition {id : JobId} {status target : GenerationStatus}
      (reason : Option (Option String)) (hactive : ¬ status.isTerminalStatus)
      (htarget : target ≠ .queued) :
      Within kinds (JobRepository.transitionIfStatus id [.known status] (.known target)
        (some 1) reason) :=
    JobRepository.within_transitionIfStatus (JobService.lawfulEdit_of [status] (by simpa using hactive)
      htarget JobService.one_mem_range) h
  induction jobs with
  | nil => exact within_ret _
  | cons job rest ih =>
    cases hstatus : job.status <;> simp [resolveInterrupted, hstatus, interruptedJobStatuses,
      htransition, GenerationStatus.isTerminalStatus, GenerationStatus.terminalJobStatuses, ih]

theorem within_convergePending (h : CompletionConverger.convergeKinds ⊆ kinds) :
    Within kinds (convergePending env) := by
  have hall (index jobs) : Within kinds (convergeAll env index jobs) := by
    induction jobs with
    | nil => exact within_ret _
    | cons job rest ih => simp [convergeAll, ih, h]
  simp only [List.cons_subset] at h
  simp [convergePending, hall, h]

theorem within_repairAssetsForSucceededJobs (h : [.read, .sync] ⊆ kinds) :
    Within kinds repairAssetsForSucceededJobs := by
  simp only [List.cons_subset] at h
  have hall (jobs) : Within kinds (repairAssets jobs) := by
    induction jobs with
    | nil => exact within_ret _
    | cons job rest ih => simp [repairAssets, ih, h]
  simp [repairAssetsForSucceededJobs, hall, h]

theorem within_requeueQueued (reliable : Bool) (h : [.read, .enqueue] ⊆ kinds) :
    Within kinds (requeueQueued env reliable) := by
  simp only [List.cons_subset] at h
  have hall (jobs) : Within kinds (requeue env jobs) := by
    induction jobs with
    | nil => exact within_ret _
    | cons job rest ih =>
      simp [requeue, except_forall, Option.forall, ih, h]
  simp [requeueQueued, hall, h]

@[simp] theorem within_start (h : .phase :: recoveryKinds ⊆ kinds) :
    Within kinds (start env) := by
  have hquarantine (failures) : Within kinds (quarantineFailures env failures) :=
    within_quarantineFailures env failures (List.Subset.trans (by decide) h)
  have hresolve (jobs) : Within kinds (resolveInterrupted jobs) :=
    within_resolveInterrupted jobs (h (by decide))
  have hconverge : Within kinds (convergePending env) :=
    within_convergePending env (List.Subset.trans (by decide) h)
  have hrepair : Within kinds repairAssetsForSucceededJobs :=
    within_repairAssetsForSucceededJobs (List.Subset.trans (by decide) h)
  have hrequeue (reliable) : Within kinds (requeueQueued env reliable) :=
    within_requeueQueued env reliable (List.Subset.trans (by decide) h)
  simp only [List.cons_subset] at h
  simp [start, runStartupRecovery, hquarantine, hresolve, hconverge, hrepair, hrequeue, h]

end Footprints

end StartupRecovery

/-! ## The system -/

/-- What a subscriber of the event bus runs. -/
inductive SubscriberCall (env : Env) : App Unit → Prop
  | batch (id : JobId) : SubscriberCall env (BatchService.handleJobEvent env id)
  | completion (id : JobId) : SubscriberCall env (CompletionConverger.handleJobEvent env id)

/-- What requests and workers run while the studio serves. -/
inductive ServiceCall (env : Env) : App Unit → Prop
  | createJob (request : GenerationRequest) (projectId : Option String) :
      ServiceCall env (discard (JobService.createJob env request projectId))
  /-- A duplicate delivery of an id. -/
  | enqueueJob (id : JobId) : ServiceCall env (discard (JobService.enqueueJob env id))
  | cancelJob (id : JobId) : ServiceCall env (discard (JobService.cancelJob id))
  | runOnce (lane : Option String) : ServiceCall env (discard (JobRunner.runOnce lane))
  | processJob (id : JobId) : ServiceCall env (discard (JobRunner.processJob id))
  | createBatch (spec : BatchSpec) : ServiceCall env (discard (BatchService.createBatch env spec))
  | reconcile (id : BatchId) : ServiceCall env (discard (BatchService.reconcile id))
  | enqueueStage (id : BatchId) (stageIndex : ℕ) :
      ServiceCall env (discard (BatchService.enqueueStage env id stageIndex))
  | advance (id : BatchId) : ServiceCall env (discard (BatchService.advance env id))
  | promote (id : BatchId) (itemId : String) :
      ServiceCall env (discard (BatchService.promote id itemId))
  | cancelBatch (id : BatchId) : ServiceCall env (discard (BatchService.cancel id))
  | retryTick : ServiceCall env (CompletionConverger.retryTick env)

/-- Which calls may start in which phase. -/
def StudioCall (env : Env) (w : World) (p : App Unit) : Prop :=
  match w.phase with
  | .restarting => p = StartupRecovery.start env
  | .recovering => SubscriberCall env p
  | .serving => SubscriberCall env p ∨ ServiceCall env p

/-- The studio, started with the stores of `init`. -/
def studioSystem (env : Env) (init : World → Prop) : System Cmd World Exc where
  toMachine := studio env
  init := init
  calls _ w p := StudioCall env w p
  reset w w' := w' = w.crash

end CreativeStudio.Jobs
