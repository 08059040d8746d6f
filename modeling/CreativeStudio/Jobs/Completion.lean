import CreativeStudio.Batches.Service

/-!
# Completion convergence

What has to happen after a job has ended: its assets, its story scene and its batch. A job
is marked `done` once all of it has been applied, and is never looked at again. Rows that
do not decode are quarantined by their raw status, here and at startup.
-/

namespace CreativeStudio.Jobs
open Data Storage Batches Conc

/-- `INTERRUPTED_JOB_STATUSES`. -/
def interruptedJobStatuses : List GenerationStatus := [.preparing, .running, .postprocessing]

/-- `PROCESS_INTERRUPTED_REASON`. -/
def processInterruptedReason : String :=
  "process_interrupted: job was still active when the process restarted; " ++
    "the worker that owned it is confirmed gone."

/-! ## Quarantine of rows that do not decode -/

/-- What the quarantine of one row comes to. -/
inductive PoisonRowOutcome
  | missing | cancelled | failed | alreadyResolved | leftUntouchedTerminal
  | quarantinedInvalidStatus | transientWriteFailure | batchCancellationUncertain
  deriving DecidableEq, Repr

/-- `QUARANTINE_OUTCOMES_NEEDING_BATCH_CONVERGENCE`. -/
def PoisonRowOutcome.needsBatchConvergence : PoisonRowOutcome → Bool
  | .cancelled | .failed | .alreadyResolved | .leftUntouchedTerminal
  | .quarantinedInvalidStatus => true
  | .missing | .transientWriteFailure | .batchCancellationUncertain => false

/-- The row is to be looked at again. -/
def PoisonRowOutcome.unsettled : PoisonRowOutcome → Bool
  | .transientWriteFailure | .batchCancellationUncertain => true
  | _ => false

/-- The message that a quarantined row is given. -/
def poisonReason (e : Exc) : String :=
  s!"Startup recovery: row could not be reconstructed: {e.text}"

/-- The body of `quarantine_poison_row_safely`. -/
def quarantinePoisonRow (id : JobId) (e : Exc) : App PoisonRowOutcome := do
  let reason := some (some (poisonReason e))
  match ← JobRepository.getRawStatus id with
  | none => pure .missing
  | some (.known .cancelRequested) =>
    let ok ← JobRepository.transitionIfStatus id [.known .cancelRequested] (.known .cancelled)
      (some 1) reason
    pure (if ok then .cancelled else .alreadyResolved)
  | some (.known status) =>
    if status ∈ interruptedJobStatuses ∨ status = .queued then
      let ok ← JobRepository.transitionIfStatus id [.known status] (.known .failed) (some 1) reason
      pure (if ok then .failed else .alreadyResolved)
    else pure .leftUntouchedTerminal
  | some (.unknown _) =>
    let ok ← JobRepository.quarantineStructurallyInvalidStatus id (poisonReason e)
    pure (if ok then .quarantinedInvalidStatus else .alreadyResolved)

/-- `quarantine_poison_row_safely`. -/
def quarantinePoisonRowSafely (id : JobId) (e : Exc) : App PoisonRowOutcome :=
  (quarantinePoisonRow id e).orElse fun _ => pure .transientWriteFailure

/-- The part of `quarantine_or_defer_for_batch_cancellation` that asks the batch of a
queued row; `none` leaves the row to the generic quarantine. -/
def deferToBatch (id : JobId) (e : Exc) : App (Option PoisonRowOutcome) := do
  if (← JobRepository.getRawStatus id) = some (.known .queued) then
    match ← BatchService.diagnoseAndTransitionCancelledPoisonChild id (poisonReason e) with
    | .uncertain => pure (some .batchCancellationUncertain)
    | .cancelled => pure (some .cancelled)
    | .failed => pure (some .failed)
    | .alreadyResolved => pure (some .alreadyResolved)
    | .noParent => pure none
  else pure none

/-- `quarantine_or_defer_for_batch_cancellation`. -/
def quarantineOrDeferForBatchCancellation (id : JobId) (e : Exc) : App PoisonRowOutcome := do
  match ← (deferToBatch id e).attempt with
  | .error _ => pure .transientWriteFailure
  | .ok (some outcome) => pure outcome
  | .ok none => quarantinePoisonRowSafely id e

/-! ## Convergence of one job -/

/-- `CompletionOutcome`. -/
inductive CompletionOutcome
  | done | safeNoop | retryableFailure | unresolved
  deriving DecidableEq, Repr

namespace CompletionConverger
variable (env : Env)

/-- `_converge_story`. -/
def convergeStory (job : JobRecord) : App ReplayOutcome := Prog.call (.convergeScene job)

/-- `_reconcile_batch`: whether it has to be tried again. A reliable index that does not
have the job saves the scan. -/
def reconcileBatch (id : JobId) (index : Option BatchService.OwnershipIndex) : App Bool := do
  if index.any fun index => index.2 && !index.1.contains id then pure false
  else
    let (_, outcome) ← BatchService.reconcileChildJob env id
    pure (outcome == .retryableFailure)

/-- The effects of a terminal job: its Story outcome, and whether its batch has to be tried
again. -/
def applyEffects (job : JobRecord) (index : Option BatchService.OwnershipIndex) :
    App (ReplayOutcome × Bool) := do
  let story ← if job.status = .succeeded then do
      let _ ← Prog.call (.syncJob job)
      convergeStory job
    else pure .converged
  let retryable ← reconcileBatch env job.id index
  pure (story, retryable)

/-- The end of `converge_job`: mark the job, or record why it could not be marked. -/
def settle (id : JobId) : ReplayOutcome × Bool → App CompletionOutcome
  | (.retryable, _) => do
    let _ ← JobRepository.markCompletionPendingWithError id
      "Story replay precondition not met yet (no Asset for this job); will retry."
    pure .retryableFailure
  | (.ambiguous, _) => do
    let _ ← JobRepository.markCompletionPendingWithError id
      "Story replay outcome is ambiguous; needs investigation."
    pure .unresolved
  | (.converged, true) => do
    let _ ← JobRepository.markCompletionPendingWithError id
      "Owning Batch could not be reconciled right now (transient storage failure); will retry."
    pure .retryableFailure
  | (.converged, false) => do
    let _ ← JobRepository.markCompletionDone id
    pure .done

/-- `converge_job`. -/
def convergeJob (id : JobId) (index : Option BatchService.OwnershipIndex) :
    App CompletionOutcome := do
  Prog.exec (.beginAttempt id)
  match ← (JobRepository.get id).attempt with
  | .error _ => pure .unresolved
  | .ok none => pure .safeNoop
  | .ok (some job) =>
    if !job.status.isTerminalStatus then pure .safeNoop
    else if job.completionState = .done then pure .safeNoop
    else
      Prog.exec (.noteStatus job.status)
      match ← (applyEffects env job index).attempt with
      | .error e =>
        let _ ← JobRepository.markCompletionPendingWithError id e.text
        pure .retryableFailure
      | .ok effects => settle id effects

/-- `handle_job_event` of the converger. -/
def handleJobEvent (id : JobId) : App Unit := do
  let _ ← convergeJob env id none

/-! ## The retry loop -/

/-- `build_scene_candidate_index`: it reads the jobs, and its answer only reaches the Story
step. -/
def buildSceneCandidateIndex : App Unit := do
  let _ ← JobRepository.listTolerant

/-- `build_batch_ownership_index`. -/
def buildBatchOwnershipIndex : App BatchService.OwnershipIndex :=
  BatchService.buildJobOwnershipIndex

/-- The indexes that one pass over pending jobs shares. -/
def buildIndexes (pending : List JobRecord) : App BatchService.OwnershipIndex := do
  if pending.any fun job => job.status == .succeeded then buildSceneCandidateIndex
  buildBatchOwnershipIndex

/-- The loop over the pending jobs of one tick. -/
def convergePending (index : BatchService.OwnershipIndex) : List JobRecord → App Unit
  | [] => pure ()
  | job :: rest => do
    if ← Prog.exec .stopRequested then pure ()
    else
      let _ ← convergeJob env job.id (some index)
      convergePending index rest

/-- `_authorize_recovered_queued_job`. -/
def authorizeRecoveredQueuedJob (id : JobId) : App Exposure := do
  let outcome ← BatchService.authorizeRecoveredQueuedJob env id .queued
  if outcome = .cancelled then
    let _ ← JobService.cancelJob id
  pure outcome

/-- `_resolve_repaired_job`: whether it has to be tried again. -/
def resolveRepairedJob (id : JobId) (status : GenerationStatus) : App Bool := do
  if status = .queued then
    let outcome ← authorizeRecoveredQueuedJob env id
    pure (outcome == .uncertain)
  else if status ∈ interruptedJobStatuses then
    let ok ← JobRepository.transitionIfStatus id [.known status] (.known .failed) (some 1)
      (some (some processInterruptedReason))
    pure !ok
  else if status = .cancelRequested then
    let ok ← JobRepository.transitionIfStatus id [.known .cancelRequested] (.known .cancelled)
      (some 1)
    pure !ok
  else pure false

/-- Reconcile the batch of a quarantined child; whether it has to be tried again. -/
def reconcileQuarantinedChild (id : JobId) : App Bool := do
  match ← (BatchService.reconcileChildJob env id).attempt with
  | .ok (_, outcome) => pure (outcome == .retryableFailure)
  | .error _ => pure true

/-- What `_retry_poison_quarantine_candidates` does with one candidate: whether it stays
one. -/
def retryPoisonCandidate (id : JobId) (e : Exc) : App Bool := do
  match ← (JobRepository.get id).attempt with
  | .error (.decode _) =>
    let outcome ← quarantineOrDeferForBatchCancellation id e
    if outcome.unsettled then pure true
    else if outcome.needsBatchConvergence then reconcileQuarantinedChild env id
    else pure false
  | .error _ => pure true
  | .ok none => pure false
  | .ok (some repaired) => resolveRepairedJob env id repaired.status

/-- The loop of `_retry_poison_quarantine_candidates`: the candidates that stay. -/
def retryPoisonCandidates : List (JobId × Exc) → App (List (JobId × Exc))
  | [] => pure []
  | (id, e) :: rest => do
    let stays ← retryPoisonCandidate env id e
    let others ← retryPoisonCandidates rest
    pure (if stays then (id, e) :: others else others)

/-- `_retry_poison_quarantine_candidates`. -/
def retryPoisonQuarantineCandidates : App Unit := do
  let candidates ← Prog.exec .poisonCandidates
  let stillPending ← retryPoisonCandidates env candidates
  Prog.exec (.setPoisonCandidates stillPending)

/-- One pass over the pending jobs in `run_retry_loop`. -/
def retryPending : App Unit := do
  let pending ← JobRepository.listTerminalPendingCompletion
  if pending.isEmpty then pure ()
  else
    let index ← buildIndexes pending
    convergePending env index pending

/-- One iteration of `run_retry_loop`. -/
def retryTick : App Unit := do
  let _ ← (retryPending env).attempt
  let _ ← (retryPoisonQuarantineCandidates env).attempt

/-- `register_poison_retry_candidate`. -/
def registerPoisonRetryCandidate (id : JobId) (e : Exc) : App Unit := do
  let candidates ← Prog.exec .poisonCandidates
  Prog.exec (.setPoisonCandidates ((candidates.filter fun entry => entry.1 != id) ++ [(id, e)]))

/-! ### Footprints -/

section Footprints
variable {kinds : List Kind}

theorem within_quarantinePoisonRow (id : JobId) (e : Exc) (h : [.read, .update] ⊆ kinds) :
    Within kinds (quarantinePoisonRow id e) := by
  have htransition {status target : GenerationStatus} (reason : Option (Option String))
      (hactive : ¬ status.isTerminalStatus) (htarget : target ≠ .queued) :
      Within kinds (JobRepository.transitionIfStatus id [.known status] (.known target)
        (some 1) reason) :=
    JobRepository.within_transitionIfStatus (JobService.lawfulEdit_of [status] (by simpa using hactive)
      htarget JobService.one_mem_range) (h (by decide))
  simp only [List.cons_subset] at h
  unfold quarantinePoisonRow
  rw [within_bind]
  refine ⟨JobRepository.within_getRawStatus id h.1, fun raw _ => ?_⟩
  match raw with
  | none => exact within_ret _
  | some (.unknown _) => simp [h]
  | some (.known status) =>
    cases status <;> simp [interruptedJobStatuses, htransition, GenerationStatus.isTerminalStatus,
      GenerationStatus.terminalJobStatuses]

@[simp] theorem within_quarantineOrDeferForBatchCancellation (id : JobId) (e : Exc)
    (h : [.read, .update, .lock] ⊆ kinds) :
    Within kinds (quarantineOrDeferForBatchCancellation id e) := by
  have hrow : Within kinds (quarantinePoisonRow id e) :=
    within_quarantinePoisonRow id e (List.Subset.trans (by decide) h)
  simp only [List.cons_subset] at h
  have hbatch : Within kinds (deferToBatch id e) := by
    unfold deferToBatch
    rw [within_bind]
    refine ⟨JobRepository.within_getRawStatus id h.1, fun raw _ => ?_⟩
    rw [within_ite, within_bind]
    refine ⟨fun _ => ⟨?_, fun outcome _ => by cases outcome <;> exact within_ret _⟩,
      fun _ => within_ret _⟩
    exact BatchService.within_diagnoseAndTransitionCancelledPoisonChild _ _ (by simp [h])
  simp [quarantineOrDeferForBatchCancellation, quarantinePoisonRowSafely, except_forall,
    Option.forall, hbatch, hrow]

/-- What one attempt to converge a job takes. -/
abbrev convergeKinds : List Kind := .sync :: .replay :: .markDone :: BatchService.childKinds

@[simp] theorem within_reconcileBatch (id : JobId) (index : Option BatchService.OwnershipIndex)
    (h : BatchService.childKinds ⊆ kinds) : Within kinds (reconcileBatch env id index) := by
  simp [reconcileBatch, h]

theorem within_settle (id : JobId) (effects : ReplayOutcome × Bool)
    (h : [.update, .markDone] ⊆ kinds) : Within kinds (settle id effects) := by
  simp only [List.cons_subset] at h
  match effects with
  | (.retryable, _) | (.ambiguous, _) | (.converged, true) | (.converged, false) =>
    simp [settle, h]

@[simp] theorem within_convergeJob (id : JobId) (index : Option BatchService.OwnershipIndex)
    (h : convergeKinds ⊆ kinds) : Within kinds (convergeJob env id index) := by
  have hsettle (effects) : Within kinds (settle id effects) :=
    within_settle id effects (List.Subset.trans (by decide) h)
  simp only [List.cons_subset] at h
  simp [convergeJob, applyEffects, convergeStory, except_forall, Option.forall, hsettle, h]

@[simp] theorem within_handleJobEvent (id : JobId) (h : convergeKinds ⊆ kinds) :
    Within kinds (handleJobEvent env id) :=
  within_discard.mpr (within_convergeJob env id none h)

@[simp] theorem within_buildIndexes (pending : List JobRecord) (h : .read ∈ kinds) :
    Within kinds (buildIndexes pending) := by
  simp [buildIndexes, buildSceneCandidateIndex, buildBatchOwnershipIndex, h]

theorem within_convergePending (index : BatchService.OwnershipIndex) (jobs : List JobRecord)
    (h : convergeKinds ⊆ kinds) : Within kinds (convergePending env index jobs) := by
  have hread : .read ∈ kinds := h (by decide)
  induction jobs with
  | nil => exact within_ret _
  | cons job rest ih => simp [convergePending, ih, h, hread]

@[simp] theorem within_resolveRepairedJob (id : JobId) (status : GenerationStatus)
    (h : [.read, .update, .lock, .enqueue] ⊆ kinds) :
    Within kinds (resolveRepairedJob env id status) := by
  have htransition {status target : GenerationStatus} (reason : Option (Option String))
      (hactive : ¬ status.isTerminalStatus) (htarget : target ≠ .queued) :
      Within kinds (JobRepository.transitionIfStatus id [.known status] (.known target)
        (some 1) reason) :=
    JobRepository.within_transitionIfStatus (JobService.lawfulEdit_of [status] (by simpa using hactive)
      htarget JobService.one_mem_range) (h (by decide))
  simp only [List.cons_subset] at h
  cases status <;> simp [resolveRepairedJob, authorizeRecoveredQueuedJob, interruptedJobStatuses,
    htransition, GenerationStatus.isTerminalStatus, GenerationStatus.terminalJobStatuses, h]

@[simp] theorem within_reconcileQuarantinedChild (id : JobId)
    (h : BatchService.childKinds ⊆ kinds) : Within kinds (reconcileQuarantinedChild env id) := by
  simp [reconcileQuarantinedChild, except_forall, h]

@[simp] theorem within_retryPoisonCandidate (id : JobId) (e : Exc)
    (h : BatchService.childKinds ⊆ kinds) : Within kinds (retryPoisonCandidate env id e) := by
  have hchild : Within kinds (reconcileQuarantinedChild env id) :=
    within_reconcileQuarantinedChild env id h
  simp only [List.cons_subset] at h
  unfold retryPoisonCandidate
  rw [within_bind, within_attempt]
  refine ⟨JobRepository.within_get id (by simp [h]), fun outcome _ => ?_⟩
  match outcome with
  | .ok none | .ok (some _) => simp [h]
  | .error e' => cases e' <;> simp [hchild, h]

@[simp] theorem within_retryPoisonQuarantineCandidates
    (h : .poison :: BatchService.childKinds ⊆ kinds) :
    Within kinds (retryPoisonQuarantineCandidates env) := by
  have hall (candidates) : Within kinds (retryPoisonCandidates env candidates) := by
    induction candidates with
    | nil => exact within_ret _
    | cons candidate rest ih =>
      simp [retryPoisonCandidates, ih, List.Subset.trans (List.subset_cons_self _ _) h]
  simp only [List.cons_subset] at h
  simp [retryPoisonQuarantineCandidates, hall, h]

@[simp] theorem within_retryTick (h : .poison :: convergeKinds ⊆ kinds) :
    Within kinds (retryTick env) := by
  have hconverge (index jobs) : Within kinds (convergePending env index jobs) :=
    within_convergePending env index jobs (List.Subset.trans (by decide) h)
  have hpoison : Within kinds (retryPoisonQuarantineCandidates env) :=
    within_retryPoisonQuarantineCandidates env (List.Subset.trans (by decide) h)
  simp only [List.cons_subset] at h
  simp [retryTick, retryPending, hconverge, hpoison, h]

@[simp] theorem within_registerPoisonRetryCandidate (id : JobId) (e : Exc)
    (h : [.read, .poison] ⊆ kinds) : Within kinds (registerPoisonRetryCandidate id e) := by
  simp only [List.cons_subset] at h
  simp [registerPoisonRetryCandidate, h]

end Footprints

end CompletionConverger

end CreativeStudio.Jobs
