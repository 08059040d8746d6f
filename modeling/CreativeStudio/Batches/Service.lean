import CreativeStudio.Batches.Repository
import CreativeStudio.Jobs.Service

/-!
# The batch service

Creating a batch, giving the items of a stage their jobs, following the jobs, advancing
and cancelling. A child job comes into being in steps that a crash can separate: its id is
written into the batch file, its row is inserted, and it is handed to the queue under the
batch lock.
-/

namespace CreativeStudio.Batches
open Data Jobs Storage Conc

/-- What the decision to expose a child job comes to. -/
inductive Exposure
  | unreadable | absent | cancelled | notQueued | enqueued | uncertain
  deriving DecidableEq, Repr

/-- How the walk over the items of a stage ends. -/
inductive StageWalk
  | completed
  /-- The batch is being cancelled, or gone. -/
  | stopped
  /-- The batch could not be read. -/
  | incomplete
  deriving DecidableEq, Repr

/-- `BatchReconciliationOutcome`. -/
inductive ReconciliationOutcome
  | noParent | reconciled | retryableFailure
  deriving DecidableEq, Repr

/-- What a cancelled or quarantined child comes to. -/
inductive PoisonChildOutcome
  | uncertain | noParent | alreadyResolved | cancelled | failed
  deriving DecidableEq, Repr

/-- `_MATERIALIZATION_FAILURE_PREFIX`. -/
def materializationFailurePrefix : String := "Stage materialization failed (resumable): "

/-- `_STARTUP_BATCH_SCAN_MAX_ATTEMPTS`. -/
def startupBatchScanMaxAttempts : ℕ := 3

/-- The errors that no retry of a stage can clear. -/
def isPermanentStageFailure : Exc → Bool
  | .reference _ | .value _ => true
  | _ => false

namespace BatchService
variable (env : Env)

/-- A change of an existing record, for `mutate`. -/
def onRecord (f : BatchRecord → App BatchRecord) : Option BatchRecord → App (Option BatchRecord)
  | none => pure none
  | some record => some <$> f record

/-! ## Following the jobs -/

/-- What `_recompute` reads of one child. -/
def readChild (job : JobId) : App ChildRow := do
  match ← (JobRepository.get job).attempt with
  | .ok none => pure .missing
  | .ok (some record) => pure (.record record)
  | .error (.decode _) =>
    let rawStatus ← JobRepository.getRawStatus job
    if rawStatus = some (.known .failed) ∨ rawStatus = some (.known .cancelled) then
      let rawErrorMessage ← JobRepository.getRawErrorMessage job
      pure (.undecodable rawStatus rawErrorMessage)
    else pure (.undecodable rawStatus none)
  | .error e => throw e

/-- The loop of `_recompute`. -/
def recomputeItems : List BatchItem → App (List BatchItem)
  | [] => pure []
  | item :: rest => do
    let item ← match item.jobId with
      | none => pure item
      | some job => recomputeItem item <$> readChild job
    let rest ← recomputeItems rest
    pure (item :: rest)

/-- `_recompute`. -/
def recompute (record : BatchRecord) : App BatchRecord := do
  let items ← recomputeItems record.items
  pure (rollUp record items)

/-- `reconcile`, and `get_batch`. -/
def reconcile (id : BatchId) : App (Option BatchRecord) :=
  BatchRepository.mutate id (onRecord recompute)

/-! ## Materialising a stage -/

/-- The loop of `_assign_ids`. -/
def assignItems (stageIndex : ℕ) : List BatchItem → App (List BatchItem)
  | [] => pure []
  | item :: rest => do
    let item ← if item.NeedsId stageIndex then do
        let job ← Prog.exec .uuid4
        pure { item with jobId := some job }
      else pure item
    let rest ← assignItems stageIndex rest
    pure (item :: rest)

/-- `_assign_ids`. -/
def assignIds (stageIndex : ℕ) (record : BatchRecord) : App BatchRecord := do
  if record.cancellationRequested then pure record
  else
    let items ← assignItems stageIndex record.items
    pure { record with items }

/-- `_authorize_and_expose`. -/
def authorizeAndExpose (batch : BatchId) (job : JobId) (jobStatus : GenerationStatus) :
    App Exposure :=
  BatchRepository.runExclusive do
    match ← BatchRepository.getOrDiagnose batch with
    | (none, uncertain) => pure (if uncertain then .unreadable else .absent)
    | (some record, _) =>
      if record.cancellationRequested then pure .cancelled
      else if jobStatus ≠ .queued then pure .notQueued
      else
        let _ ← JobService.enqueueJob env job
        pure .enqueued

/-- The loop of `_enqueue_stage` over the items of the stage. -/
def exposeItems (batch : BatchId) (projectId : Option String) : List BatchItem → App StageWalk
  | [] => pure .completed
  | item :: rest =>
    match item.jobId with
    | none => exposeItems batch projectId rest
    | some job => do
      if item.isTerminal then exposeItems batch projectId rest
      else
        match ← BatchRepository.get batch with
        | none => pure .incomplete
        | some current =>
          if current.cancellationRequested then pure .stopped
          else
            match ← (JobService.createOrReuseJobWithoutEnqueue job item.request projectId).attempt
              with
            -- a row that cannot be read is left for a later retry
            | .error (.decode _) => exposeItems batch projectId rest
            | .error e => throw e
            | .ok (created, _) =>
              match ← authorizeAndExpose env batch created.id created.status with
              | .cancelled | .absent =>
                if !created.status.isTerminalStatus then
                  let _ ← JobService.cancelJob created.id
                pure .stopped
              | .unreadable => pure .incomplete
              | .notQueued | .enqueued | .uncertain => exposeItems batch projectId rest

/-- `_clear_stale_materialization_failure`. -/
def clearStaleMaterializationFailure (id : BatchId) : App Unit := do
  let _ ← BatchRepository.mutate id (onRecord fun record => pure
    (if record.advanceError.any fun text => text.startsWith materializationFailurePrefix then
      { record with advanceError := none } else record))

/-- `_enqueue_stage`. -/
def enqueueStage (id : BatchId) (stageIndex : ℕ) : App (Option BatchRecord) := do
  match ← BatchRepository.mutate id (onRecord (assignIds stageIndex)) with
  | none => pure none
  | some record =>
    if record.cancellationRequested then pure (some record)
    else
      let walk ← exposeItems env id record.spec.projectId (record.itemsForStage stageIndex)
      if walk = .completed then clearStaleMaterializationFailure id
      let reconciled ← reconcile id
      pure (if walk = .incomplete then none else reconciled)

/-! ## Creating and advancing -/

/-- The attempts of `create_batch` to materialise the first stage. -/
def createAttempts (id : BatchId) : ℕ → App BatchRecord
  | 0 => do
    let _ ← BatchRepository.get id
    throw (.stageMaterialization id)
  | attempts + 1 => do
    match ← (enqueueStage env id 0).attempt with
    | .ok (some enqueued) => pure enqueued
    | .ok none =>
      let _ ← BatchRepository.get id
      createAttempts id attempts
    | .error e =>
      if isPermanentStageFailure e then throw e
      else
        let _ ← BatchRepository.get id
        createAttempts id attempts

/-- `create_batch`. -/
def createBatch (spec : BatchSpec) : App BatchRecord := do
  let id ← Prog.exec .uuid4
  let record ← newRecord env.lib JobService.validateReferences env.maxItemsLimit spec id
  let record ← BatchRepository.create record
  createAttempts env record.id startupBatchScanMaxAttempts

/-- `_recompute_and_advance_raising`. -/
def recomputeAndAdvanceRaising (record : BatchRecord) : App BatchRecord := do
  let record ← recompute record
  tryAdvanceInPlace env.lib JobService.validateReferences record

/-- `_recompute_and_advance_capturing`: a reference that is rejected fails the batch. -/
def recomputeAndAdvanceCapturing (record : BatchRecord) : App BatchRecord := do
  let record ← recompute record
  match ← (tryAdvanceInPlace env.lib JobService.validateReferences record).attempt with
  | .ok advanced => pure advanced
  | .error (.reference message) =>
    pure { record with advanceError := some message, status := .failed }
  | .error e => throw e

/-- `advance`. -/
def advance (id : BatchId) : App (Option BatchRecord) := do
  match ← BatchRepository.mutate id (onRecord (recomputeAndAdvanceRaising env)) with
  | none => pure none
  | some record =>
    match ← enqueueStage env record.id record.stageIndex with
    | some _ => reconcile id
    | none =>
      match ← BatchRepository.getOrDiagnose record.id with
      | (none, false) => pure none
      | _ => throw (.stageMaterialization record.id)

/-- `reconcile_child_job`. -/
def reconcileChildJob (job : JobId) : App (Option BatchRecord × ReconciliationOutcome) := do
  match ← BatchRepository.mutateByJobIdDiagnosed job (recomputeAndAdvanceCapturing env) with
  | (none, uncertain) => pure (none, if uncertain then .retryableFailure else .noParent)
  | (some refreshed, _) =>
    Prog.exec (.noteRecomputed refreshed)
    match ← enqueueStage env refreshed.id refreshed.stageIndex with
    | some enqueued => pure (some enqueued, .reconciled)
    | none =>
      match ← BatchRepository.getOrDiagnose refreshed.id with
      | (none, false) => pure (none, .noParent)
      | _ => pure (none, .retryableFailure)

/-- `handle_job_event` of the batch service. -/
def handleJobEvent (job : JobId) : App Unit := do
  let _ ← (reconcileChildJob env job).attempt

/-- The message of `promote` for an item that the batch does not have. -/
def unknownItem (itemId : String) : Exc := .lookup s!"Unknown batch item: {itemId}"

/-- The items with the first of this id marked as promoted. -/
def promoteItem (itemId : String) : List BatchItem → Option (List BatchItem)
  | [] => none
  | item :: rest =>
    if item.id = itemId then some ({ item with promoted := true } :: rest)
    else (promoteItem itemId rest).map (item :: ·)

/-- `promote`. -/
def promote (id : BatchId) (itemId : String) : App (Option BatchRecord) :=
  BatchRepository.mutate id (onRecord fun record =>
    match promoteItem itemId record.items with
    | none => throw (unknownItem itemId)
    | some items => recompute { record with items })

/-! ## Cancelling -/

/-- What `_apply_cancellation_intent` does with one item: an item without a row is
cancelled here, one with a row when its job is. -/
def cancelItem (item : BatchItem) : App BatchItem :=
  let cancelled := { item with status := .job .cancelled }
  if item.status = .job .cancelled then pure item
  else
    match item.jobId with
    | none => pure cancelled
    | some job => do
      if item.isTerminal then pure item
      else
        match ← (JobRepository.get job).attempt with
        | .ok (some _) => pure item
        | .ok none => pure cancelled
        | .error (.decode _) =>
          let ok ← JobRepository.transitionIfStatus job [.known .queued] (.known .cancelled)
            (some 1) (some (some "Batch cancellation requested while this row was undecodable."))
          pure (if ok then cancelled else item)
        | .error e => throw e

/-- The loop of `_apply_cancellation_intent`. -/
def cancelItems : List BatchItem → App (List BatchItem)
  | [] => pure []
  | item :: rest => do
    let item ← cancelItem item
    let rest ← cancelItems rest
    pure (item :: rest)

/-- `_apply_cancellation_intent`. -/
def applyCancellationIntent (record : BatchRecord) : App BatchRecord := do
  let items ← cancelItems record.items
  pure { record with cancellationRequested := true, items }

/-- The cancel signals of `cancel`. -/
def cancelJobs : List BatchItem → App Unit
  | [] => pure ()
  | item :: rest => do
    match item.jobId with
    | none => cancelJobs rest
    | some job =>
      if item.isTerminal then cancelJobs rest
      else
        match ← (JobService.cancelJob job).attempt with
        | .ok _ | .error (.decode _) => cancelJobs rest
        | .error e => throw e

/-- `cancel`. -/
def cancel (id : BatchId) : App (Option BatchRecord) := do
  match ← BatchRepository.mutate id (onRecord applyCancellationIntent) with
  | none => pure none
  | some record =>
    cancelJobs record.items
    reconcile id

/-! ## Recovery -/

/-- `authorize_recovered_queued_job`. -/
def authorizeRecoveredQueuedJob (job : JobId) (jobStatus : GenerationStatus) : App Exposure :=
  BatchRepository.runExclusive do
    let (owner, uncertain) ← BatchRepository.findByJobIdOrDiagnose job
    if owner.isNone && uncertain then pure .uncertain
    else if owner.any fun record => record.cancellationRequested then pure .cancelled
    else if jobStatus ≠ .queued then pure .notQueued
    else
      let _ ← JobService.enqueueJob env job
      pure .enqueued

/-- `diagnose_and_transition_cancelled_poison_child`. -/
def diagnoseAndTransitionCancelledPoisonChild (job : JobId) (reason : String) :
    App PoisonChildOutcome :=
  BatchRepository.runExclusive do
    match ← BatchRepository.findByJobIdOrDiagnose job with
    | (none, uncertain) => pure (if uncertain then .uncertain else .noParent)
    | (some owner, _) =>
      let target : GenerationStatus := if owner.cancellationRequested then .cancelled else .failed
      if ← JobRepository.transitionIfStatus job [.known .queued] (.known target) (some 1)
          (some (some reason)) then
        pure (if owner.cancellationRequested then .cancelled else .failed)
      else pure .alreadyResolved

/-- The loop of `list_batches_tolerant`; whether every batch was reconciled. -/
def reconcileAll : List BatchRecord → App Bool
  | [] => pure true
  | record :: rest => do
    let reconciled ← (reconcile record.id).attempt
    let others ← reconcileAll rest
    pure (reconciled.toOption.isSome && others)

/-- `list_batches_tolerant`. -/
def listBatchesTolerant : App Bool := do
  let scan ← BatchRepository.listAllTolerant
  let reconciled ← reconcileAll scan.records
  pure (scan.reliable && reconciled)

/-- The job ids that some batch owns, and whether every batch was read. -/
abbrev OwnershipIndex := List JobId × Bool

/-- `build_job_ownership_index`. -/
def buildJobOwnershipIndex : App OwnershipIndex := do
  let scan ← BatchRepository.listAllTolerant
  pure (scan.records.flatMap fun record => record.items.filterMap BatchItem.jobId,
    scan.reliable && scan.malformedIds.isEmpty)

/-- What `resume_pending_cancellations` does with one batch: whether it needs no further
cancelling. -/
def resumeCancellation (record : BatchRecord) : App Bool := do
  if !record.cancellationRequested then pure true
  else
    match ← cancel record.id with
    | some _ => pure true
    | none =>
      match ← BatchRepository.getOrDiagnose record.id with
      | (none, false) => pure true
      | _ => pure false

/-- The loop of `resume_pending_cancellations`. -/
def resumeCancellations : List BatchRecord → App Bool
  | [] => pure true
  | record :: rest => do
    let resumed ← resumeCancellation record
    let others ← resumeCancellations rest
    pure (resumed && others)

/-- `resume_pending_cancellations`: whether the scan was fully reliable. -/
def resumePendingCancellations : App Bool := do
  let scan ← BatchRepository.listAllTolerant
  let resumed ← resumeCancellations scan.records
  pure (scan.reliable && scan.malformedIds.isEmpty && resumed)

/-- `_persist_stage_materialization_failure`. -/
def persistStageMaterializationFailure (id : BatchId) (e : Exc) : App Unit := do
  let _ ← BatchRepository.mutate id (onRecord fun record => pure
    { record with advanceError := some (materializationFailurePrefix ++ e.text), status := .failed })

/-- What one batch of `resume_current_stage_for_all_batches` comes to: whether it needs no
further attempt. -/
def resumeCurrentStage (record : BatchRecord) : App Bool := do
  match ← (enqueueStage env record.id record.stageIndex).attempt with
  | .ok (some _) => pure true
  | .ok none =>
    match ← BatchRepository.getOrDiagnose record.id with
    | (none, false) => pure true
    | (some current, _) => pure current.cancellationRequested
    | (none, true) => pure false
  | .error e =>
    if isPermanentStageFailure e then do
      persistStageMaterializationFailure record.id e
      pure true
    else pure false

/-- One attempt over the batches of a scan: the ids processed, and whether none is left
unresolved. -/
def resumeRecords (processed : List BatchId) : List BatchRecord → App (List BatchId × Bool)
  | [] => pure (processed, true)
  | record :: rest => do
    if record.id ∈ processed then resumeRecords processed rest
    else if ← resumeCurrentStage env record then resumeRecords (record.id :: processed) rest
    else
      let (processed, _) ← resumeRecords processed rest
      pure (processed, false)

/-- The attempts of `resume_current_stage_for_all_batches`. -/
def resumeAttempts : ℕ → List BatchId → App Unit
  | 0, _ => pure ()
  | attempts + 1, processed => do
    let scan ← BatchRepository.listAllTolerant
    let (processed, resolved) ← resumeRecords env processed scan.records
    if scan.reliable && resolved then pure () else resumeAttempts attempts processed

/-- `resume_current_stage_for_all_batches`. -/
def resumeCurrentStageForAllBatches : App Unit := resumeAttempts env startupBatchScanMaxAttempts []

/-! ### Footprints -/

section Footprints
variable {kinds : List Kind}

theorem within_onRecord {f : BatchRecord → App BatchRecord}
    (hf : ∀ record, Within kinds (f record)) (record : Option BatchRecord) :
    Within kinds (onRecord f record) := by
  cases record <;> simp [onRecord, hf]

@[simp] theorem within_readChild (job : JobId) (h : .read ∈ kinds) :
    Within kinds (readChild job) := by
  unfold readChild
  rw [within_bind, within_attempt]
  refine ⟨JobRepository.within_get job h, fun outcome _ => ?_⟩
  match outcome with
  | .ok none | .ok (some _) => exact within_ret _
  | .error e => cases e <;> simp [h]

@[simp] theorem within_recompute (record : BatchRecord) (h : .read ∈ kinds) :
    Within kinds (recompute record) := by
  have hitems (items) : Within kinds (recomputeItems items) := by
    induction items with
    | nil => exact within_ret _
    | cons item rest ih =>
      unfold recomputeItems
      cases item.jobId <;> simp [ih, h]
  simp [recompute, hitems]

@[simp] theorem within_reconcile (id : BatchId) (h : [.read, .lock, .writeBatch] ⊆ kinds) :
    Within kinds (reconcile id) :=
  BatchRepository.within_mutate
    (within_onRecord fun record => within_recompute record (List.cons_subset.mp h).1) h

@[simp] theorem within_assignIds (stageIndex : ℕ) (record : BatchRecord) (h : .draw ∈ kinds) :
    Within kinds (assignIds stageIndex record) := by
  have hitems (items) : Within kinds (assignItems stageIndex items) := by
    induction items with
    | nil => exact within_ret _
    | cons item rest ih => simp [assignItems, ih, h]
  simp [assignIds, hitems]

@[simp] theorem within_authorizeAndExpose (batch : BatchId) (job : JobId)
    (jobStatus : GenerationStatus) (h : [.read, .lock, .enqueue] ⊆ kinds) :
    Within kinds (authorizeAndExpose env batch job jobStatus) := by
  simp only [List.cons_subset] at h
  refine BatchRepository.within_runExclusive ?_ h.2.1
  simp [Prod.forall, Option.forall, h]

theorem within_exposeItems (batch : BatchId) (projectId : Option String) (items : List BatchItem)
    (h : [.read, .insert, .update, .lock, .enqueue] ⊆ kinds) :
    Within kinds (exposeItems env batch projectId items) := by
  simp only [List.cons_subset] at h
  induction items with
  | nil => exact within_ret _
  | cons item rest ih =>
    unfold exposeItems
    split
    · exact ih
    next job =>
      rw [within_ite]
      refine ⟨fun _ => ih, fun _ => ?_⟩
      rw [within_bind]
      refine ⟨BatchRepository.within_get batch h.1, fun current _ => ?_⟩
      cases current with
      | none => exact within_ret _
      | some current =>
        simp only [within_ite, within_bind, within_attempt]
        refine ⟨fun _ => within_ret _, fun _ =>
          ⟨JobService.within_createOrReuseJobWithoutEnqueue _ _ _ (by simp [h]), ?_⟩⟩
        intro outcome _
        rcases outcome with e | ⟨created, _⟩
        · cases e <;> first | exact ih | exact within_raise _
        · simp only [within_bind]
          refine ⟨within_authorizeAndExpose env _ _ _ (by simp [h]), fun exposure _ => ?_⟩
          cases exposure <;> simp [ih, h]

@[simp] theorem within_clearStaleMaterializationFailure (id : BatchId)
    (h : [.read, .lock, .writeBatch] ⊆ kinds) :
    Within kinds (clearStaleMaterializationFailure id) :=
  within_discard.mpr (BatchRepository.within_mutate (within_onRecord fun _ => within_ret _) h)

/-- What materialising a stage takes. -/
abbrev stageKinds : List Kind :=
  [.read, .insert, .update, .lock, .enqueue, .draw, .writeBatch]

@[simp] theorem within_enqueueStage (id : BatchId) (stageIndex : ℕ) (h : stageKinds ⊆ kinds) :
    Within kinds (enqueueStage env id stageIndex) := by
  simp only [List.cons_subset] at h
  have hassign : Within kinds (BatchRepository.mutate id (onRecord (assignIds stageIndex))) :=
    BatchRepository.within_mutate
      (within_onRecord fun record => within_assignIds stageIndex record (by simp [h])) (by simp [h])
  have hexpose (projectId items) : Within kinds (exposeItems env id projectId items) :=
    within_exposeItems env id projectId items (by simp [h])
  simp [enqueueStage, Option.forall, hassign, hexpose, h]

theorem within_createAttempts (id : BatchId) (attempts : ℕ) (h : stageKinds ⊆ kinds) :
    Within kinds (createAttempts env id attempts) := by
  have hread : .read ∈ kinds := (List.cons_subset.mp h).1
  induction attempts with
  | zero => simp [createAttempts, hread]
  | succ attempts ih =>
    simp [createAttempts, except_forall, Option.forall, ih, h, hread]

theorem within_validateItems (projectId : Option String) (items : List BatchItem)
    (h : .read ∈ kinds) :
    Within kinds (validateItems JobService.validateReferences projectId items) := by
  induction items with
  | nil => exact within_ret _
  | cons item rest ih => simp [validateItems, JobService.validateReferences, ih, h]

@[simp] theorem within_liftExcept (r : Except Exc α) : Within kinds (liftExcept r : App α) := by
  cases r with
  | ok a => exact within_ret a
  | error e => exact within_raise e

@[simp] theorem within_createBatch (spec : BatchSpec) (h : stageKinds ⊆ kinds) :
    Within kinds (createBatch env spec) := by
  have hattempts (id) : Within kinds (createAttempts env id startupBatchScanMaxAttempts) :=
    within_createAttempts env id _ h
  simp only [List.cons_subset] at h
  have hvalidate (projectId items) :
      Within kinds (validateItems JobService.validateReferences projectId items) :=
    within_validateItems projectId items h.1
  simp [createBatch, newRecord, hvalidate, hattempts, h]

@[simp] theorem within_tryAdvanceInPlace (record : BatchRecord) (h : .read ∈ kinds) :
    Within kinds (tryAdvanceInPlace env.lib JobService.validateReferences record : App _) := by
  have hvalidate (projectId items) :
      Within kinds (validateItems JobService.validateReferences projectId items) :=
    within_validateItems projectId items h
  unfold tryAdvanceInPlace
  cases hstage : record.spec.resolvedStages[record.stageIndex]? <;>
    cases hnext : record.spec.resolvedStages[record.stageIndex + 1]? <;>
    simp [hstage, hnext, hvalidate]

@[simp] theorem within_recomputeAndAdvanceRaising (record : BatchRecord) (h : .read ∈ kinds) :
    Within kinds (recomputeAndAdvanceRaising env record) := by
  simp [recomputeAndAdvanceRaising, h]

@[simp] theorem within_recomputeAndAdvanceCapturing (record : BatchRecord) (h : .read ∈ kinds) :
    Within kinds (recomputeAndAdvanceCapturing env record) := by
  unfold recomputeAndAdvanceCapturing
  simp only [within_bind, within_attempt]
  refine ⟨within_recompute record h, fun recomputed _ =>
    ⟨within_tryAdvanceInPlace env recomputed h, fun outcome _ => ?_⟩⟩
  cases outcome with
  | ok _ => exact within_ret _
  | error e => cases e <;> first | exact within_ret _ | exact within_raise _

@[simp] theorem within_advance (id : BatchId) (h : stageKinds ⊆ kinds) :
    Within kinds (advance env id) := by
  have hread : .read ∈ kinds := (List.cons_subset.mp h).1
  have hmutate : Within kinds
      (BatchRepository.mutate id (onRecord (recomputeAndAdvanceRaising env))) :=
    BatchRepository.within_mutate
      (within_onRecord fun record => within_recomputeAndAdvanceRaising env record hread)
      (List.Subset.trans (by decide) h)
  unfold advance
  rw [within_bind]
  refine ⟨hmutate, fun record _ => ?_⟩
  cases record with
  | none => exact within_ret _
  | some record =>
    rw [within_bind]
    refine ⟨within_enqueueStage env _ _ h, fun enqueued _ => ?_⟩
    simp only [List.cons_subset] at h
    cases enqueued with
    | some _ => simp [h]
    | none =>
      rw [within_bind]
      refine ⟨BatchRepository.within_getOrDiagnose _ hread, fun diagnosis _ => ?_⟩
      split <;> simp

/-- What following a child job to its batch takes. -/
abbrev childKinds : List Kind := .note :: stageKinds

@[simp] theorem within_reconcileChildJob (job : JobId) (h : childKinds ⊆ kinds) :
    Within kinds (reconcileChildJob env job) := by
  have hstage : stageKinds ⊆ kinds := (List.cons_subset.mp h).2
  have hnote : .note ∈ kinds := (List.cons_subset.mp h).1
  have hread : .read ∈ kinds := (List.cons_subset.mp hstage).1
  unfold reconcileChildJob
  rw [within_bind]
  refine ⟨BatchRepository.within_mutateByJobIdDiagnosed
    (fun record => within_recomputeAndAdvanceCapturing env record hread)
    (List.Subset.trans (by decide) hstage), fun found _ => ?_⟩
  match found with
  | (none, uncertain) => exact within_ret _
  | (some refreshed, _) =>
    simp only [within_bind, within_exec]
    refine ⟨⟨hnote, trivial⟩, fun _ _ => ⟨within_enqueueStage env _ _ hstage, fun enqueued _ => ?_⟩⟩
    cases enqueued with
    | some _ => exact within_ret _
    | none =>
      simp only [within_bind]
      refine ⟨BatchRepository.within_getOrDiagnose _ hread, fun diagnosis _ => ?_⟩
      split <;> exact within_ret _

@[simp] theorem within_handleJobEvent (job : JobId) (h : childKinds ⊆ kinds) :
    Within kinds (handleJobEvent env job) :=
  within_discard.mpr (within_attempt.mpr (within_reconcileChildJob env job h))

@[simp] theorem within_promote (id : BatchId) (itemId : String)
    (h : [.read, .lock, .writeBatch] ⊆ kinds) : Within kinds (promote id itemId) := by
  refine BatchRepository.within_mutate (within_onRecord fun record => ?_) h
  split
  · exact within_raise _
  · exact within_recompute _ (List.cons_subset.mp h).1

theorem within_cancelItem (item : BatchItem) (h : [.read, .update] ⊆ kinds) :
    Within kinds (cancelItem item) := by
  have htransition (job : JobId) (message : String) :
      Within kinds (JobRepository.transitionIfStatus job [.known .queued] (.known .cancelled)
        (some 1) (some (some message))) :=
    JobRepository.within_transitionIfStatus (JobService.lawfulEdit_of [.queued] (by decide)
      (by decide) JobService.one_mem_range) (h (by decide))
  simp only [List.cons_subset] at h
  unfold cancelItem
  rw [within_ite]
  refine ⟨fun _ => within_ret _, fun _ => ?_⟩
  split
  · exact within_ret _
  · simp only [within_ite, within_bind, within_attempt]
    refine ⟨fun _ => within_ret _, fun _ => ⟨JobRepository.within_get _ h.1, fun outcome _ => ?_⟩⟩
    rcases outcome with e | _ | _
    · cases e <;> simp [htransition]
    · exact within_ret _
    · exact within_ret _

@[simp] theorem within_applyCancellationIntent (record : BatchRecord)
    (h : [.read, .update] ⊆ kinds) : Within kinds (applyCancellationIntent record) := by
  have hitems (items) : Within kinds (cancelItems items) := by
    induction items with
    | nil => exact within_ret _
    | cons item rest ih => simp [cancelItems, within_cancelItem item h, ih]
  simp [applyCancellationIntent, hitems]

theorem within_cancelJobs (items : List BatchItem) (h : [.read, .update] ⊆ kinds) :
    Within kinds (cancelJobs items) := by
  induction items with
  | nil => exact within_ret _
  | cons item rest ih =>
    unfold cancelJobs
    split
    · exact ih
    · simp only [within_ite, within_bind, within_attempt]
      refine ⟨fun _ => ih, fun _ => ⟨JobService.within_cancelJob _ h, fun outcome _ => ?_⟩⟩
      cases outcome with
      | ok _ => exact ih
      | error e => cases e <;> first | exact ih | exact within_raise _

@[simp] theorem within_cancel (id : BatchId) (h : [.read, .update, .lock, .writeBatch] ⊆ kinds) :
    Within kinds (cancel id) := by
  simp only [List.cons_subset] at h
  have hmutate : Within kinds (BatchRepository.mutate id (onRecord applyCancellationIntent)) :=
    BatchRepository.within_mutate
      (within_onRecord fun record => within_applyCancellationIntent record (by simp [h]))
      (by simp [h])
  have hjobs (items) : Within kinds (cancelJobs items) := within_cancelJobs items (by simp [h])
  simp [cancel, Option.forall, hmutate, hjobs, h]

@[simp] theorem within_authorizeRecoveredQueuedJob (job : JobId) (jobStatus : GenerationStatus)
    (h : [.read, .lock, .enqueue] ⊆ kinds) :
    Within kinds (authorizeRecoveredQueuedJob env job jobStatus) := by
  simp only [List.cons_subset] at h
  refine BatchRepository.within_runExclusive ?_ h.2.1
  simp [h]

@[simp] theorem within_diagnoseAndTransitionCancelledPoisonChild (job : JobId) (reason : String)
    (h : [.read, .lock, .update] ⊆ kinds) :
    Within kinds (diagnoseAndTransitionCancelledPoisonChild job reason) := by
  simp only [List.cons_subset] at h
  have htransition (target : GenerationStatus) (htarget : target ≠ .queued) :
      Within kinds (JobRepository.transitionIfStatus job [.known .queued] (.known target)
        (some 1) (some (some reason))) :=
    JobRepository.within_transitionIfStatus (JobService.lawfulEdit_of [.queued] (by decide)
      htarget JobService.one_mem_range) h.2.2.1
  refine BatchRepository.within_runExclusive ?_ h.2.1
  rw [within_bind]
  refine ⟨BatchRepository.within_findByJobIdOrDiagnose job h.1, fun found _ => ?_⟩
  match found with
  | (none, _) => exact within_ret _
  | (some owner, _) =>
    simp only [within_bind]
    refine ⟨htransition _ (by split <;> decide), fun ok _ => by simp⟩

@[simp] theorem within_listBatchesTolerant (h : [.read, .lock, .writeBatch] ⊆ kinds) :
    Within kinds listBatchesTolerant := by
  have hall (records) : Within kinds (reconcileAll records) := by
    induction records with
    | nil => exact within_ret _
    | cons record rest ih => simp [reconcileAll, ih, h]
  simp only [List.cons_subset] at h
  simp [listBatchesTolerant, hall, h]

@[simp] theorem within_buildJobOwnershipIndex (h : .read ∈ kinds) :
    Within kinds buildJobOwnershipIndex := by
  simp [buildJobOwnershipIndex, h]

@[simp] theorem within_resumeCancellation (record : BatchRecord)
    (h : [.read, .update, .lock, .writeBatch] ⊆ kinds) :
    Within kinds (resumeCancellation record) := by
  unfold resumeCancellation
  rw [within_ite, within_bind]
  refine ⟨fun _ => within_ret _, fun _ => ⟨within_cancel _ h, fun cancelled _ => ?_⟩⟩
  cases cancelled with
  | some _ => exact within_ret _
  | none =>
    rw [within_bind]
    refine ⟨BatchRepository.within_getOrDiagnose _ (List.cons_subset.mp h).1, fun diagnosis _ => ?_⟩
    split <;> exact within_ret _

@[simp] theorem within_resumePendingCancellations
    (h : [.read, .update, .lock, .writeBatch] ⊆ kinds) :
    Within kinds resumePendingCancellations := by
  have hall (records) : Within kinds (resumeCancellations records) := by
    induction records with
    | nil => exact within_ret _
    | cons record rest ih => simp [resumeCancellations, ih, h]
  simp [resumePendingCancellations, hall, (List.cons_subset.mp h).1]

@[simp] theorem within_resumeCurrentStage (record : BatchRecord) (h : stageKinds ⊆ kinds) :
    Within kinds (resumeCurrentStage env record) := by
  have hread : .read ∈ kinds := (List.cons_subset.mp h).1
  have hpersist (id e) : Within kinds (persistStageMaterializationFailure id e) :=
    within_discard.mpr (BatchRepository.within_mutate (within_onRecord fun _ => within_ret _)
      (List.Subset.trans (by decide) h))
  unfold resumeCurrentStage
  simp only [within_bind, within_attempt]
  refine ⟨within_enqueueStage env _ _ h, fun outcome _ => ?_⟩
  rcases outcome with e | _ | _
  · simp [hpersist]
  · rw [within_bind]
    refine ⟨BatchRepository.within_getOrDiagnose _ hread, fun diagnosis _ => ?_⟩
    split <;> exact within_ret _
  · exact within_ret _

@[simp] theorem within_resumeCurrentStageForAllBatches (h : stageKinds ⊆ kinds) :
    Within kinds (resumeCurrentStageForAllBatches env) := by
  have hread : .read ∈ kinds := (List.cons_subset.mp h).1
  have hrecords (records processed) : Within kinds (resumeRecords env processed records) := by
    induction records generalizing processed with
    | nil => exact within_ret _
    | cons record rest ih => simp [resumeRecords, ih, h]
  have hattempts (attempts processed) : Within kinds (resumeAttempts env attempts processed) := by
    induction attempts generalizing processed with
    | zero => exact within_ret _
    | succ attempts ih => simp [resumeAttempts, hrecords, ih, hread]
  exact hattempts _ _

end Footprints

end BatchService

end CreativeStudio.Batches
