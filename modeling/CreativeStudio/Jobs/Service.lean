import CreativeStudio.Storage.Footprint

/-!
# The job service

Creating, queueing, cancelling and ending jobs. What the service publishes is delivered to
subscribers that are threads of their own, so publishing is not a command here.
-/

namespace CreativeStudio.Jobs
open Data Storage Conc

/-- `ACTIVE_JOB_STATUSES` as texts. -/
def activeStatusTexts : List StatusText := GenerationStatus.activeJobStatuses.map .known

namespace JobService
variable (env : Env)

/-- `get_job`. -/
def getJob (id : JobId) : App (Option JobRecord) := JobRepository.get id

/-- `enqueue_job`: a cancelled job is not queued. -/
def enqueueJob (id : JobId) : App (Option JobRecord) := do
  match ← getJob id with
  | none => pure none
  | some job =>
    if job.status = .cancelled then pure (some job)
    else
      match env.assignLane with
      | some assignLane =>
        let lane ← Prog.ofExcept (assignLane job.mediaType job.request.taskType)
        Prog.call (.enqueue id (some lane))
      | none => Prog.call (.enqueue id none)
      pure (some job)

/-- `validate_references`. -/
def validateReferences (request : GenerationRequest) (projectId : Option String) : App Unit :=
  Prog.call (.validateReferences request projectId)

/-- The record of a job that has not run. -/
def newJob (id : JobId) (request : GenerationRequest) (projectId : Option String) (now : ℕ) :
    JobRecord where
  id
  projectId
  mediaType := request.mediaType
  status := .queued
  request
  createdAt := now
  updatedAt := now

/-- `create_job`. -/
def createJob (request : GenerationRequest) (projectId : Option String) : App JobRecord := do
  validateReferences request projectId
  let now ← Prog.exec .utcNow
  let id ← Prog.exec .uuid4
  let created ← JobRepository.create (newJob id request projectId now)
  let _ ← enqueueJob env created.id
  pure created

/-- The refusal to reuse a row for another request. -/
def mismatch (id : JobId) : Exc :=
  .value (s!"Job {id} already exists with a different request; refusing to silently reuse " ++
    "it for a mismatched request.")

/-- `create_or_reuse_job_without_enqueue`. -/
def createOrReuseJobWithoutEnqueue (id : JobId) (request : GenerationRequest)
    (projectId : Option String) : App (JobRecord × Bool) := do
  match ← JobRepository.get id with
  | some existing =>
    if existing.request.Same request then pure (existing, false) else throw (mismatch id)
  | none =>
    validateReferences request projectId
    let now ← Prog.exec .utcNow
    let (created, wasCreated) ← JobRepository.createIfAbsent (newJob id request projectId now)
    if wasCreated then pure (created, true)
    else if created.request.Same request then pure (created, false)
    else throw (mismatch id)

/-- `create_or_reuse_job`. -/
def createOrReuseJob (id : JobId) (request : GenerationRequest) (projectId : Option String) :
    App JobRecord := do
  let (created, wasCreated) ← createOrReuseJobWithoutEnqueue id request projectId
  if wasCreated then
    let _ ← enqueueJob env created.id
  pure created

/-- `mark_failed`. -/
def markFailed (id : JobId) (message : String) : App (Option JobRecord) := do
  match ← JobRepository.updateIfStatus id activeStatusTexts (some (.known .failed)) (some 1)
      none none (some (some message)) with
  | none => getJob id
  | some job => pure (some job)

/-- `mark_succeeded`: the result is only committed from `postprocessing`, and the assets
are synchronised after it. -/
def markSucceeded (id : JobId) (result : GenerationResult) : App (Option JobRecord) := do
  match ← JobRepository.updateIfStatus id [.known .postprocessing] (some (.known .succeeded))
      (some 1) none (some (some { result with jobId := id })) (some none) with
  | none => getJob id
  | some job =>
    let _ ← Prog.call (.syncJob job)
    pure (some job)

/-- The status that cancelling a job in this status sets, and the progress with it. -/
def cancelTarget : GenerationStatus → Option (GenerationStatus × Option ℚ)
  | .queued => some (.cancelled, some 1)
  | .preparing | .running | .postprocessing => some (.cancelRequested, none)
  | _ => none

/-- The loop of `cancel_job`. A compare-and-set that misses has found the job in a later
status, and there are four statuses to cancel from, so the fifth read finds none of
them. -/
def cancelLoop (id : JobId) : ℕ → App (Option JobRecord)
  | 0 => getJob id
  | retries + 1 => do
    match ← getJob id with
    | none => pure none
    | some job =>
      match cancelTarget job.status with
      | none => pure (some job)
      | some (target, progress) =>
        match ← JobRepository.updateIfStatus id [.known job.status] (some (.known target))
            progress with
        | some updated => pure (some updated)
        | none => cancelLoop id retries

/-- `cancel_job`: the worker of the job, if it has one, is told after the row has changed. -/
def cancelJob (id : JobId) : App (Option JobRecord) := do
  match ← cancelLoop id 4 with
  | none => pure none
  | some job =>
    Prog.exec (.registryRequestCancel id)
    pure (some job)

/-- `finalize_cancellation`. -/
def finalizeCancellation (id : JobId) : App (Option JobRecord) := do
  match ← JobRepository.updateIfStatus id [.known .cancelRequested] (some (.known .cancelled))
      (some 1) with
  | none => getJob id
  | some job => pure (some job)

/-! ### Footprints -/

variable {kinds : List Kind}

@[simp] theorem within_enqueueJob (id : JobId) (h : [.read, .enqueue] ⊆ kinds) :
    Within kinds (enqueueJob env id) := by
  simp only [List.cons_subset] at h
  unfold enqueueJob getJob
  cases env.assignLane <;> simp [Option.forall, h]

@[simp] theorem within_createJob (request : GenerationRequest) (projectId : Option String)
    (h : [.read, .draw, .insert, .enqueue] ⊆ kinds) :
    Within kinds (createJob env request projectId) := by
  simp only [List.cons_subset] at h
  simp [createJob, validateReferences, h]

@[simp] theorem within_createOrReuseJobWithoutEnqueue (id : JobId) (request : GenerationRequest)
    (projectId : Option String) (h : [.read, .insert] ⊆ kinds) :
    Within kinds (createOrReuseJobWithoutEnqueue id request projectId) := by
  simp only [List.cons_subset] at h
  simp [createOrReuseJobWithoutEnqueue, validateReferences, Option.forall, h]

@[simp] theorem within_createOrReuseJob (id : JobId) (request : GenerationRequest)
    (projectId : Option String) (h : [.read, .insert, .enqueue] ⊆ kinds) :
    Within kinds (createOrReuseJob env id request projectId) := by
  simp only [List.cons_subset] at h
  simp [createOrReuseJob, h]

/-- A guarded edit of a job that has not ended. -/
theorem lawfulEdit_of (expected : List GenerationStatus) {status : GenerationStatus}
    {progress : Option ℚ} (hexpected : ∀ s ∈ expected, ¬ s.isTerminalStatus)
    (hstatus : status ≠ .queued)
    (hprogress : ∀ fraction, progress = some fraction → 0 ≤ fraction ∧ fraction ≤ 1) :
    LawfulEdit (some (.known status)) progress (expected.map .known) where
  expected text htext := by
    obtain ⟨s, hs, rfl⟩ := List.mem_map.mp htext
    simpa [terminalStatusTexts, GenerationStatus.isTerminalStatus] using hexpected s hs
  status_ne h := hstatus (StatusText.known.inj (Option.some.inj h))
  expected_ne h := by cases h
  progress_mem := hprogress

/-- The progress that ends a job is in range. -/
theorem one_mem_range (fraction : ℚ) (h : some (1 : ℚ) = some fraction) :
    0 ≤ fraction ∧ fraction ≤ 1 := by
  obtain rfl := Option.some.inj h
  exact ⟨by decide, by decide⟩

@[simp] theorem within_markFailed (id : JobId) (message : String) (h : [.read, .update] ⊆ kinds) :
    Within kinds (markFailed id message) := by
  unfold markFailed
  rw [within_bind]
  refine ⟨JobRepository.within_updateIfStatus (lawfulEdit_of _ (by decide)
    (by decide) one_mem_range) h, fun r _ => ?_⟩
  simp only [List.cons_subset] at h
  cases r <;> simp [getJob, h]

@[simp] theorem within_markSucceeded (id : JobId) (result : GenerationResult)
    (h : [.read, .update, .sync] ⊆ kinds) : Within kinds (markSucceeded id result) := by
  simp only [List.cons_subset] at h
  unfold markSucceeded
  rw [within_bind]
  refine ⟨JobRepository.within_updateIfStatus
    (lawfulEdit_of [.postprocessing] (by decide) (by decide) one_mem_range)
    (by simp [h]), fun r _ => ?_⟩
  cases r <;> simp [getJob, h]

theorem cancelTarget_spec {status target : GenerationStatus} {progress : Option ℚ}
    (h : cancelTarget status = some (target, progress)) :
    ¬ status.isTerminalStatus ∧ target ≠ .queued ∧
      ∀ fraction, progress = some fraction → 0 ≤ fraction ∧ fraction ≤ 1 := by
  cases status <;> simp only [cancelTarget, Option.some.injEq, Prod.mk.injEq, reduceCtorEq] at h <;>
    obtain ⟨rfl, rfl⟩ := h <;> refine ⟨by decide, by decide, ?_⟩
  · exact one_mem_range
  all_goals exact fun fraction h => by cases h

theorem within_cancelLoop (id : JobId) (retries : ℕ) (h : [.read, .update] ⊆ kinds) :
    Within kinds (cancelLoop id retries) := by
  have hread : .read ∈ kinds := (List.cons_subset.mp h).1
  induction retries with
  | zero => simp [cancelLoop, getJob, hread]
  | succ retries ih =>
    unfold cancelLoop getJob
    rw [within_bind]
    refine ⟨JobRepository.within_get id hread, fun r _ => ?_⟩
    cases r with
    | none => simp
    | some job =>
      simp only
      split
      · simp
      next target progress htarget =>
        obtain ⟨hactive, hne, hprogress⟩ := cancelTarget_spec htarget
        rw [within_bind]
        refine ⟨JobRepository.within_updateIfStatus
          (lawfulEdit_of [job.status] (by simpa using hactive) hne hprogress) h,
          fun updated _ => ?_⟩
        cases updated <;> simp [ih]

@[simp] theorem within_cancelJob (id : JobId) (h : [.read, .update] ⊆ kinds) :
    Within kinds (cancelJob id) := by
  have hloop := within_cancelLoop id 4 h
  simp only [List.cons_subset] at h
  simp [cancelJob, Option.forall, hloop, h]

@[simp] theorem within_finalizeCancellation (id : JobId) (h : [.read, .update] ⊆ kinds) :
    Within kinds (finalizeCancellation id) := by
  unfold finalizeCancellation
  rw [within_bind]
  refine ⟨JobRepository.within_updateIfStatus
    (lawfulEdit_of [.cancelRequested] (by decide) (by decide) one_mem_range) h,
    fun r _ => ?_⟩
  simp only [List.cons_subset] at h
  cases r <;> simp [getJob, h]

end JobService

end CreativeStudio.Jobs
