import CreativeStudio.Jobs.Service
import Mathlib.Algebra.Order.Ring.Rat
import Mathlib.Tactic.Linarith

/-!
# The job runner

Taking a job off the queue, claiming it, running its generator and ending it. The claim is
the compare-and-set from `queued` to `preparing`; everything a generator does in between
reaches the rest of the program through the hooks it was given.
-/

namespace CreativeStudio.Jobs
open Data Storage Conc

/-- Result of a `_quarantine_poison_job` attempt. -/
inductive QuarantineOutcome
  | quarantined | alreadyResolved | writeFailed
  deriving DecidableEq, Repr

namespace JobRunner

/-- `_RUNNING_PROGRESS_START`. -/
def runningProgressStart : ℚ := 1 / 10

/-- `_RUNNING_PROGRESS_SPAN`. -/
def runningProgressSpan : ℚ := 8 / 10

/-- `max(0.0, min(1.0, fraction))`. -/
def clamp (fraction : ℚ) : ℚ := max 0 (min 1 fraction)

/-- `_is_cancelled`. -/
def isCancelled (id : JobId) : App Bool := do
  let current ← JobRepository.get id
  pure (current.any fun job => job.status == .cancelRequested || job.status == .cancelled)

/-- `_finalize_cancellation`. -/
def finalizeCancellation (id : JobId) : App (Option JobRecord) :=
  JobService.finalizeCancellation id

/-- `_report_generation_progress`. -/
def reportGenerationProgress (id : JobId) (fraction : ℚ) : App Unit := do
  let _ ← JobRepository.updateIfStatus id [.known .running] none
    (some (runningProgressStart + clamp fraction * runningProgressSpan))

/-- `_report_segment_progress`. -/
def reportSegmentProgress (id : JobId) (fraction : ℚ) : App Unit := do
  if ← isCancelled id then pure ()
  else
    let _ ← JobRepository.updateIfStatus id [.known .running] (some (.known .running))
      (some (min (89 / 100) (1 / 10 + clamp fraction * (79 / 100))))

/-- `is_cancelled` of the generation context. -/
def contextCancelled (id : JobId) : App Bool := do
  if ← Prog.exec (.registryCancelled id) then pure true else isCancelled id

/-- Run a generator: what it does with its hooks, and what it returns or raises. -/
def runGenerator (id : JobId) : GeneratorRun → App GenerationResult
  | .returns result => Prog.ofExcept result
  | .report fraction rest => do
    let answer ← (reportGenerationProgress id fraction).attempt
    runGenerator id (rest answer)
  | .reportSegment fraction rest => do
    let answer ← (reportSegmentProgress id fraction).attempt
    runGenerator id (rest answer)
  | .pollContext rest => do
    let answer ← (contextCancelled id).attempt
    runGenerator id (rest answer)
  | .pollJob rest => do
    let answer ← (isCancelled id).attempt
    runGenerator id (rest answer)

/-- `_update_status` to `running` and to `postprocessing`. -/
def updateStatus (id : JobId) (expected status : GenerationStatus) (progress : ℚ) :
    App (Option JobRecord) :=
  JobRepository.updateIfStatus id [.known expected] (some (.known status)) (some progress)

/-- `_claim_job`. -/
def claimJob (id : JobId) : App Bool :=
  JobRepository.transitionIfStatus id [.known .queued] (.known .preparing) (some 0)

/-- The inner `try` of `process_job`: it returns early when the job has left `preparing`. -/
def generate (id : JobId) (job : JobRecord) : App (Option JobRecord ⊕ GenerationResult) := do
  Prog.call (.findGenerator job.mediaType job.request)
  match ← updateStatus id .preparing .running (1 / 10) with
  | none => return .inl (← finalizeCancellation id)
  | some _ =>
    let run ← Prog.exec (.generate id job.request)
    return .inr (← runGenerator id run)

/-- What `process_job` does with the result of the generator. -/
def complete (id : JobId) (result : GenerationResult) : App (Option JobRecord) := do
  if ← isCancelled id then finalizeCancellation id
  else
    match ← updateStatus id .running .postprocessing (9 / 10) with
    | none => finalizeCancellation id
    | some _ =>
      let completion ← JobService.markSucceeded id result
      -- a cancellation that won the race is finalized by the owner of the job
      if completion.any fun job => job.status == .cancelRequested then finalizeCancellation id
      else pure completion

/-- The part of `process_job` between `begin` and the handlers of its `try`. -/
def runRegistered (id : JobId) (job : JobRecord) : App (Option JobRecord) := do
  if ← isCancelled id then finalizeCancellation id
  else
    match ← (generate id job).attempt with
    | .ok (.inl early) => pure early
    | .ok (.inr result) => complete id result
    | .error .generationCancelled => finalizeCancellation id
    | .error e =>
      if ← isCancelled id then finalizeCancellation id
      else JobService.markFailed id e.text

/-- `_resolve_claim_failure`: it never raises. -/
def resolveClaimFailure (id : JobId) (e : Exc) : App (Option JobRecord) := do
  let current ← (finalizeCancellation id).orElse fun _ => pure none
  if current.any fun job => job.status.isTerminalStatus then pure current
  else
    (JobService.markFailed id e.text).orElse fun _ =>
      (JobRepository.get id).orElse fun _ => pure none

/-- The part of `process_job` that runs while it owns the job. What fails before the
registration is for the caller to resolve, and there is nothing to end then. -/
def execute (id : JobId) (job : JobRecord) : App (Option JobRecord) := do
  match ← JobRepository.get id with
  | none => throw (.other s!"Claimed job {id} disappeared.")
  | some _ =>
    let token ← Prog.exec (.registryBegin id)
    ((runRegistered id job).orElse fun e => resolveClaimFailure id e).andFinally
      (Prog.exec (.registryEnd id token))

/-- `process_job`: a failure before the claim is raised, one after it is resolved. -/
def processJob (id : JobId) : App (Option JobRecord) := do
  match ← JobRepository.get id with
  | none => pure none
  | some job =>
    if job.status ≠ .queued then pure (some job)
    else if ← claimJob id then (execute id job).orElse fun e => resolveClaimFailure id e
    else JobRepository.get id

/-- `_quarantine_poison_job`. -/
def quarantinePoisonJob (id : JobId) (e : Exc) : App QuarantineOutcome := do
  match ← (JobRepository.transitionIfStatus id [.known .queued] (.known .failed) (some 1)
      (some (some e.text))).attempt with
  | .error _ => pure .writeFailed
  | .ok true => pure .quarantined
  | .ok false =>
    match ← (JobRepository.getRawStatus id).attempt with
    | .error _ => pure .writeFailed
    | .ok (some (.unknown _)) =>
      match ← (JobRepository.quarantineStructurallyInvalidStatus id e.text).attempt with
      | .error _ => pure .writeFailed
      | .ok true => pure .quarantined
      | .ok false => pure .alreadyResolved
    | .ok _ => pure .alreadyResolved

/-- `_is_permanent_pre_claim_failure`. -/
def isPermanentPreClaimFailure : Exc → Bool
  | .decode _ => true
  | _ => false

/-- `run_once`: a failure that may pass puts the job back into its lane. -/
def runOnce (lane : Option String) : App (Option JobRecord) := do
  match ← Prog.call (.dequeue lane) with
  | none => pure none
  | some id =>
    (processJob id).orElse fun e => do
      if isPermanentPreClaimFailure e then
        if (← quarantinePoisonJob id e) = .writeFailed then Prog.call (.enqueue id lane)
      else Prog.call (.enqueue id lane)
      throw e

/-! ### Footprints -/

variable {kinds : List Kind}

@[simp] theorem within_isCancelled (id : JobId) (h : .read ∈ kinds) :
    Within kinds (isCancelled id) := by
  simp [isCancelled, h]

@[simp] theorem within_finalizeCancellation (id : JobId) (h : [.read, .update] ⊆ kinds) :
    Within kinds (finalizeCancellation id) := JobService.within_finalizeCancellation id h

/-- The progress a running job reports is in range. -/
theorem clamp_mem (fraction : ℚ) : 0 ≤ clamp fraction ∧ clamp fraction ≤ 1 :=
  ⟨le_max_left _ _, max_le zero_le_one (min_le_left _ _)⟩

theorem lawfulEdit_generationProgress (fraction : ℚ) :
    LawfulEdit none (some (runningProgressStart + clamp fraction * runningProgressSpan))
      [.known .running] := by
  have hclamp := clamp_mem fraction
  refine ⟨by decide, by simp, by simp, ?_⟩
  rintro progress ⟨rfl⟩
  unfold runningProgressStart runningProgressSpan
  constructor <;> linarith

theorem lawfulEdit_segmentProgress (fraction : ℚ) :
    LawfulEdit (some (.known .running))
      (some (min (89 / 100) (1 / 10 + clamp fraction * (79 / 100)))) [.known .running] := by
  have hclamp := clamp_mem fraction
  refine JobService.lawfulEdit_of [.running] (by decide) (by decide) ?_
  rintro progress ⟨rfl⟩
  exact ⟨le_min (by norm_num) (by linarith), (min_le_left _ _).trans (by norm_num)⟩

@[simp] theorem within_reportGenerationProgress (id : JobId) (fraction : ℚ)
    (h : [.read, .update] ⊆ kinds) : Within kinds (reportGenerationProgress id fraction) := by
  simpa [reportGenerationProgress] using
    JobRepository.within_updateIfStatus (lawfulEdit_generationProgress fraction) h

@[simp] theorem within_reportSegmentProgress (id : JobId) (fraction : ℚ)
    (h : [.read, .update] ⊆ kinds) : Within kinds (reportSegmentProgress id fraction) := by
  have hupdate := @JobRepository.within_updateIfStatus kinds id _ _ _ none none none
    (lawfulEdit_segmentProgress fraction) h
  simp only [List.cons_subset] at h
  simp [reportSegmentProgress, hupdate, h, -one_div]

theorem within_runGenerator (id : JobId) (run : GeneratorRun) (h : [.read, .update] ⊆ kinds) :
    Within kinds (runGenerator id run) := by
  have hread : .read ∈ kinds := (List.cons_subset.mp h).1
  induction run with
  | returns result => simp [runGenerator]
  | report fraction rest ih | reportSegment fraction rest ih | pollContext rest ih
  | pollJob rest ih =>
    unfold runGenerator
    rw [within_bind, within_attempt]
    refine ⟨?_, fun answer _ => ih answer⟩
    simp [contextCancelled, h, hread]

@[simp] theorem within_updateStatus (id : JobId) {expected status : GenerationStatus}
    {progress : ℚ} (hexpected : ¬ expected.isTerminalStatus) (hstatus : status ≠ .queued)
    (hprogress : 0 ≤ progress ∧ progress ≤ 1) (h : [.read, .update] ⊆ kinds) :
    Within kinds (updateStatus id expected status progress) :=
  JobRepository.within_updateIfStatus (JobService.lawfulEdit_of [expected] (by simpa using hexpected)
    hstatus (by rintro fraction ⟨rfl⟩; exact hprogress)) h

theorem within_complete (id : JobId) (result : GenerationResult)
    (h : [.read, .update, .sync] ⊆ kinds) : Within kinds (complete id result) := by
  simp only [List.cons_subset] at h
  have hpost : Within kinds (updateStatus id .running .postprocessing (9 / 10)) :=
    within_updateStatus id (by decide) (by decide) (by norm_num) (by simp [h])
  simp [complete, Option.forall, hpost, h]

@[simp] theorem within_resolveClaimFailure (id : JobId) (e : Exc)
    (h : [.read, .update] ⊆ kinds) : Within kinds (resolveClaimFailure id e) := by
  simp only [List.cons_subset] at h
  simp [resolveClaimFailure, h]

@[simp] theorem within_claimJob (id : JobId) (h : .update ∈ kinds) :
    Within kinds (claimJob id) := by
  refine JobRepository.within_transitionIfStatus
    (JobService.lawfulEdit_of [.queued] (by decide) (by decide) ?_) h
  rintro fraction ⟨rfl⟩
  decide

theorem within_runRegistered (id : JobId) (job : JobRecord)
    (h : [.read, .update, .sync, .generate] ⊆ kinds) : Within kinds (runRegistered id job) := by
  simp only [List.cons_subset] at h
  have hrunning : Within kinds (updateStatus id .preparing .running (1 / 10)) :=
    within_updateStatus _ (by decide) (by decide) (by norm_num) (by simp [h])
  have hrun (run) : Within kinds (runGenerator id run) :=
    within_runGenerator id run (by simp [h])
  have hcomplete (result) : Within kinds (complete id result) :=
    within_complete id result (by simp [h])
  have hgenerate : Within kinds (generate id job) := by
    simp [generate, Option.forall, hrunning, hrun, h, -one_div]
  unfold runRegistered
  simp only [within_bind, within_ite, within_attempt, hgenerate, true_and]
  refine ⟨within_isCancelled _ h.1, fun cancelled _ =>
    ⟨fun _ => within_finalizeCancellation _ (by simp [h]), fun _ outcome _ => ?_⟩⟩
  rcases outcome with e | early | result
  · cases e <;> simp [h]
  · exact within_ret early
  · exact hcomplete result

theorem within_execute (id : JobId) (job : JobRecord)
    (h : [.read, .update, .sync, .generate] ⊆ kinds) : Within kinds (execute id job) := by
  have hregistered : Within kinds (runRegistered id job) := within_runRegistered id job h
  simp only [List.cons_subset] at h
  simp [execute, Option.forall, hregistered, h]

theorem within_processJob (id : JobId) (h : [.read, .update, .sync, .generate] ⊆ kinds) :
    Within kinds (processJob id) := by
  have hexecute (job) : Within kinds (execute id job) := within_execute id job h
  simp only [List.cons_subset] at h
  simp [processJob, Option.forall, hexecute, h]

@[simp] theorem within_quarantinePoisonJob (id : JobId) (e : Exc) (h : [.read, .update] ⊆ kinds) :
    Within kinds (quarantinePoisonJob id e) := by
  simp only [List.cons_subset] at h
  have hfail : Within kinds (JobRepository.transitionIfStatus id [.known .queued] (.known .failed)
      (some 1) (some (some e.text))) :=
    JobRepository.within_transitionIfStatus
      (JobService.lawfulEdit_of [.queued] (by decide) (by decide) JobService.one_mem_range) h.2.1
  unfold quarantinePoisonJob
  simp only [within_bind, within_attempt, hfail, true_and]
  intro outcome _
  rcases outcome with _ | _ | _
  · exact within_ret _
  · simp only [within_bind, within_attempt]
    refine ⟨JobRepository.within_getRawStatus id h.1, fun raw _ => ?_⟩
    rcases raw with _ | _ | _ | _
    · exact within_ret _
    · exact within_ret _
    · exact within_ret _
    · simp [except_forall, Bool.forall_bool, h]
  · exact within_ret _

theorem within_runOnce (lane : Option String)
    (h : [.read, .update, .sync, .generate, .enqueue, .dequeue] ⊆ kinds) :
    Within kinds (runOnce lane) := by
  simp only [List.cons_subset] at h
  have hprocess (id) : Within kinds (processJob id) := within_processJob id (by simp [h])
  simp [runOnce, Option.forall, hprocess, h]

end JobRunner

end CreativeStudio.Jobs
