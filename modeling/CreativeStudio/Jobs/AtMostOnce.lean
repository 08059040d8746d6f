import CreativeStudio.Jobs.Recovery

/-!
# A job runs at most once

The compare-and-set from `queued` to `preparing` hands out one execution claim, and the
generator is only invoked by the thread that holds it. No statement leads back to `queued`,
so there is no second claim, however often the id is delivered and whatever crashes.
-/

namespace CreativeStudio.Jobs
open Data Storage Batches Conc

/-- Calls of the job service that are not among those of the studio's requests. -/
inductive JobCall (env : Env) : App Unit → Prop
  | createOrReuseJob (id : JobId) (request : GenerationRequest) (projectId : Option String) :
      JobCall env (discard (JobService.createOrReuseJob env id request projectId))
  | markFailed (id : JobId) (message : String) :
      JobCall env (discard (JobService.markFailed id message))
  | markSucceeded (id : JobId) (result : GenerationResult) :
      JobCall env (discard (JobService.markSucceeded id result))
  | quarantinePoisonJob (id : JobId) (e : Exc) :
      JobCall env (discard (JobRunner.quarantinePoisonJob id e))
  | quarantineOrDefer (id : JobId) (e : Exc) :
      JobCall env (discard (quarantineOrDeferForBatchCancellation id e))

/-- The studio, in which jobs are also created, ended and quarantined directly. -/
def executionSystem (env : Env) : System Cmd World Exc where
  toMachine := studio env
  init w := w.claims = [] ∧ w.invoked = []
  calls _ w p := StudioCall env w p ∨ JobCall env p
  reset w w' := w' = w.crash

/-- The claims on a job, used and unused. -/
def executions (w : World) (job : JobId) : ℕ :=
  (w.claims.map Prod.snd).count job + w.invoked.count job

/-- A job has been claimed once at most, and then its row has left `queued`. -/
def ClaimedOnce (w : World) : Prop :=
  ∀ job, executions w job ≤ 1 ∧
    (executions w job ≠ 0 → ∃ row, w.row? job = some row ∧ row.status ≠ .known .queued)

/-- What a command that invokes a generator needs. -/
def HoldsClaim (t : Tid) : Cmd β → World → Prop
  | .generate id _, w => (t, id) ∈ w.claims
  | _, _ => True

/-- A thread keeps its claims, whatever the others do. -/
def executionDiscipline (env : Env) : Discipline (studio env) where
  inv := ClaimedOnce
  evolves _ _ := True
  keeps t w w' := ∀ job, (t, job) ∈ w.claims → (t, job) ∈ w'.claims
  ok t c w := HoldsClaim t c w
  base _ _ _ := True
  evolves_refl _ := trivial
  evolves_trans _ _ _ _ _ := trivial
  keeps_refl _ _ _ h := h
  keeps_trans _ _ _ _ h h' job hjob := h' job (h job hjob)

section Step
variable {env : Env} {t : Tid} {w w' : World}

/-- A row that has left `queued` stays out of it. -/
theorem leftQueued_of_step {c : Cmd β} {b : β} (hs : (b, w') ∈ (studio env).step t c w) {job : JobId}
    (h : ∃ row, w.row? job = some row ∧ row.status ≠ .known .queued) :
    ∃ row, w'.row? job = some row ∧ row.status ≠ .known .queued := by
  obtain ⟨row, hrow, hne⟩ := h
  obtain ⟨row', hrow', hchange⟩ := row_of_step hs hrow
  refine ⟨row', hrow', fun hqueued => hne ?_⟩
  rcases hchange with rfl | ⟨update, now, hrun, -⟩
  · exact hqueued
  · exact (hqueued ▸ update.statusChange hrun).eq_queued

/-- Moving a row from `queued` makes one claim; nothing else does. -/
theorem claims_replaceRow (w : World) (t : Tid) (id : JobId) (old new : JobRow) :
    (w.replaceRow t id old new).claims = w.claims ∨
      old.status = .known .queued ∧ new.status = .known .preparing ∧
        (w.replaceRow t id old new).claims = (t, id) :: w.claims := by
  unfold World.replaceRow
  by_cases h : old.status = .known .queued ∧ new.status = .known .preparing
  · exact .inr ⟨h.1, h.2, if_pos h⟩
  · exact .inl (if_neg h)

theorem mem_claims_replaceRow {id job : JobId} {old new : JobRow} {u : Tid}
    (h : (u, job) ∈ w.claims) : (u, job) ∈ (w.replaceRow t id old new).claims := by
  rcases claims_replaceRow w t id old new with hsame | ⟨-, -, hclaim⟩
  · rwa [hsame]
  · rw [hclaim]
    exact List.mem_cons_of_mem _ h

/-- An invocation uses one claim up. -/
theorem executions_generate {id : JobId} (h : (t, id) ∈ w.claims) (job : JobId) :
    executions { w with claims := w.claims.erase (t, id), invoked := id :: w.invoked } job =
      executions w job := by
  have hperm := ((List.perm_cons_erase h).map Prod.snd).count_eq job
  simp only [List.map_cons, List.count_cons] at hperm
  simp only [executions, List.count_cons]
  omega

/-- Every command keeps the invariant, and keeps the claims of other threads. -/
theorem claimedOnce_of_step (hinv : ClaimedOnce w) {c : Cmd β} {b : β}
    (hs : (b, w') ∈ (studio env).step t c w) (hok : HoldsClaim t c w) :
    (executionDiscipline env).Tolerated t w w' := by
  have hframe := frame_of_step hs
  by_cases hkind : c.kind ∈ [.update, .markDone, .generate]
  swap
  · have hclaims := hframe.claims hkind
    have hinvoked := hframe.invoked fun h => hkind (by rw [h]; decide)
    have hexec : executions w' = executions w := by
      funext job
      simp [executions, hclaims, hinvoked]
    refine ⟨fun job => ?_, trivial, fun u _ job hjob => hclaims ▸ hjob⟩
    rw [hexec]
    exact ⟨(hinv job).1, fun h => leftQueued_of_step hs ((hinv job).2 h)⟩
  cases c with
  | updateJob id update =>
    rcases updateJob_cases hs with ⟨-, rfl⟩ | ⟨old, new, -, hold, -, rfl⟩
    · exact .refl hinv
    refine ⟨fun job => ?_, trivial, fun u _ job hjob => mem_claims_replaceRow hjob⟩
    have hinvoked : (w.replaceRow t id old new).invoked = w.invoked := rfl
    rcases claims_replaceRow w t id old new with hsame | ⟨hqueued, hpreparing, hclaim⟩
    · have hexec : executions (w.replaceRow t id old new) job = executions w job := by
        simp [executions, hsame, hinvoked]
      rw [hexec]
      exact ⟨(hinv job).1, fun h => leftQueued_of_step hs ((hinv job).2 h)⟩
    · -- a row that is `queued` has not been claimed before
      have hzero : executions w id = 0 := by
        by_contra hne
        obtain ⟨row, hrow, hleft⟩ := (hinv id).2 hne
        obtain rfl : row = old := Option.some.inj (hrow.symm.trans hold)
        exact hleft hqueued
      have hexec : executions (w.replaceRow t id old new) job =
          executions w job + if id = job then 1 else 0 := by
        simp only [executions, hclaim, hinvoked, List.map_cons, List.count_cons, beq_iff_eq]
        omega
      rw [hexec]
      by_cases hid : id = job
      · subst hid
        exact ⟨by simp [hzero], fun _ => ⟨new, by simp, by simp [hpreparing]⟩⟩
      · simp only [hid, if_false, add_zero]
        exact ⟨(hinv job).1, fun h => leftQueued_of_step hs ((hinv job).2 h)⟩
  | generate id request =>
    simp only [step, List.mem_map, Prod.mk.injEq] at hs
    obtain ⟨run, -, rfl, rfl⟩ := hs
    refine ⟨fun job => ?_, trivial, fun u hu job hjob => ?_⟩
    · rw [executions_generate hok]
      exact hinv job
    · refine (List.mem_erase_of_ne ?_).mpr hjob
      rintro ⟨rfl⟩
      exact hu rfl
  | _ => simp at hkind

end Step

/-! ## The calls -/

/-- Every kind of command but the invocation of a generator. -/
abbrev quietKinds : List Kind :=
  [.read, .insert, .update, .markDone, .writeBatch, .lock, .enqueue, .dequeue, .poison, .draw,
    .sync, .replay, .note, .phase]

section Calls
variable {env : Env} {t : Tid}

theorem holdsClaim_of_quiet {c : Cmd β} (hc : c.Within quietKinds) (w : World) :
    HoldsClaim t c w := by
  cases c with
  | generate => simp at hc
  | _ => trivial

theorem free_of_quiet {c : Cmd β} (hc : c.Within quietKinds) :
    (executionDiscipline env).Free t c := fun w hinv =>
  ⟨holdsClaim_of_quiet hc w, fun _ _ hs _ =>
    claimedOnce_of_step hinv hs (holdsClaim_of_quiet hc w)⟩

/-- A program that invokes no generator may run anywhere. -/
theorem safe_of_quiet {p : App α} (hp : Within quietKinds p) :
    (executionDiscipline env).Safe t p :=
  Discipline.safe_of_uses (fun _ hc => free_of_quiet hc) hp

/-- A program that invokes no generator leaves its thread's claim alone. -/
theorem keeps_claim {p : App α} (hp : Within quietKinds p) {id : JobId} {w : World}
    (hclaim : (t, id) ∈ w.claims) :
    (executionDiscipline env).wp t p (fun _ w' => (t, id) ∈ w'.claims) w := by
  refine Discipline.wp_of_uses (fun _ hc => free_of_quiet hc) ?_
    (fun _ _ hint h => hint.keeps id h) hp hclaim
  intro β c b w w' hc hw hs
  by_cases hkind : c.kind ∈ [.update, .markDone, .generate]
  swap
  · rwa [(frame_of_step hs).claims hkind]
  cases c with
  | updateJob target update =>
    rcases updateJob_cases hs with ⟨-, rfl⟩ | ⟨old, new, -, -, -, rfl⟩
    · exact hw
    · exact mem_claims_replaceRow hw
  | generate => simp at hc
  | _ => simp at hkind

/-- Winning the compare-and-set is a claim. -/
theorem claimJob_spec (id : JobId) (w : World) :
    (executionDiscipline env).wp t (JobRunner.claimJob id)
      (fun r w' => r = .ok true → (t, id) ∈ w'.claims) w := by
  refine Discipline.wp_call fun w₁ hint => ⟨trivial, fun r w₂ hs _ =>
    ⟨claimedOnce_of_step hint.inv hs trivial, ?_⟩⟩
  rintro rfl
  rcases updateJob_cases hs with ⟨hne, -⟩ | ⟨old, new, -, -, hrun, rfl⟩
  · exact absurd rfl hne
  · obtain ⟨hholds, rfl⟩ := JobUpdate.run_eq_some.mp hrun
    have hqueued : old.status = .known .queued := by
      have hmem : old.status ∈ [StatusText.known .queued] :=
        Condition.mem_of_holds hholds (by simp [JobUpdate.edit])
      simpa using hmem
    rcases claims_replaceRow w₁ t id old _ with hsame | ⟨-, -, hclaim⟩
    · simp [World.replaceRow, hqueued, JobUpdate.edit, Assignments.apply]
    · rw [hclaim]
      exact List.mem_cons_self

/-- The thread that holds the claim may invoke the generator, once. -/
theorem generate_spec {id : JobId} (job : JobRecord) {w : World} (hclaim : (t, id) ∈ w.claims) :
    (executionDiscipline env).wp t (JobRunner.generate id job) (fun _ _ => True) w := by
  have hrunning : Within quietKinds (JobRunner.updateStatus id .preparing .running (1 / 10)) :=
    JobRunner.within_updateStatus id (by decide) (by decide) (by norm_num) (by decide)
  have hrun (run) : Within quietKinds (JobRunner.runGenerator id run) :=
    JobRunner.within_runGenerator id run (by decide)
  unfold JobRunner.generate
  refine Discipline.wp_bind (Discipline.wp_mono (keeps_claim (by simp) hclaim) ?_)
  rintro (e | _) w₁ hw₁ -
  · trivial
  refine Discipline.wp_bind (Discipline.wp_mono (keeps_claim hrunning hw₁) ?_)
  rintro (e | _ | claimed) w₂ hw₂ -
  · trivial
  · exact (safe_of_quiet (by simp)) w₂
  · refine Discipline.wp_bind (Discipline.wp_exec fun w₃ hint =>
      ⟨hint.keeps id hw₂, fun run w₄ hs _ =>
        ⟨claimedOnce_of_step hint.inv hs (hint.keeps id hw₂), fun _ => ?_⟩⟩)
    exact safe_of_quiet (by simp [hrun]) w₄

theorem runRegistered_spec {id : JobId} (job : JobRecord) {w₁ : World} (hw₁ : (t, id) ∈ w₁.claims) :
    (executionDiscipline env).wp t (JobRunner.runRegistered id job) (fun _ _ => True) w₁ := by
  have hcomplete (result) : Within quietKinds (JobRunner.complete id result) :=
    JobRunner.within_complete id result (by decide)
  unfold JobRunner.runRegistered
  refine Discipline.wp_bind (Discipline.wp_mono (keeps_claim (by simp) hw₁) ?_)
  rintro (e | cancelled) w₂ hw₂ -
  · trivial
  cases cancelled with
  | true => exact safe_of_quiet (by simp) w₂
  | false =>
    refine Discipline.wp_bind (Discipline.wp_attempt (Discipline.wp_mono (generate_spec job hw₂) ?_))
    intro outcome w₃ _ _
    match outcome with
    | .ok (.inl early) => trivial
    | .ok (.inr result) => exact safe_of_quiet (hcomplete result) w₃
    | .error e => cases e <;> exact safe_of_quiet (by simp) w₃

theorem execute_spec {id : JobId} (job : JobRecord) {w : World} (hclaim : (t, id) ∈ w.claims) :
    (executionDiscipline env).wp t (JobRunner.execute id job) (fun _ _ => True) w := by
  unfold JobRunner.execute
  refine Discipline.wp_bind (Discipline.wp_mono (keeps_claim (by simp) hclaim) ?_)
  rintro (e | _ | claimed) w₁ hw₁ -
  · trivial
  · trivial
  refine Discipline.wp_bind (Discipline.wp_mono (keeps_claim (by simp) hw₁) ?_)
  rintro (e | token) w₂ hw₂ -
  · trivial
  -- the claim is used up inside; what follows needs nothing
  have hafter (r : Except Exc (Option JobRecord)) : (executionDiscipline env).Safe t (do
      Prog.exec (.registryEnd id token)
      Prog.ofExcept r) := safe_of_quiet (by simp)
  have hresolved : (executionDiscipline env).wp t
      ((JobRunner.runRegistered id job).orElse fun e => JobRunner.resolveClaimFailure id e)
      (fun _ _ => True) w₂ := by
    refine Discipline.wp_bind (Discipline.wp_attempt (Discipline.wp_mono (runRegistered_spec job hw₂) ?_))
    intro outcome w₃ _ _
    cases outcome with
    | ok a => trivial
    | error e => exact safe_of_quiet (by simp) w₃
  refine Discipline.wp_bind (Discipline.wp_attempt (Discipline.wp_mono hresolved ?_))
  intro r w₃ _ _
  exact hafter r w₃

theorem safe_processJob (id : JobId) : (executionDiscipline env).Safe t (JobRunner.processJob id) := by
  refine Discipline.Safe.bind (safe_of_quiet (by simp)) fun row => ?_
  cases row with
  | none => exact Discipline.safe_ret _
  | some job =>
    simp only
    split
    · exact Discipline.safe_ret _
    intro w
    refine Discipline.wp_bind (Discipline.wp_mono (claimJob_spec id w) ?_)
    rintro (e | won) w₁ hw₁ -
    · trivial
    cases won with
    | false => exact safe_of_quiet (by simp) w₁
    | true =>
      refine Discipline.wp_bind (Discipline.wp_attempt
        (Discipline.wp_mono (execute_spec job (hw₁ rfl)) ?_))
      intro outcome w₂ _ _
      cases outcome with
      | ok a => trivial
      | error e => exact safe_of_quiet (by simp) w₂

theorem safe_runOnce (lane : Option String) :
    (executionDiscipline env).Safe t (JobRunner.runOnce lane) := by
  refine Discipline.Safe.bind (safe_of_quiet (by simp)) fun next => ?_
  cases next with
  | none => exact Discipline.safe_ret _
  | some id =>
    refine Discipline.Safe.orElse (safe_processJob id) fun e => safe_of_quiet ?_
    simp

theorem safe_of_subscriberCall {p : App Unit} (h : SubscriberCall env p) :
    (executionDiscipline env).Safe t p := by
  cases h with
  | batch id => exact safe_of_quiet (BatchService.within_handleJobEvent env id (by decide))
  | completion id =>
    exact safe_of_quiet (CompletionConverger.within_handleJobEvent env id (by decide))

theorem safe_of_serviceCall {p : App Unit} (h : ServiceCall env p) :
    (executionDiscipline env).Safe t p := by
  cases h with
  | runOnce lane => exact (safe_runOnce lane).bind fun _ => Discipline.safe_ret _
  | processJob id => exact (safe_processJob id).bind fun _ => Discipline.safe_ret _
  | retryTick => exact safe_of_quiet (CompletionConverger.within_retryTick env (by decide))
  | _ => exact safe_of_quiet (by simp)

theorem safe_of_jobCall {p : App Unit} (h : JobCall env p) : (executionDiscipline env).Safe t p := by
  cases h <;> exact safe_of_quiet (by simp)

theorem safe_of_studioCall {w : World} {p : App Unit} (h : StudioCall env w p) :
    (executionDiscipline env).Safe t p := by
  unfold StudioCall at h
  split at h
  · rw [h]
    exact safe_of_quiet (StartupRecovery.within_start env (by decide))
  · exact safe_of_subscriberCall h
  · rcases h with h | h
    · exact safe_of_subscriberCall h
    · exact safe_of_serviceCall h

end Calls

theorem sound_executionDiscipline (env : Env) :
    System.Sound (S := executionSystem env) (executionDiscipline env) where
  init w h job := by simp [executions, h.1, h.2]
  calls t w p _ h := by
    rcases h with h | h
    · exact safe_of_studioCall h w
    · exact safe_of_jobCall h w
  reset w w' hinv h job := by
    subst h
    have hle : executions w.crash job ≤ executions w job := by
      simp [executions, World.crash]
    exact ⟨hle.trans (hinv job).1, fun hne => (hinv job).2 (by omega)⟩
  base _ _ _ _ _ _ _ _ _ _ := trivial

/-- In every run, whatever is delivered, cancelled, ended, quarantined or crashes, the
generator of a job is invoked at most once. -/
theorem invoked_atMostOnce (env : Env) {c : Config Cmd World Exc}
    (hc : (executionSystem env).Reachable c) (job : JobId) : c.state.invoked.count job ≤ 1 := by
  have hinv := ((sound_executionDiscipline env).good hc).inv job
  unfold executions at hinv
  omega

/-- A job that waits to be run. -/
def waitingJob : JobRecord where
  id := 3
  projectId := none
  mediaType := .image
  status := .queued
  request := {
    mediaType := .image, taskType := none, prompt := "", negativePrompt := none, modelId := ""
    seed := none, outputFormat := none, params := [], references := [] }
  createdAt := 0
  updatedAt := 0

/-- A studio with one generator, which returns nothing. -/
def renderingEnv : Env :=
  { Env.plain with
    generators := fun id _ =>
      [.returns (.ok { jobId := id, outputs := [], previews := [], metadata := [] })] }

/-- The waiting job, delivered twice. -/
def deliveredTwice : World where
  jobs := AList.insert 3 (JobRow.ofRecord waitingJob) ∅
  files := ∅
  phase := .serving

/-- Both deliveries find the job queued; one of them wins the claim and runs it. -/
theorem invoked_atMostOnce_deliveredTwice :
    ∃ c, (executionSystem renderingEnv).Reachable c ∧ c.state.invoked = [3] ∧
      c.state.invoked.count 3 ≤ 1 := by
  have hinit : (executionSystem renderingEnv).Reachable ⟨deliveredTwice, fun _ => .ret ()⟩ :=
    ⟨_, ⟨⟨rfl, rfl⟩, fun _ => rfl⟩, .refl⟩
  have hcall (t : Tid) (th : Tid → App Unit) (hidle : (th t).Idle) :
      (executionSystem renderingEnv).Step ⟨deliveredTwice, th⟩
        ⟨deliveredTwice, Function.update th t (discard (JobRunner.processJob 3))⟩ :=
    .call hidle (.inl (.inr (.processJob 3)))
  have hboth := (hinit.step (hcall 0 _ trivial)).step (hcall 1 _ trivial)
  have hrun : ((executionSystem renderingEnv).runSchedule
      [(0, 0), (1, 0), (1, 0), (0, 0), (0, 0), (1, 0), (1, 0), (1, 0), (1, 0), (1, 0), (1, 0), (1, 0)]
      ⟨deliveredTwice, Function.update (Function.update (fun _ => .ret ()) 0
        (discard (JobRunner.processJob 3))) 1 (discard (JobRunner.processJob 3))⟩).map
          (fun c => c.state.invoked) = some [3] := by decide +kernel
  obtain ⟨c, hc, hinvoked⟩ := Option.map_eq_some_iff.mp hrun
  have hreach := System.reachable_runSchedule hboth hc
  exact ⟨c, hreach, hinvoked, invoked_atMostOnce renderingEnv hreach 3⟩

end CreativeStudio.Jobs
