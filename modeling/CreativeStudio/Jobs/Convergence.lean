import CreativeStudio.Conc.Executions
import CreativeStudio.Jobs.Completion

/-!
# How one attempt to converge a job ends

`converge_job` catches what its effects raise. What it does not catch is its own bookkeeping:
the write that marks the job, or that records why it could not be marked, is the last command
of an attempt, and an exception of it leaves the call.
-/

namespace CreativeStudio.Jobs
open Data Storage Batches Conc

/-! ## What leaves a completion mark alone -/

/-- The stored `completion_state` of a job. -/
def completionState? (w : World) (id : JobId) : Option (Column CompletionState) :=
  (w.row? id).map JobRow.completionState

theorem completionState_of_run {update : JobUpdate} {now : ℕ} {row row' : JobRow}
    (h : update.run now row = some row') (hset : update.set.completionState = none) :
    row'.completionState = row.completionState := by
  obtain ⟨-, rfl⟩ := JobUpdate.run_eq_some.mp h
  simp [Assignments.apply, assign, hset]

/-- Only `mark_completion_done` changes the completion state of a row that exists. -/
theorem completionState?_of_step {env : Env} {t : Tid} {c : Cmd β} {w w' : World} {b : β} {id : JobId}
    {state : Column CompletionState} (h : (b, w') ∈ (studio env).step t c w) (hkind : c.kind ≠ .markDone)
    (hstate : completionState? w id = some state) : completionState? w' id = some state := by
  obtain ⟨row, hrow, rfl⟩ := Option.map_eq_some_iff.mp hstate
  by_cases hjobs : c.kind ∈ [.insert, .update, .markDone]
  swap
  · rw [completionState?, World.row?, (frame_of_step h).jobs hjobs]
    exact hstate
  cases c with
  | insertJob new inserted =>
    rcases insertJob_cases h with ⟨-, rfl⟩ | ⟨-, hnone, rfl⟩
    · exact hstate
    · have hne : id ≠ new := by
        rintro rfl
        rw [hnone] at hrow
        cases hrow
      simpa [completionState?, World.row?, AList.lookup_insert_ne hne] using hstate
  | updateJob target update =>
    rcases updateJob_cases h with ⟨-, rfl⟩ | ⟨old, new, -, hold, hrun, rfl⟩
    · exact hstate
    · by_cases hid : id = target
      · subst hid
        obtain rfl : old = row := Option.some.inj (hold.symm.trans hrow)
        have hset : update.set.completionState = none := by
          by_contra hset
          exact hkind (if_pos (Option.isSome_iff_ne_none.mpr hset))
        simp [completionState?, completionState_of_run hrun hset]
      · rw [completionState?, row?_replaceRow_of_ne w t old new hid]
        exact hstate
  | _ => simp [Cmd.kind] at hjobs

theorem completionState?_of_runs {env : Env} {t : Tid} {kinds : List Kind} {p : App α} {w w' : World}
    {τ : List (Transition Cmd World)} {r : Except Exc α} {id : JobId} {state : Column CompletionState}
    (h : Runs (studio env) Alone t p w τ r w') (hp : Within kinds p) (hkinds : .markDone ∉ kinds)
    (hstate : completionState? w id = some state) : completionState? w' id = some state :=
  h.preserves hp (fun _ _ _ _ hc hstep hs => completionState?_of_step hstep
    (fun hkind => hkinds (hkind ▸ hc.1)) hs) (fun _ _ hother => hother.elim) hstate

/-- A program that only reads leaves the jobs as they are. -/
theorem jobs_of_runs {env : Env} {t : Tid} {kinds : List Kind} {p : App α} {w w' : World}
    {τ : List (Transition Cmd World)} {r : Except Exc α} (h : Runs (studio env) Alone t p w τ r w')
    (hp : Within kinds p) (hkinds : ∀ kind ∈ kinds, kind ∉ [.insert, .update, .markDone]) :
    w'.jobs = w.jobs := by
  have hown {β : Type} (c : Cmd β) (b : β) (s s' : World) (hc : c.Within kinds)
      (hstep : (b, s') ∈ (studio env).step t c s) (hs : s.jobs = w.jobs) : s'.jobs = w.jobs := by
    rw [(frame_of_step hstep).jobs (hkinds _ hc.1), hs]
  exact h.preserves hp hown (fun _ _ hother => hother.elim) rfl

namespace CompletionConverger

/-! ## The end of an attempt -/

/-- The statements of `mark_completion_done` and `mark_completion_pending_with_error`. -/
def IsBookkeeping (update : JobUpdate) : Prop :=
  update = .completionDone ∨ ∃ message, update = .completionPending message

/-- The attempt ends with a bookkeeping write that raised. -/
def BookkeepingRaised (id : JobId) (τ : List (Transition Cmd World)) : Prop :=
  ∃ step ∈ τ.getLast?, ∃ update e, IsBookkeeping update ∧ step.own = some ⟨.updateJob id update, .error e⟩

/-- What is promised of an attempt: it returns, and unless it marked the job or had nothing to
do, the stored completion state is what it was. -/
def Converges (id : JobId) (w : World) (r : Except Exc CompletionOutcome) (w' : World) : Prop :=
  ∃ outcome, r = .ok outcome ∧
    (outcome ∉ [.done, .safeNoop] → completionState? w' id = completionState? w id)

/-- How an attempt ends: it has not written anything, or its last command is its bookkeeping. -/
inductive Ending (id : JobId) (w : World) :
    List (Transition Cmd World) → Except Exc CompletionOutcome → World → Prop
  | untouched {τ : List (Transition Cmd World)} {outcome : CompletionOutcome} {w' : World}
      (hquiet : ¬ BookkeepingRaised id τ) (hkept : w'.jobs = w.jobs) : Ending id w τ (.ok outcome) w'
  | marked {τ : List (Transition Cmd World)} {outcome : CompletionOutcome} {w₁ w' : World}
      {update : JobUpdate} {answer : Except Exc Bool} (hupdate : IsBookkeeping update)
      (hkept : outcome ≠ .done → completionState? w' id = completionState? w id) :
      Ending id w (τ ++ [⟨w₁, some ⟨.updateJob id update, answer⟩, w'⟩]) (answer.map fun _ => outcome) w'

/-- An attempt returns unless its bookkeeping raised. -/
theorem Ending.returns_iff {id : JobId} {w w' : World} {τ : List (Transition Cmd World)}
    {r : Except Exc CompletionOutcome} (h : Ending id w τ r w') :
    (∃ outcome, r = .ok outcome) ↔ ¬ BookkeepingRaised id τ := by
  cases h with
  | @untouched _ outcome _ hquiet hkept => exact iff_of_true ⟨outcome, rfl⟩ hquiet
  | @marked τ outcome w₁ _ update answer hupdate hkept =>
    cases answer with
    | error e =>
      refine iff_of_false ?_ fun hquiet => hquiet ⟨_, List.getLast?_concat, update, e, hupdate, rfl⟩
      rintro ⟨outcome, hr⟩
      cases hr
    | ok matched =>
      refine iff_of_true ⟨outcome, rfl⟩ ?_
      rintro ⟨step, hlast, update', e, -, hown⟩
      rw [List.getLast?_concat] at hlast
      obtain rfl := Option.some.inj hlast
      cases hown

/-- Whatever an attempt returns, it has marked the job or left its completion state alone. -/
theorem Ending.kept {id : JobId} {w w' : World} {τ : List (Transition Cmd World)}
    {outcome : CompletionOutcome} (h : Ending id w τ (.ok outcome) w') (hne : outcome ≠ .done) :
    completionState? w' id = completionState? w id := by
  generalize hr : (Except.ok outcome : Except Exc CompletionOutcome) = r at h
  cases h with
  | untouched hquiet hkept =>
    rw [completionState?, World.row?, hkept]
    rfl
  | @marked τ outcome' w₁ _ update answer hupdate hkept =>
    cases answer with
    | error e => cases hr
    | ok matched =>
      obtain rfl : outcome = outcome' := Except.ok.inj hr
      exact hkept hne

/-- A bookkeeping write, and the outcome that follows it. -/
theorem runs_mark {env : Env} {t : Tid} {id : JobId} {update : JobUpdate} {outcome : CompletionOutcome}
    {w w' : World} {τ : List (Transition Cmd World)} {r : Except Exc CompletionOutcome}
    (h : Runs (studio env) Alone t (Prog.call (.updateJob id update) >>= fun _ => .ret outcome) w τ r w') :
    ∃ answer, τ = [⟨w, some ⟨.updateJob id update, answer⟩, w'⟩] ∧ r = answer.map (fun _ => outcome) ∧
      (answer, w') ∈ (studio env).step t (.updateJob id update) w := by
  rcases h.of_bind with ⟨e, rfl, hcall⟩ | ⟨matched, w₁, τ₁, τ₂, rfl, hcall, hret⟩
  · obtain ⟨rfl, hstep⟩ := hcall.of_call
    exact ⟨.error e, rfl, rfl, hstep⟩
  · obtain ⟨rfl, hstep⟩ := hcall.of_call
    obtain ⟨rfl, rfl, rfl⟩ := hret.of_ret
    exact ⟨.ok matched, rfl, rfl, hstep⟩

section Attempt
variable {env : Env} {t : Tid} {id : JobId} {w w₁ w' : World} {τ τ₀ : List (Transition Cmd World)}
  {r : Except Exc CompletionOutcome}

/-- An attempt that records why the job could not be marked. -/
theorem ends_pending {message : String} {outcome : CompletionOutcome} {state : Column CompletionState}
    (hstate : completionState? w id = some state) (hstate₁ : completionState? w₁ id = some state)
    (h : Runs (studio env) Alone t (do
      let _ ← JobRepository.markCompletionPendingWithError id message
      pure outcome) w₁ τ r w') : Ending id w (τ₀ ++ τ) r w' := by
  obtain ⟨answer, rfl, rfl, hstep⟩ := runs_mark h
  refine .marked (.inr ⟨message, rfl⟩) fun _ => ?_
  rw [hstate]
  exact completionState?_of_step hstep (by simp [JobUpdate.completionPending]) hstate₁

/-- The end of an attempt whose effects did not raise. -/
theorem ends_settle {effects : ReplayOutcome × Bool} {state : Column CompletionState}
    (hstate : completionState? w id = some state) (hstate₁ : completionState? w₁ id = some state)
    (h : Runs (studio env) Alone t (settle id effects) w₁ τ r w') : Ending id w (τ₀ ++ τ) r w' := by
  match effects with
  | (.retryable, _) | (.ambiguous, _) | (.converged, true) => exact ends_pending hstate hstate₁ h
  | (.converged, false) =>
    obtain ⟨answer, rfl, rfl, -⟩ := runs_mark h
    exact .marked (.inl rfl) fun hne => absurd rfl hne

/-- Reading is no bookkeeping. -/
theorem not_bookkeepingRaised {kinds : List Kind} {p : App α} {s : World} {r : Except Exc α}
    (h : Runs (studio env) Alone t p w τ r s) (hp : Within kinds p)
    (hkinds : ∀ kind ∈ kinds, kind ∉ [.insert, .update, .markDone]) : ¬ BookkeepingRaised id τ := by
  rintro ⟨step, hlast, update, e, -, hown⟩
  have hkind := hkinds _ (h.own_of_uses hp (List.mem_of_getLast? hlast) hown).1
  simp only [Cmd.kind] at hkind
  split at hkind <;> simp at hkind

/-- What an attempt reads before it decides whether there is anything to do. -/
def readJob (id : JobId) : App (Except Exc (Option JobRecord)) := do
  Prog.exec (.beginAttempt id)
  (JobRepository.get id).attempt

/-- A job that was read has a row. -/
theorem completionState_of_readJob {job : JobRecord}
    (h : Runs (studio env) Alone t (readJob id) w τ (.ok (.ok (some job))) w₁) :
    ∃ state, completionState? w id = some state := by
  rcases h.of_bind with ⟨e, he, -⟩ | ⟨_, w₂, τ₁, τ₂, rfl, hbegin, hget⟩
  · cases he
  have hnote : Within [.note] (Prog.exec (.beginAttempt id) : App Unit) := by simp
  have hjobs : w₂.jobs = w.jobs := jobs_of_runs hbegin hnote (by simp)
  obtain ⟨r', hr', hget⟩ := hget.of_attempt
  obtain rfl := Except.ok.inj hr'
  rcases hget.of_bind with ⟨e, he, -⟩ | ⟨row, w₃, τ₃, τ₄, rfl, hselect, hdecode⟩
  · cases he
  obtain ⟨-, hselect⟩ := hselect.of_call
  rcases mem_fallible hselect with hrow | ⟨hfault, -⟩
  · simp only [List.mem_singleton, Prod.mk.injEq, Except.ok.injEq] at hrow
    obtain ⟨rfl, rfl⟩ := hrow
    cases hrow : w₃.row? id with
    | none =>
      rw [hrow] at hdecode
      obtain ⟨hnone, -⟩ := hdecode.of_ret
      cases hnone
    | some row =>
      rw [World.row?, hjobs] at hrow
      exact ⟨row.completionState, by rw [completionState?, World.row?, hrow]; rfl⟩
  · cases hfault

/-- What the effects of a job take: nothing that marks it. -/
abbrev effectKinds : List Kind := .sync :: .replay :: BatchService.childKinds

@[simp] theorem within_applyEffects (job : JobRecord) (index : Option BatchService.OwnershipIndex) :
    Within effectKinds (applyEffects env job index) := by
  have hchild : BatchService.childKinds ⊆ effectKinds := by decide
  simp [applyEffects, convergeStory, hchild]

/-- What every attempt comes to. -/
theorem convergeJob_ends {index : Option BatchService.OwnershipIndex}
    (h : Runs (studio env) Alone t (convergeJob env id index) w τ r w') : Ending id w τ r w' := by
  have hkinds : ∀ kind ∈ [Kind.note, .read], kind ∉ [.insert, .update, .markDone] := by decide
  have hwithin : Within [.note, .read] (readJob id) := by simp [readJob]
  unfold convergeJob at h
  rw [← bind_assoc] at h
  rcases Runs.of_bind h with ⟨e, rfl, hread⟩ | ⟨answer, w₁, τ₁, τ₂, rfl, hread, h⟩
  · obtain ⟨answer, hanswer⟩ := hread.ok_of_exec_attempt
    cases hanswer
  have huntouched {outcome : CompletionOutcome} (h : Runs (studio env) Alone t (.ret outcome) w₁ τ₂ r w') :
      Ending id w (τ₁ ++ τ₂) r w' := by
    obtain ⟨rfl, rfl, rfl⟩ := h.of_ret
    rw [List.append_nil]
    exact .untouched (not_bookkeepingRaised hread hwithin hkinds) (jobs_of_runs hread hwithin hkinds)
  match answer with
  | .error _ | .ok none => exact huntouched h
  | .ok (some job) =>
    obtain ⟨state, hstate⟩ := completionState_of_readJob hread
    have hstate₁ : completionState? w₁ id = some state := completionState?_of_runs hread hwithin (by decide) hstate
    simp only at h
    split at h
    · exact huntouched h
    split at h
    · exact huntouched h
    rw [← bind_assoc] at h
    rcases Runs.of_bind h with ⟨e, rfl, heffects⟩ | ⟨effects, w₂, τ₃, τ₄, rfl, heffects, h⟩
    · obtain ⟨answer, hanswer⟩ := heffects.ok_of_exec_attempt
      cases hanswer
    have hstate₂ : completionState? w₂ id = some state := by
      refine completionState?_of_runs heffects (?_ : Within effectKinds _) (by decide) hstate₁
      simp
    rw [← List.append_assoc]
    match effects with
    | .error e => exact ends_pending hstate hstate₂ h
    | .ok effects => exact ends_settle hstate hstate₂ h

/-- An attempt keeps its promise exactly when its bookkeeping does not raise. -/
theorem convergeJob_converges_iff {index : Option BatchService.OwnershipIndex}
    (h : Runs (studio env) Alone t (convergeJob env id index) w τ r w') :
    Converges id w r w' ↔ ¬ BookkeepingRaised id τ := by
  have hends := convergeJob_ends h
  rw [← hends.returns_iff]
  constructor
  · rintro ⟨outcome, hr, -⟩
    exact ⟨outcome, hr⟩
  · rintro ⟨outcome, rfl⟩
    refine ⟨outcome, rfl, fun hne => hends.kept ?_⟩
    rintro rfl
    exact hne (by simp)

/-- The subscriber of the event bus is aborted by nothing else. -/
theorem handleJobEvent_returns_iff {r : Except Exc Unit}
    (h : Runs (studio env) Alone t (handleJobEvent env id) w τ r w') :
    r = .ok () ↔ ¬ BookkeepingRaised id τ := by
  rcases Runs.of_bind h with ⟨e, rfl, hjob⟩ | ⟨outcome, w₁, τ₁, τ₂, rfl, hjob, hret⟩
  · rw [← (convergeJob_ends hjob).returns_iff]
    simp
  · obtain ⟨rfl, rfl, rfl⟩ := hret.of_ret
    rw [List.append_nil, ← (convergeJob_ends hjob).returns_iff]
    exact iff_of_true rfl ⟨outcome, rfl⟩

end Attempt

/-! ### Where the bookkeeping raises -/

/-- A job that failed, and that nothing has converged yet. -/
def failedJob : JobRecord where
  id := 0
  projectId := none
  mediaType := .image
  status := .failed
  request := {
    mediaType := .image, taskType := none, prompt := "a lighthouse", negativePrompt := none
    modelId := "", seed := none, outputFormat := none, params := [], references := [] }
  createdAt := 0
  updatedAt := 0

/-- The failed job, and no batch. -/
def failedWorld : World where
  jobs := AList.insert 0 (JobRow.ofRecord failedJob) ∅
  files := ∅

/-- The storage may fail. -/
def faultyEnv : Env := { Env.plain with faults := true }

/-- The steps of an attempt whose last write has the outcome of this number. -/
def failedAttempt (n : ℕ) : Option (List (Transition Cmd World) × Except Exc CompletionOutcome × World) :=
  (studio faultyEnv).follow 0 (convergeJob faultyEnv 0 (some ([], true))) [0, 0, 0, n] failedWorld

example : ((failedAttempt 0).map fun (_, r, _) => r) = some (.ok .done) := by decide +kernel

/-- The mark of a failed job raises, and so does the attempt. -/
theorem not_converges_failedJob :
    ¬ ∀ (env : Env) (t : Tid) (id : JobId) (index : Option BatchService.OwnershipIndex) (w w' : World)
      (τ : List (Transition Cmd World)) (r : Except Exc CompletionOutcome),
      Runs (studio env) Alone t (convergeJob env id index) w τ r w' → Converges id w r w' := by
  intro h
  have hfollow : ((failedAttempt 1).map fun (_, r, _) => r) = some (.error .storage) := by decide +kernel
  obtain ⟨⟨τ, r, w'⟩, hattempt, rfl⟩ := Option.map_eq_some_iff.mp hfollow
  obtain ⟨outcome, hr, -⟩ := h _ _ _ _ _ _ _ _ (runs_of_follow hattempt)
  cases hr

/-- The same attempt with a mark that is written. -/
theorem convergeJob_converges_failedJob :
    ∃ τ w', Runs (studio faultyEnv) Alone 0 (convergeJob faultyEnv 0 (some ([], true))) failedWorld τ
      (.ok .done) w' ∧ (Converges 0 failedWorld (.ok .done) w' ↔ ¬ BookkeepingRaised 0 τ) := by
  have hfollow : ((failedAttempt 0).map fun (_, r, _) => r) = some (.ok .done) := by decide +kernel
  obtain ⟨⟨τ, r, w'⟩, hattempt, rfl⟩ := Option.map_eq_some_iff.mp hfollow
  have hruns := runs_of_follow hattempt
  exact ⟨τ, w', hruns, convergeJob_converges_iff hruns⟩

end CompletionConverger

end CreativeStudio.Jobs
