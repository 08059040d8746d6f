import CreativeStudio.Jobs.Ownership
import CreativeStudio.Jobs.AtMostOnce

/-!
# A claim that is won is resolved

`process_job` from its first read on, beside any number of threads that cancel the job. The
compare-and-set of `_claim_job` makes the call the owner of the job; from there on the lemmas
about the owner apply.
-/

namespace CreativeStudio.Jobs
open Data Storage Conc

/-- The statement of `_claim_job`. -/
def claimUpdate : JobUpdate := .edit (some .preparing) (some 0) none none none (some [.known .queued])

@[simp] theorem claimJob_eq (id : JobId) :
    JobRunner.claimJob id = Prog.call (.updateJob id claimUpdate) := rfl

/-- The call has won the claim: its compare-and-set has matched the row. -/
def WinsClaim (id : JobId) (τ : List (Transition Cmd (Config Cmd World Exc))) : Prop :=
  ∃ step ∈ τ, step.own = some ⟨.updateJob id claimUpdate, .ok true⟩

/-- A request to cancel has moved the row to `cancel_requested`. -/
def CancelMoved (id : JobId) (τ : List (Transition Cmd (Config Cmd World Exc))) : Prop :=
  ∃ step ∈ τ, step.own = none ∧ statusOf step.before.state id ≠ some (.known .cancelRequested) ∧
    statusOf step.after.state id = some (.known .cancelRequested)

/-- Nobody is registered as the worker of a job that is still queued. -/
def Unregistered (id : JobId) (w : World) : Prop :=
  statusOf w id = some (.known .queued) → tokenOf w id = none

section Claim
variable {env : Env} {id : JobId} {t : Tid}

@[simp] theorem winsClaim_append {τ₁ τ₂ : List (Transition Cmd (Config Cmd World Exc))} :
    WinsClaim id (τ₁ ++ τ₂) ↔ WinsClaim id τ₁ ∨ WinsClaim id τ₂ := by
  simp [WinsClaim, or_and_right, exists_or]

/-- A program that only reads does not win the claim. -/
theorem not_winsClaim_of_within {rely : Config Cmd World Exc → Config Cmd World Exc → Prop} {p : App α}
    {c c' : Config Cmd World Exc} {τ : List (Transition Cmd (Config Cmd World Exc))} {r : Except Exc α}
    (h : Runs (studio env).beside rely t p c τ r c') (hp : Within [.read] p) : ¬ WinsClaim id τ := by
  rintro ⟨step, hmem, hown⟩
  obtain ⟨hkind, -⟩ := h.own_of_uses hp hmem hown
  simp only [Cmd.kind, List.mem_singleton] at hkind
  exact absurd hkind (by decide)

theorem CancelStep.unregistered {w w' : World} (h : CancelStep id w w') (hw : Unregistered id w) :
    Unregistered id w' := by
  intro hqueued
  rw [h.token]
  apply hw
  rcases h.status with hsame | ⟨status, stop, progress, htarget, -, hstop⟩
  · rwa [← hsame]
  · -- no request leaves a job queued
    obtain rfl : stop = .queued := by simpa [hstop] using hqueued
    cases status <;> simp [JobService.cancelTarget] at htarget

theorem stable_unregistered :
    Stable (Beside env id) fun c : Config Cmd World Exc => Unregistered id c.state := by
  rintro c c' ⟨hstep, hgood⟩ h
  exact (cancelGood_of_step hstep hgood).2.unregistered h

theorem stable_decodes : Stable (Beside env id) fun c : Config Cmd World Exc => Decodes c.state id := by
  rintro c c' ⟨hstep, hgood⟩ h
  exact (cancelGood_of_step hstep hgood).2.decodes h

/-- The first read of `process_job`. -/
theorem ensured_firstRead (hworks : env.faults = false) :
    Ensured env id t (fun c => Unregistered id c.state) (JobRepository.get id) fun r c =>
      Unregistered id c.state ∧ ∀ job, r = .ok (some job) → Decodes c.state id := by
  have hread (r : Except Exc (Option JobRecord)) : Stable (Beside env id) fun c =>
      Unregistered id c.state ∧ ∀ job, r = .ok (some job) → Decodes c.state id :=
    stable_and stable_unregistered fun c c' hrely h job hr => stable_decodes c c' hrely (h job hr)
  refine Ensures.bind (Q := fun r c => Unregistered id c.state ∧ ∀ row job, r = .ok (some row) →
    row.toRecord id = .ok job → Decodes c.state id) (Ensures.call stable_unregistered ?_ ?_) ?_ ?_
  · exact fun r => stable_and stable_unregistered fun c c' hrely h row job hr hjob =>
      stable_decodes c c' hrely (h row job hr hjob)
  · intro c r c' hc hmem
    obtain ⟨rfl, hstate⟩ := selectJob_of_works hworks hmem
    rw [hstate]
    refine ⟨hc, fun row job hr hjob => ⟨row, Except.ok.inj hr, ?_⟩⟩
    rw [toRecord_eq_ok.mp hjob]
    rfl
  · exact fun e c hc => ⟨hc.1, fun job hr => by cases hr⟩
  · rintro (_ | row)
    · exact Ensures.ret (hread _) fun c hc => ⟨hc.1, fun job hr => by cases hr⟩
    · refine Ensures.ofExcept (hread _) fun c hc => ⟨hc.1, fun job hr => ?_⟩
      cases hrecord : row.toRecord id with
      | error e => simp [hrecord, Except.map] at hr
      | ok job' => exact hc.2 row job' rfl hrecord

/-- Whoever wins the claim owns the job, and nobody has told it to stop. -/
theorem ensured_claimJob (hworks : env.faults = false) :
    Ensured env id t (fun c => Unregistered id c.state ∧ Decodes c.state id) (JobRunner.claimJob id)
      fun r c => r = .ok true → Owned id none (afterCancel .preparing) c := by
  have hlawful : claimUpdate.Lawful :=
    lawful_edit (JobService.lawfulEdit_of [.queued] (by decide) (by decide)
      (by rintro fraction ⟨rfl⟩; decide))
  refine Ensures.call (stable_and stable_unregistered stable_decodes)
    (fun r => stable_imp fun _ => stable_owned (cancelClosed_afterCancel _)) ?_
  rintro c r c' ⟨hunregistered, hdecodes⟩ hmem hr
  have ⟨row, hrow, _⟩ := hdecodes
  rcases updateJob_of_works hworks hrow hmem with ⟨rfl, -, -⟩ | ⟨row', -, hrun, hstate⟩
  · cases hr
  obtain ⟨hholds, rfl⟩ := JobUpdate.run_eq_some.mp hrun
  have hqueued : row.status = .known .queued := List.mem_singleton.mp
    (Condition.mem_of_holds hholds (by simp [JobUpdate.edit] : [StatusText.known .queued] ∈ _))
  have htoken : tokenOf c'.state id = none := by
    rw [← hunregistered (by rw [statusOf, hrow]; exact congrArg some hqueued), tokenOf, hstate]
    rfl
  refine ⟨⟨.preparing, List.mem_cons_self, ?_⟩, ?_, htoken, ?_⟩
  · simp [statusOf, hstate, JobUpdate.edit, Assignments.apply]
  · rw [hstate]
    exact decodes_replaceRow hlawful hrow hrun hdecodes
  · rintro ⟨entry, hentry, -⟩
    simp [tokenOf, hentry] at htoken

/-- `_resolve_claim_failure` returns. -/
theorem ok_of_resolveClaimFailure {rely : Config Cmd World Exc → Config Cmd World Exc → Prop} {e : Exc}
    {c c' : Config Cmd World Exc} {τ : List (Transition Cmd (Config Cmd World Exc))}
    {r : Except Exc (Option JobRecord)}
    (h : Runs (studio env).beside rely t (JobRunner.resolveClaimFailure id e) c τ r c') :
    ∃ completion, r = .ok completion := by
  -- each `except` clause ends with a value
  have horElse {p : App (Option JobRecord)} {f : Exc → App (Option JobRecord)}
      (hf : ∀ e c τ r c', Runs (studio env).beside rely t (f e) c τ r c' → ∃ job, r = .ok job)
      {c c' : Config Cmd World Exc} {τ : List (Transition Cmd (Config Cmd World Exc))}
      {r : Except Exc (Option JobRecord)} (h : Runs (studio env).beside rely t (p.orElse f) c τ r c') :
      ∃ job, r = .ok job := by
    obtain ⟨outcome, c₁, τ₁, τ₂, -, -, hrest⟩ := Runs.of_attempt_bind h
    cases outcome with
    | ok job => exact ⟨job, hrest.result_of_ret⟩
    | error e => exact hf e _ _ _ _ hrest
  have hnone (e : Exc) (c : Config Cmd World Exc) (τ : List (Transition Cmd (Config Cmd World Exc)))
      (r : Except Exc (Option JobRecord)) (c' : Config Cmd World Exc)
      (h : Runs (studio env).beside rely t (pure none) c τ r c') : ∃ job, r = .ok job :=
    ⟨none, h.result_of_ret⟩
  rcases h.of_bind with ⟨e, rfl, hfinal⟩ | ⟨current, c₁, τ₁, τ₂, -, -, hrest⟩
  · exact horElse hnone hfinal
  split at hrest
  · exact ⟨current, hrest.result_of_ret⟩
  · exact horElse (fun e c τ r c' h => horElse hnone h) hrest

theorem statusEvolves_of_cancels {c c' : Config Cmd World Exc} (h : (cancelSystem env id).Step c c') :
    StatusEvolves id c.state c'.state := by
  cases h with
  | op hth hstep => exact statusEvolves_of_step id hstep
  | call hidle hcall => exact statusEvolves_refl id _
  | reset hreset => exact hreset.elim

/-- Once a request to cancel has moved the row, the job does not succeed. -/
theorem not_cancelMoved_of_succeeded {p : App α} {c c' : Config Cmd World Exc}
    {τ : List (Transition Cmd (Config Cmd World Exc))} {r : Except Exc α}
    (h : Runs (studio env).beside (cancelSystem env id).Step t p c τ r c')
    (hsucceeded : statusOf c'.state id = some (.known .succeeded)) : ¬ CancelMoved id τ := by
  rintro ⟨step, hmem, -, -, hrequested⟩
  obtain ⟨-, hafter⟩ := @Runs.evolves_of_mem _ _ _ _ _ _ _ _ _ _
    (fun c c' => StatusEvolves id c.state c'.state) _ _ h (fun c => statusEvolves_refl id c.state)
    (fun _ _ _ => statusEvolves_trans) (fun _ _ _ _ hstep => statusEvolves_of_step id (mem_step_beside hstep))
    (fun _ _ => statusEvolves_of_cancels)
  obtain ⟨text, htext, hpath⟩ := hafter step hmem _ hrequested
  obtain rfl := Option.some.inj (hsucceeded.symm.trans htext)
  simpa using hpath.of_cancelRequested

/-- A call that wins its claim ends the job. -/
theorem processJob_ends (henv : Honest env) {c c' : Config Cmd World Exc}
    {τ : List (Transition Cmd (Config Cmd World Exc))} {r : Except Exc (Option JobRecord)}
    (hc : Unregistered id c.state)
    (h : Runs (studio env).beside (Beside env id) t (JobRunner.processJob id) c τ r c')
    (hclaim : WinsClaim id τ) : (∃ completion, r = .ok completion) ∧ Ended env id t none τ c' := by
  have hget : Within [.read] (JobRepository.get id) := by simp
  rcases h.of_bind with ⟨e, -, hfirst⟩ | ⟨found, c₁, τ₁, τ₂, rfl, hfirst, hrest⟩
  · exact absurd hclaim (not_winsClaim_of_within hfirst hget)
  have hclaim := (winsClaim_append.mp hclaim).resolve_left (not_winsClaim_of_within hfirst hget)
  obtain ⟨hunregistered, hdecodes⟩ := ensured_firstRead henv.works _ _ _ _ hc hfirst
  cases found with
  | none => exact absurd hclaim (not_winsClaim_of_within hrest (within_ret _))
  | some job =>
    simp only at hrest
    split at hrest
    · exact absurd hclaim (not_winsClaim_of_within hrest (within_ret _))
    rcases hrest.of_bind with ⟨e, -, hcas⟩ | ⟨won, c₂, τ₃, τ₄, rfl, hcas, howner⟩
    · obtain ⟨step, hmem, hown⟩ := hclaim
      have hanswer := hcas.own_of_call hmem hown
      simp at hanswer
    have howned := ensured_claimJob henv.works _ _ _ _ ⟨hunregistered, hdecodes job rfl⟩ hcas
    cases won with
    | false =>
      rcases winsClaim_append.mp hclaim with ⟨step, hmem, hown⟩ | hlater
      · have hanswer := hcas.own_of_call hmem hown
        simp at hanswer
      · exact absurd hlater (not_winsClaim_of_within howner hget)
    | true =>
      obtain ⟨outcome, c₃, τ₅, τ₆, rfl, hexecute, hhandler⟩ := Runs.of_attempt_bind howner
      have hended := execute_ends henv job (howned rfl) hexecute
      refine ⟨?_, ?_⟩
      · cases outcome with
        | ok completion => exact ⟨completion, hhandler.result_of_ret⟩
        | error e => exact ok_of_resolveClaimFailure hhandler
      · -- the outer handler finds the job ended, too
        have hended' : Ended env id t none τ₅ c' := by
          refine hended.transfer fun status hstatus hc₃ => ?_
          cases outcome with
          | ok completion =>
            have hclosed : CancelClosed [status] := by cases status <;> first | decide | cases hstatus
            exact Ensures.ret (Q := fun _ c => Owned id none [status] c) (stable_owned hclosed)
              (fun c hc => hc) _ _ _ _ hc₃ hhandler
          | error e => exact ensured_resolveClaimFailure henv.works hstatus e _ _ _ _ hc₃ hhandler
        simpa using hended'.append (τ₁ ++ τ₃) τ₆

theorem Ended.status {token : Option ℕ} {τ : List (Transition Cmd (Config Cmd World Exc))}
    {c : Config Cmd World Exc} (h : Ended env id t token τ c) : ∃ status : GenerationStatus,
      status.isTerminalStatus ∧ Owned id token [status] c ∧
        (status = .succeeded → ∃ result, GeneratorRan env id t τ (.ok result)) ∧
        (status = .failed → SomethingRaised env id t τ) := by
  cases h with
  | cancelled h => exact ⟨.cancelled, rfl, h, nofun, nofun⟩
  | failed hraised h => exact ⟨.failed, rfl, h, nofun, fun _ => hraised⟩
  | succeeded hran h => exact ⟨.succeeded, rfl, h, fun _ => ⟨_, hran⟩, nofun⟩

/-- **What a call of `process_job` claims, it resolves**: whatever the generator does, whether
or not its assets can be synchronised, and wherever requests to cancel land. -/
theorem processJob_resolves (henv : Honest env) {c c' : Config Cmd World Exc}
    {τ : List (Transition Cmd (Config Cmd World Exc))} {r : Except Exc (Option JobRecord)}
    (hreach : (cancelSystem env id).Reachable c) (hregistry : Unregistered id c.state)
    (h : Runs (studio env).beside (cancelSystem env id).Step t (JobRunner.processJob id) c τ r c')
    (hclaim : WinsClaim id τ) :
    (∃ completion, r = .ok completion) ∧
      (∃ status : GenerationStatus, statusOf c'.state id = some (.known status) ∧ status.isTerminalStatus) ∧
      (statusOf c'.state id = some (.known .succeeded) →
        (∃ result, GeneratorRan env id t τ (.ok result)) ∧ ¬ CancelMoved id τ) ∧
      (statusOf c'.state id = some (.known .failed) → SomethingRaised env id t τ) ∧
      c'.state.registry.lookup id = none := by
  have hgood : CancelGood env id c := sound_cancelDiscipline.good hreach
  have hbeside : Runs (studio env).beside (Beside env id) t (JobRunner.processJob id) c τ r c' := by
    refine Runs.strengthen (I := CancelGood env id) h ?_ (fun _ _ hstep hgood => (cancelGood_of_step hstep hgood).1) hgood
    intro β cmd b c c' hstep hgood
    obtain ⟨hstep, hthreads⟩ := (studio env).mem_beside.mp hstep
    obtain ⟨w, th⟩ := c
    obtain ⟨w', th'⟩ := c'
    obtain rfl : th' = th := hthreads
    exact hgood.outside (fun _ => ⟨trivial, statusEvolves_of_step id hstep, trivial⟩) trivial
  obtain ⟨hreturns, hended⟩ := processJob_ends henv hregistry hbeside hclaim
  obtain ⟨status, hterminal, howned, hsucceeded, hfailed⟩ := hended.status
  obtain ⟨status', hmem, hstatus⟩ := howned.status
  obtain rfl := List.mem_singleton.mp hmem
  refine ⟨hreturns, ⟨status', hstatus, hterminal⟩, fun hs => ?_, fun hs => ?_, ?_⟩
  · exact ⟨hsucceeded (by simpa [hstatus] using hs), not_cancelMoved_of_succeeded h hs⟩
  · exact hfailed (by simpa [hstatus] using hs)
  · simpa [tokenOf] using howned.token

end Claim

/-- Whether a command and its answer are a claim that was won. -/
def claimWon (id : JobId) : {β : Type} → Cmd β → β → Bool
  | _, .updateJob target update, .ok true =>
    target == id && update.set == claimUpdate.set && update.condition == claimUpdate.condition
  | _, _, _ => false

theorem eq_of_claimWon {id : JobId} {c : Cmd β} {b : β} (h : claimWon id c b) :
    (⟨c, b⟩ : Event Cmd) = ⟨.updateJob id claimUpdate, .ok true⟩ := by
  unfold claimWon at h
  split at h
  next target update =>
    simp only [Bool.and_eq_true, beq_iff_eq] at h
    obtain ⟨⟨rfl, hset⟩, hcondition⟩ := h
    have hupdate : update = claimUpdate := by
      cases update
      cases hset
      cases hcondition
      rfl
    rw [hupdate]
  next => cases h

/-- A job that waits, beside threads that are idle. -/
def waitingAlone : Config Cmd World Exc := ⟨deliveredTwice, fun _ => .ret ()⟩

/-- The waiting job is claimed, rendered and ended. -/
theorem processJob_resolves_waitingAlone : ∃ τ r c',
    Runs (studio renderingEnv).beside (cancelSystem renderingEnv 3).Step 0 (JobRunner.processJob 3)
      waitingAlone τ r c' ∧ statusOf c'.state 3 = some (.known .succeeded) ∧
        (∃ result, GeneratorRan renderingEnv 3 0 τ (.ok result)) ∧ ¬ CancelMoved 3 τ ∧
          c'.state.registry.lookup 3 = none := by
  have hfollow : ((studio renderingEnv).beside.follow 0 (JobRunner.processJob 3) (List.replicate 16 0)
      waitingAlone).map (fun (τ, _, c') =>
        (τ.any fun step => step.own.any fun event => claimWon 3 event.command event.answer,
          statusOf c'.state 3)) =
          some (true, some (.known .succeeded)) := by decide +kernel
  obtain ⟨⟨τ, r, c'⟩, hrun, hresult⟩ := Option.map_eq_some_iff.mp hfollow
  obtain ⟨hwon, hsucceeded⟩ := Prod.mk.inj hresult
  have hruns : Runs (studio renderingEnv).beside (cancelSystem renderingEnv 3).Step 0 (JobRunner.processJob 3)
      waitingAlone τ r c' := (runs_of_follow hrun).mono fun _ _ h => h.elim
  have hclaim : WinsClaim 3 τ := by
    obtain ⟨step, hmem, hstep⟩ := List.any_eq_true.mp hwon
    obtain ⟨event, hown, hevent⟩ := Option.any_eq_true _ _ |>.mp hstep
    exact ⟨step, hmem, hown.trans (congrArg some (eq_of_claimWon hevent))⟩
  have hhonest : Honest renderingEnv := by
    refine ⟨rfl, fun id request run hrun => ?_, by decide⟩
    obtain rfl := List.mem_singleton.mp hrun
    exact nofun
  have hreach : (cancelSystem renderingEnv 3).Reachable waitingAlone :=
    ⟨_, ⟨trivial, fun _ => rfl⟩, .refl⟩
  obtain ⟨-, -, hran, -, hended⟩ := processJob_resolves hhonest hreach (fun _ => rfl) hruns hclaim
  exact ⟨τ, r, c', hruns, hsucceeded, (hran hsucceeded).1, (hran hsucceeded).2, hended⟩

end CreativeStudio.Jobs
