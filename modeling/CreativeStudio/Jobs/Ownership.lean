import CreativeStudio.Jobs.Cancellation
import CreativeStudio.Jobs.Runner

/-!
# The worker that owns a job resolves it

Once `process_job` has won its claim, only requests to cancel move the row besides it, and
each of its own compare-and-sets either wins or has lost to one of them. `Owned` says what is
known of the row between two commands; every function of the runner is specified by the
statuses it starts from and the ones it leaves.
-/

namespace CreativeStudio.Jobs
open Data Storage Conc

/-- The statuses that requests to cancel may leave a job in. -/
def afterCancel (status : GenerationStatus) : List GenerationStatus :=
  status :: ((JobService.cancelTarget status).map Prod.fst).toList

/-- Requests to cancel do not lead out of the statuses. -/
def CancelClosed (statuses : List GenerationStatus) : Prop :=
  ∀ status ∈ statuses, ∀ next ∈ afterCancel status, next ∈ statuses

instance (statuses : List GenerationStatus) : Decidable (CancelClosed statuses) :=
  inferInstanceAs (Decidable (∀ _ ∈ _, ∀ _ ∈ _, _))

theorem cancelClosed_afterCancel (status : GenerationStatus) : CancelClosed (afterCancel status) := by
  cases status <;> decide

/-- What the worker of a job knows of it. -/
structure Owned (id : JobId) (token : Option ℕ) (statuses : List GenerationStatus)
    (c : Config Cmd World Exc) : Prop where
  status : ∃ status ∈ statuses, statusOf c.state id = some (.known status)
  decodes : Decodes c.state id
  token : tokenOf c.state id = token
  /-- Whoever told the worker to stop has written it to the row before. -/
  informed : Requested c.state id → Stopped c.state id

/-- The steps of the threads that cancel, beside the worker. -/
def Beside (env : Env) (id : JobId) (c c' : Config Cmd World Exc) : Prop :=
  (cancelSystem env id).Step c c' ∧ CancelGood env id c

section Owned
variable {env : Env} {id : JobId} {t : Tid} {token : Option ℕ} {statuses : List GenerationStatus}

theorem Owned.mono {statuses' : List GenerationStatus} {c : Config Cmd World Exc}
    (h : Owned id token statuses c) (hsub : statuses ⊆ statuses') : Owned id token statuses' c := by
  obtain ⟨status, hmem, hstatus⟩ := h.status
  exact ⟨⟨status, hsub hmem, hstatus⟩, h.decodes, h.token, h.informed⟩

theorem CancelStep.stopped {w w' : World} (h : CancelStep id w w') (hw : Stopped w id) :
    Stopped w' id := by
  obtain ⟨status, hstatus, htarget⟩ := hw
  rcases h.status with hsame | ⟨current, stop, progress, hcancel, hcurrent, -⟩
  · exact ⟨status, hsame.trans hstatus, htarget⟩
  · obtain rfl : status = current := by simpa [hstatus] using hcurrent
    rw [htarget] at hcancel
    cases hcancel

theorem stable_owned (hclosed : CancelClosed statuses) :
    Stable (Beside env id) (Owned id token statuses) := by
  rintro c c' ⟨hstep, hgood⟩ h
  have hcancel := (cancelGood_of_step hstep hgood).2
  obtain ⟨status, hmem, hstatus⟩ := h.status
  refine ⟨?_, hcancel.decodes h.decodes, hcancel.token.trans h.token, fun hrequested => ?_⟩
  · rcases hcancel.status with hsame | ⟨current, stop, progress, htarget, hcurrent, hstop⟩
    · exact ⟨status, hmem, hsame.trans hstatus⟩
    · obtain rfl : status = current := by simpa [hstatus] using hcurrent
      refine ⟨stop, hclosed status hmem stop ?_, hstop⟩
      simp [afterCancel, htarget]
  · rcases hcancel.requested hrequested with hbefore | hstopped
    · exact hcancel.stopped (h.informed hbefore)
    · exact hstopped

/-- The worker's own commands leave the threads beside it where they are. -/
theorem mem_step_beside {c : Cmd β} {b : β} {conf conf' : Config Cmd World Exc}
    (h : (b, conf') ∈ (studio env).beside.step t c conf) :
    (b, conf'.state) ∈ (studio env).step t c conf.state :=
  ((studio env).mem_beside.mp h).1

/-- A command that leaves the row and the registration alone. -/
theorem Owned.of_eq {c c' : Config Cmd World Exc} (h : Owned id token statuses c)
    (hrow : c'.state.row? id = c.state.row? id) (hregistry : c'.state.registry = c.state.registry) :
    Owned id token statuses c' := by
  have hstatus : statusOf c'.state id = statusOf c.state id := by rw [statusOf, hrow]; rfl
  refine ⟨hstatus ▸ h.status, ?_, ?_, ?_⟩
  · simpa [Decodes, hrow] using h.decodes
  · simpa [tokenOf, hregistry] using h.token
  · simpa [Requested, Stopped, hregistry, hstatus] using h.informed

/-! ## The statements, where the storage works -/

/-- Every execution of a program beside threads that cancel. -/
abbrev Ensured (env : Env) (id : JobId) (t : Tid) (P : Config Cmd World Exc → Prop) (p : App α)
    (Q : Except Exc α → Config Cmd World Exc → Prop) : Prop :=
  Ensures (studio env).beside (Beside env id) t P p Q

theorem selectJob_of_works (hworks : env.faults = false) {c c' : Config Cmd World Exc}
    {r : Except Exc (Option JobRow)} (h : (r, c') ∈ (studio env).beside.step t (.selectJob id) c) :
    r = .ok (c.state.row? id) ∧ c'.state = c.state := by
  have hstep := mem_step_beside h
  simpa [step, fallible, hworks] using hstep

/-- An `UPDATE` wins, or finds a row that its `WHERE` clause excludes. -/
theorem updateJob_of_works (hworks : env.faults = false) {update : JobUpdate}
    {c c' : Config Cmd World Exc} {r : Except Exc Bool} {row : JobRow} (hrow : c.state.row? id = some row)
    (h : (r, c') ∈ (studio env).beside.step t (.updateJob id update) c) :
    (r = .ok false ∧ c'.state = c.state ∧ ¬ update.condition.holds row) ∨
      ∃ row', r = .ok true ∧ update.run c.state.clock row = some row' ∧
        c'.state = c.state.replaceRow t id row row' := by
  have hstep := mem_step_beside h
  cases hrun : update.run c.state.clock row with
  | none =>
    simp only [step, fallible, hworks, hrow, hrun, Bool.false_eq_true, if_false, List.mem_singleton,
      Prod.mk.injEq] at hstep
    refine .inl ⟨hstep.1, hstep.2, fun hholds => ?_⟩
    simp [JobUpdate.run, hholds] at hrun
  | some row' =>
    simp only [step, fallible, hworks, hrow, hrun, Bool.false_eq_true, if_false, List.mem_singleton,
      Prod.mk.injEq] at hstep
    exact .inr ⟨row', hstep.1, rfl, hstep.2⟩

/-- A row that a lawful statement has replaced. -/
theorem Owned.replaceRow {update : JobUpdate} {c c' : Config Cmd World Exc} {row row' : JobRow}
    {statuses' : List GenerationStatus} (h : Owned id token statuses c) (hlawful : update.Lawful)
    (hrow : c.state.row? id = some row) (hrun : update.run c.state.clock row = some row')
    (hc' : c'.state = c.state.replaceRow t id row row')
    (hstatus : ∃ status ∈ statuses', row'.status = .known status) : Owned id token statuses' c' := by
  have hstatus' : statusOf c'.state id = some row'.status := by simp [statusOf, hc']
  obtain ⟨status, hmem, hknown⟩ := hstatus
  refine ⟨⟨status, hmem, hstatus'.trans (congrArg some hknown)⟩, ?_, ?_, fun hrequested => ?_⟩
  · rw [hc']
    exact decodes_replaceRow hlawful hrow hrun h.decodes
  · rw [← h.token, tokenOf, hc']
    rfl
  · have hbefore : Requested c.state id := by simpa [Requested, hc', World.replaceRow] using hrequested
    -- a stopped row stays stopped
    obtain ⟨old, hold, htarget⟩ := h.informed hbefore
    have hchange := update.statusChange hrun
    have hold' : row.status = .known old := by simpa [statusOf, hrow] using hold
    rw [hold', hknown] at hchange
    refine ⟨status, hstatus'.trans (congrArg some hknown), ?_⟩
    by_cases hne : status = old
    · rwa [hne]
    · have hlt := hchange.stage_lt hne
      rw [JobService.cancelTarget_eq_none] at htarget ⊢
      omega

theorem Owned.row {c : Config Cmd World Exc} (h : Owned id token statuses c) :
    ∃ row status, c.state.row? id = some row ∧ row.status = .known status ∧ status ∈ statuses ∧
      ∃ job, row.toRecord id = .ok job ∧ job.status = status := by
  obtain ⟨status, hmem, hstatus⟩ := h.status
  obtain ⟨row, hrow, hdecodes⟩ := h.decodes
  obtain ⟨job, hjob⟩ := Option.isSome_iff_exists.mp hdecodes
  have hknown : row.status = .known status := by simpa [statusOf, hrow] using hstatus
  refine ⟨row, status, hrow, hknown, hmem, job, toRecord_eq_ok.mpr hjob, ?_⟩
  have hjob' := (status_of_decode? hjob).1
  rw [hknown] at hjob'
  exact (StatusText.known.inj hjob').symm

/-- The job was read, and only requests to cancel have moved it since. -/
def Read (id : JobId) (token : Option ℕ) (statuses : List GenerationStatus)
    (r : Except Exc (Option JobRecord)) (c : Config Cmd World Exc) : Prop :=
  ∃ job, r = .ok (some job) ∧ job.status ∈ statuses ∧ Owned id token (afterCancel job.status) c

theorem stable_read {r : Except Exc (Option JobRecord)} :
    Stable (Beside env id) (Read id token statuses r) :=
  stable_exists fun job => stable_and (stable_const _) (stable_and (stable_const _)
    (stable_owned (cancelClosed_afterCancel job.status)))

theorem ensured_get (hworks : env.faults = false) (hclosed : CancelClosed statuses) :
    Ensured env id t (Owned id token statuses) (JobRepository.get id) (Read id token statuses) := by
  refine Ensures.bind (Q := fun r c => ∃ row job, r = .ok (some row) ∧ row.toRecord id = .ok job ∧
    job.status ∈ statuses ∧ Owned id token (afterCancel job.status) c) (Ensures.call (stable_owned hclosed) ?_ ?_)
    ?_ ?_
  · exact fun r => stable_exists fun row => stable_exists fun job => stable_and (stable_const _)
      (stable_and (stable_const _) (stable_and (stable_const _)
        (stable_owned (cancelClosed_afterCancel job.status))))
  · intro c r c' hc hmem
    obtain ⟨rfl, hstate⟩ := selectJob_of_works hworks hmem
    obtain ⟨row, status, hrow, hknown, hstatus, job, hjob, rfl⟩ := hc.row
    have hread : Owned id token (afterCancel job.status) c := by
      refine ⟨⟨job.status, List.mem_cons_self, ?_⟩, hc.decodes, hc.token, hc.informed⟩
      rw [statusOf, hrow]
      exact congrArg some hknown
    exact ⟨row, job, by rw [hrow], hjob, hstatus, hread.of_eq (by rw [hstate]) (by rw [hstate])⟩
  · rintro e c ⟨row, job, hr, -⟩
    cases hr
  · rintro (_ | row)
    · rintro c τ r c' ⟨row, job, hr, -⟩
      cases hr
    · intro c τ r c' hc hruns
      obtain ⟨row', job, hr, hjob, hstatus, hc⟩ := hc
      obtain rfl : row = row' := by simpa using hr
      simp only [hjob, Except.map, Prog.ofExcept] at hruns
      exact Ensures.ret stable_read (fun c hc => ⟨job, rfl, hstatus, hc⟩) c τ r c' hc hruns

/-- A compare-and-set of the worker wins, or has lost to a request to cancel. -/
theorem ensured_update (hworks : env.faults = false) {expected target : GenerationStatus}
    {progress : Option ℚ} {result : Option (Option GenerationResult)} {message : Option (Option String)}
    (hactive : ¬ expected.isTerminalStatus) (htarget : target ≠ .queued)
    (hedge : expected.isValidTransition target)
    (hprogress : ∀ fraction, progress = some fraction → 0 ≤ fraction ∧ fraction ≤ 1) :
    Ensured env id t (Owned id token (afterCancel expected))
      (JobRepository.updateIfStatus id [.known expected] (some (.known target)) progress none result message)
      fun r c => (r = .ok none ∧ Owned id token (afterCancel expected).tail c) ∨
        Read id token (afterCancel target) r c := by
  have hclosed : CancelClosed (afterCancel expected).tail := by cases expected <;> decide
  have hlawful : (JobUpdate.edit (some target) progress none result message (some [.known expected])).Lawful :=
    lawful_edit (JobService.lawfulEdit_of [expected] (by simpa using hactive) htarget hprogress)
  refine Ensures.bind (Q := fun r c => (r = .ok false ∧ Owned id token (afterCancel expected).tail c) ∨
    (r = .ok true ∧ Owned id token (afterCancel target) c))
    (Ensures.call (stable_owned (cancelClosed_afterCancel expected)) ?_ ?_) ?_ ?_
  · exact fun r => stable_or (stable_and (stable_const _) (stable_owned hclosed))
      (stable_and (stable_const _) (stable_owned (cancelClosed_afterCancel target)))
  · intro c r c' hc hmem
    obtain ⟨row, status, hrow, hknown, hstatus, -⟩ := hc.row
    rcases updateJob_of_works hworks hrow hmem with ⟨rfl, hstate, hmissed⟩ | ⟨row', rfl, hrun, hstate⟩
    · refine .inl ⟨rfl, ?_⟩
      have hne : status ≠ expected := by
        rintro rfl
        have hsource : StatusText.known status ∈ transitionSources target :=
          known_mem_transitionSources.mpr hedge
        exact hmissed (by simp [Condition.holds, JobUpdate.edit, hknown, hsource])
      have htail : status ∈ (afterCancel expected).tail := by
        rcases List.mem_cons.mp hstatus with heq | hmem
        · exact absurd heq hne
        · exact hmem
      have hleft : Owned id token (afterCancel expected).tail c := by
        refine ⟨⟨status, htail, ?_⟩, hc.decodes, hc.token, hc.informed⟩
        rw [statusOf, hrow]
        exact congrArg some hknown
      exact hleft.of_eq (by rw [hstate]) (by rw [hstate])
    · refine .inr ⟨rfl, hc.replaceRow hlawful hrow hrun hstate ⟨target, List.mem_cons_self, ?_⟩⟩
      obtain ⟨-, rfl⟩ := JobUpdate.run_eq_some.mp hrun
      rfl
  · rintro e c (⟨hr, -⟩ | ⟨hr, -⟩) <;> cases hr
  · intro matched
    cases matched with
    | false =>
      refine Ensures.ret ?_ ?_
      · exact stable_or (stable_and (stable_const _) (stable_owned hclosed)) stable_read
      · rintro c (⟨-, hc⟩ | ⟨hr, -⟩)
        · exact .inl ⟨rfl, hc⟩
        · cases hr
    | true =>
      refine (ensured_get hworks (cancelClosed_afterCancel target)).mono ?_ fun r c hread => .inr hread
      rintro c (⟨hr, -⟩ | ⟨-, hc⟩)
      · cases hr
      · exact hc

/-- The job was asked whether it is to stop. -/
def Polled (id : JobId) (token : Option ℕ) (statuses : List GenerationStatus) (r : Except Exc Bool)
    (c : Config Cmd World Exc) : Prop :=
  ∃ cancelled, r = .ok cancelled ∧
    Owned id token (if cancelled then [.cancelRequested] else statuses) c

theorem stable_polled (hclosed : CancelClosed statuses) {r : Except Exc Bool} :
    Stable (Beside env id) (Polled id token statuses r) := by
  have hone : CancelClosed [.cancelRequested] := by decide
  refine stable_exists fun cancelled => stable_and (stable_const _) ?_
  cases cancelled with
  | false => exact stable_owned hclosed
  | true => exact stable_owned hone

/-- `_is_cancelled`, of a job that is not `cancelled` yet. -/
theorem ensured_isCancelled (hworks : env.faults = false) (hclosed : CancelClosed statuses)
    (hcancelled : .cancelled ∉ statuses) :
    Ensured env id t (Owned id token statuses) (JobRunner.isCancelled id) (Polled id token statuses) := by
  refine Ensures.bind (ensured_get hworks hclosed) ?_ ?_
  · rintro e c ⟨job, hr, -⟩
    cases hr
  · intro found c τ r c' hc hruns
    obtain ⟨job, hr, hmem, hc⟩ := hc
    obtain rfl : found = some job := by simpa using hr
    refine Ensures.ret (stable_polled hclosed) (fun c hc => ⟨_, rfl, ?_⟩) c τ r c' hc hruns
    simp only [Option.any_some, Bool.or_eq_true, beq_iff_eq]
    split
    next h =>
      rcases h with h | h
      · rw [h] at hc
        exact hc
      · exact absurd (h ▸ hmem) hcancelled
    next => exact hc.mono (fun status hstatus => hclosed _ hmem _ hstatus)

theorem Read.owned {r : Except Exc (Option JobRecord)} {c : Config Cmd World Exc}
    (h : Read id token statuses r c) (hclosed : CancelClosed statuses) : Owned id token statuses c := by
  obtain ⟨job, -, hmem, hc⟩ := h
  exact hc.mono fun status hstatus => hclosed _ hmem _ hstatus

/-- `finalize_cancellation`, of a job that was asked to stop. -/
theorem ensured_finalizeCancellation (hworks : env.faults = false) :
    Ensured env id t (Owned id token [.cancelRequested]) (JobRunner.finalizeCancellation id)
      (Read id token [.cancelled]) := by
  refine Ensures.bind (ensured_update hworks (by decide) (by decide) (by decide)
    JobService.one_mem_range) ?_ ?_
  · rintro e c (⟨hr, -⟩ | ⟨job, hr, -⟩) <;> cases hr
  · intro found c τ r c' hc hruns
    rcases hc with ⟨-, hc⟩ | ⟨job, hr, hmem, hc⟩
    · obtain ⟨status, hnone, -⟩ := hc.status
      cases hnone
    · obtain rfl : found = some job := by simpa using hr
      exact Ensures.ret stable_read (fun c hc => ⟨job, rfl, hmem, hc⟩) c τ r c' hc hruns

/-- A checkpoint of the runner: a job that was asked to stop is finalized, and one that was not
goes on. -/
theorem runs_checkpoint (hworks : env.faults = false) (hclosed : CancelClosed statuses)
    (hcancelled : .cancelled ∉ statuses) {p : App (Option JobRecord)} {c c' : Config Cmd World Exc}
    {τ : List (Transition Cmd (Config Cmd World Exc))} {r : Except Exc (Option JobRecord)}
    (hc : Owned id token statuses c)
    (h : Runs (studio env).beside (Beside env id) t (do
      if ← JobRunner.isCancelled id then JobRunner.finalizeCancellation id else p) c τ r c') :
    Owned id token [.cancelled] c' ∨ ∃ c₁ τ₁ τ₂, τ = τ₁ ++ τ₂ ∧ Owned id token statuses c₁ ∧
      Runs (studio env).beside (Beside env id) t p c₁ τ₂ r c' := by
  have hpoll : Ensured env id t (Owned id token statuses) (JobRunner.isCancelled id) _ :=
    ensured_isCancelled hworks hclosed hcancelled
  rcases h.of_bind with ⟨e, -, hpolled⟩ | ⟨cancelled, c₁, τ₁, τ₂, rfl, hpolled, hrest⟩
  · obtain ⟨cancelled, hr, -⟩ := hpoll _ _ _ _ hc hpolled
    cases hr
  obtain ⟨cancelled', hr, hc₁⟩ := hpoll _ _ _ _ hc hpolled
  obtain rfl := Except.ok.inj hr
  cases cancelled with
  | true => exact .inl ((ensured_finalizeCancellation hworks _ _ _ _ hc₁ hrest).owned (by decide))
  | false => exact .inr ⟨c₁, τ₁, τ₂, rfl, hc₁, hrest⟩

/-- `mark_failed`: a job that has not ended is `failed`. -/
theorem ensured_markFailed (hworks : env.faults = false) (hclosed : CancelClosed statuses)
    (hactive : ∀ status ∈ statuses, status ∈ GenerationStatus.activeJobStatuses) (message : String) :
    Ensured env id t (Owned id token statuses) (JobService.markFailed id message)
      fun _ c => Owned id token [.failed] c := by
  have hfailed : CancelClosed [.failed] := by decide
  have hlawful : (JobUpdate.edit (some .failed) (some 1) none none (some (some message))
      (some activeStatusTexts)).Lawful :=
    lawful_edit (JobService.lawfulEdit_of GenerationStatus.activeJobStatuses (by decide) (by decide)
      JobService.one_mem_range)
  have hmatch (status : GenerationStatus) (hstatus : status ∈ GenerationStatus.activeJobStatuses) :
      StatusText.known status ∈ activeStatusTexts ∧ StatusText.known status ∈ transitionSources .failed := by
    cases status <;> revert hstatus <;> decide
  -- the statement always finds the row, and reading it again finds it `failed`
  refine Ensures.bind (Q := Read id token [.failed]) (Ensures.bind
    (Q := fun r c => r = .ok true ∧ Owned id token [.failed] c) (Ensures.call (stable_owned hclosed)
      (fun r => stable_and (stable_const _) (stable_owned hfailed)) ?_) ?_ ?_) ?_ ?_
  · intro c r c' hc hmem
    obtain ⟨row, status, hrow, hknown, hstatus, -⟩ := hc.row
    rcases updateJob_of_works hworks hrow hmem with ⟨-, -, hmissed⟩ | ⟨row', rfl, hrun, hstate⟩
    · obtain ⟨hin, hsource⟩ := hmatch status (hactive status hstatus)
      exact absurd (by simp [Condition.holds, JobUpdate.edit, hknown, hin, hsource]) hmissed
    · refine ⟨rfl, hc.replaceRow hlawful hrow hrun hstate ⟨.failed, List.mem_singleton_self _, ?_⟩⟩
      obtain ⟨-, rfl⟩ := JobUpdate.run_eq_some.mp hrun
      rfl
  · rintro e c ⟨hr, -⟩
    cases hr
  · intro matched c τ r c' hc hruns
    obtain ⟨hr, hc⟩ := hc
    obtain rfl : matched = true := Except.ok.inj hr
    exact ensured_get hworks hfailed c τ r c' hc hruns
  · rintro e c ⟨job, hr, -⟩
    cases hr
  · intro found c τ r c' hc hruns
    obtain ⟨job, rfl⟩ : ∃ job, found = some job := by
      obtain ⟨job, hr, -⟩ := hc
      exact ⟨job, Except.ok.inj hr⟩
    exact Ensures.ret (Q := fun _ c => Owned id token [.failed] c) (stable_owned hfailed)
      (fun c hc => hc.owned hfailed) c τ r c' hc hruns

/-! ## While the generator runs -/

/-- A statement that leaves the status alone where the job can be. -/
theorem ensured_keeps (hworks : env.faults = false) (hclosed : CancelClosed statuses) {update : JobUpdate}
    (hlawful : update.Lawful)
    (hkeeps : ∀ now row row', (∃ status ∈ statuses, row.status = .known status) →
      update.run now row = some row' → row'.status = row.status) :
    Ensured env id t (Owned id token statuses) (JobRepository.updateCore.run id update)
      fun _ c => Owned id token statuses c := by
  have hstable : Stable (Beside env id) (Owned id token statuses) := stable_owned hclosed
  refine Ensures.bind (Q := fun _ c => Owned id token statuses c)
    (Ensures.call hstable (fun _ => hstable) ?_) (fun _ _ hc => hc) ?_
  · intro c r c' hc hmem
    obtain ⟨row, status, hrow, hknown, hstatus, -⟩ := hc.row
    rcases updateJob_of_works hworks hrow hmem with ⟨-, hstate, -⟩ | ⟨row', -, hrun, hstate⟩
    · exact hc.of_eq (by rw [hstate]) (by rw [hstate])
    · exact hc.replaceRow hlawful hrow hrun hstate
        ⟨status, hstatus, (hkeeps _ row row' ⟨status, hstatus, hknown⟩ hrun).trans hknown⟩
  · intro matched
    cases matched with
    | false => exact Ensures.ret hstable fun c hc => hc
    | true =>
      exact (ensured_get hworks hclosed).mono (fun _ hc => hc) fun _ _ hread => hread.owned hclosed

theorem ensured_reportGenerationProgress (hworks : env.faults = false) (hclosed : CancelClosed statuses)
    (fraction : ℚ) :
    Ensured env id t (Owned id token statuses) (JobRunner.reportGenerationProgress id fraction)
      fun _ c => Owned id token statuses c := by
  refine Ensures.bind (ensured_keeps hworks hclosed
    (@lawful_edit none _ none none none _ (JobRunner.lawfulEdit_generationProgress fraction)) ?_)
    (fun _ _ hc => hc) fun _ => Ensures.ret (stable_owned hclosed) fun _ hc => hc
  intro now row row' _ hrun
  obtain ⟨-, rfl⟩ := JobUpdate.run_eq_some.mp hrun
  rfl

theorem ensured_reportSegmentProgress (hworks : env.faults = false) (hclosed : CancelClosed statuses)
    (hcancelled : .cancelled ∉ statuses) (hrequested : .cancelRequested ∈ statuses) (fraction : ℚ) :
    Ensured env id t (Owned id token statuses) (JobRunner.reportSegmentProgress id fraction)
      fun _ c => Owned id token statuses c := by
  have hstable : Stable (Beside env id) (Owned id token statuses) := stable_owned hclosed
  refine Ensures.bind (ensured_isCancelled hworks hclosed hcancelled) ?_ ?_
  · rintro e c ⟨cancelled, hr, -⟩
    cases hr
  · intro cancelled
    have hpolled (c : Config Cmd World Exc) (hc : Polled id token statuses (.ok cancelled) c) :
        Owned id token statuses c := by
      obtain ⟨cancelled', -, hc⟩ := hc
      refine hc.mono ?_
      split
      · simpa using hrequested
      · exact List.Subset.refl _
    cases cancelled with
    | true => exact Ensures.ret hstable hpolled
    | false =>
      refine Ensures.bind ((ensured_keeps hworks hclosed
        (@lawful_edit (some .running) _ none none none _ (JobRunner.lawfulEdit_segmentProgress fraction)) ?_).mono
          hpolled fun _ _ hc => hc) (fun _ _ hc => hc) fun _ => Ensures.ret hstable fun _ hc => hc
      intro now row row' _ hrun
      obtain ⟨hholds, rfl⟩ := JobUpdate.run_eq_some.mp hrun
      have hrunning := Condition.mem_of_holds hholds
        (by simp [JobUpdate.edit] : [StatusText.known .running] ∈ _)
      exact (List.mem_singleton.mp hrunning).symm

/-- The `is_cancelled` of a generation context: the registration says so only when the row
does. -/
theorem ensured_contextCancelled (hworks : env.faults = false) (hclosed : CancelClosed statuses)
    (hcancelled : .cancelled ∉ statuses)
    (hstopped : ∀ status ∈ statuses, JobService.cancelTarget status = none → status = .cancelRequested) :
    Ensured env id t (Owned id token statuses) (JobRunner.contextCancelled id) (Polled id token statuses) := by
  refine Ensures.bind (Q := Polled id token statuses)
    (Ensures.exec (stable_owned hclosed) (fun _ => stable_polled hclosed) ?_) ?_ ?_
  · intro c told c' hc hmem
    have hstep := mem_step_beside hmem
    simp only [step, List.mem_singleton, Prod.mk.injEq] at hstep
    obtain ⟨rfl, hstate⟩ := hstep
    refine ⟨_, rfl, ?_⟩
    have hc' : Owned id token statuses c' := hc.of_eq (by rw [hstate]) (by rw [hstate])
    split
    next htold =>
      obtain ⟨entry, hentry, hset⟩ : Requested c.state id := by
        simpa [Requested, Option.any_eq_true] using htold
      obtain ⟨status, hstatus, htarget⟩ := hc.informed ⟨entry, hentry, hset⟩
      obtain ⟨status', hmem', hstatus'⟩ := hc'.status
      rw [hstate] at hstatus'
      obtain rfl : status' = status := by simpa [hstatus] using hstatus'.symm
      exact ⟨⟨_, by simp [hstopped _ hmem' htarget], hstate ▸ hstatus⟩, hc'.decodes, hc'.token, hc'.informed⟩
    next => exact hc'
  · rintro e c ⟨told, hr, -⟩
    cases hr
  · intro told c τ r c' hc hruns
    obtain ⟨told', hr, hc⟩ := hc
    obtain rfl : told = told' := Except.ok.inj hr
    cases told with
    | true =>
      exact Ensures.ret (Q := Polled id token statuses) (stable_polled hclosed)
        (fun c hc => ⟨true, rfl, hc⟩) c τ r c' hc hruns
    | false => exact ensured_isCancelled hworks hclosed hcancelled c τ r c' hc hruns

end Owned

/-- A generator raises `GenerationCancelled` only after one of its probes answered true. -/
def HonestRun : Bool → GeneratorRun → Prop
  | probed, .returns result => result = .error .generationCancelled → probed
  | probed, .report _ rest => ∀ answer, HonestRun probed (rest answer)
  | probed, .reportSegment _ rest => ∀ answer, HonestRun probed (rest answer)
  | probed, .pollContext rest => ∀ answer, HonestRun (probed || decide (answer = .ok true)) (rest answer)
  | probed, .pollJob rest => ∀ answer, HonestRun (probed || decide (answer = .ok true)) (rest answer)

/-- Where the job of a generator is that has been told to stop, or has not. -/
def runningStatuses (probed : Bool) : List GenerationStatus :=
  if probed then [.cancelRequested] else afterCancel .running

section Generator
variable {env : Env} {id : JobId} {t : Tid} {token : Option ℕ}

/-- A generator leaves the job running, or asked to stop; the latter if it gives up for it. -/
theorem ensured_runGenerator (hworks : env.faults = false) {run : GeneratorRun} {probed : Bool}
    (hhonest : HonestRun probed run) :
    Ensured env id t (Owned id token (runningStatuses probed)) (JobRunner.runGenerator id run) fun r c =>
      Owned id token (afterCancel .running) c ∧
        (r = .error .generationCancelled → Owned id token [.cancelRequested] c) := by
  have hclosed (probed : Bool) : CancelClosed (runningStatuses probed) := by cases probed <;> decide
  have hcancelled (probed : Bool) : .cancelled ∉ runningStatuses probed := by cases probed <;> decide
  have hrequested (probed : Bool) : .cancelRequested ∈ runningStatuses probed := by cases probed <;> decide
  have hstopped (probed : Bool) : ∀ status ∈ runningStatuses probed,
      JobService.cancelTarget status = none → status = .cancelRequested := by cases probed <;> decide
  -- a probe that answers true has found the job asked to stop
  have hprobe (probed : Bool) (answer : Except Exc Bool) (c : Config Cmd World Exc)
      (hc : Polled id token (runningStatuses probed) answer c) :
      Owned id token (runningStatuses (probed || decide (answer = .ok true))) c := by
    obtain ⟨cancelled, rfl, hc⟩ := hc
    refine hc.mono ?_
    cases probed <;> cases cancelled <;> decide
  induction run generalizing probed with
  | returns result =>
    refine Ensures.ofExcept (stable_and (stable_owned (cancelClosed_afterCancel _))
      (stable_imp fun _ => stable_owned (hclosed true))) fun c hc => ⟨hc.mono ?_, fun hresult => ?_⟩
    · cases probed <;> decide
    · rw [hhonest hresult] at hc
      exact hc
  | report fraction rest ih =>
    exact Ensures.attempt_bind (ensured_reportGenerationProgress hworks (hclosed probed) fraction)
      fun answer => ih answer (hhonest answer)
  | reportSegment fraction rest ih =>
    exact Ensures.attempt_bind (ensured_reportSegmentProgress hworks (hclosed probed) (hcancelled probed)
      (hrequested probed) fraction) fun answer => ih answer (hhonest answer)
  | pollContext rest ih =>
    exact Ensures.attempt_bind (ensured_contextCancelled hworks (hclosed probed) (hcancelled probed)
      (hstopped probed)) fun answer => (ih answer (hhonest answer)).mono (hprobe probed answer) fun _ _ h => h
  | pollJob rest ih =>
    exact Ensures.attempt_bind (ensured_isCancelled hworks (hclosed probed) (hcancelled probed))
      fun answer => (ih answer (hhonest answer)).mono (hprobe probed answer) fun _ _ h => h

/-- The run of the generator in an execution, and what it ended with. -/
def GeneratorRan (env : Env) (id : JobId) (t : Tid) (τ : List (Transition Cmd (Config Cmd World Exc)))
    (r : Except Exc GenerationResult) : Prop :=
  ∃ τ₀ τ₁ τ₂ request run c₁ c₂, τ = τ₀ ++ τ₁ ++ τ₂ ∧
    (∃ step ∈ τ₀, step.own = some ⟨.generate id request, run⟩) ∧
      Runs (studio env).beside (cancelSystem env id).Step t (JobRunner.runGenerator id run) c₁ τ₁ r c₂

/-- Finding the generator has raised, or the generator has. -/
def SomethingRaised (env : Env) (id : JobId) (t : Tid)
    (τ : List (Transition Cmd (Config Cmd World Exc))) : Prop :=
  (∃ step ∈ τ, ∃ mediaType request e, step.own = some ⟨.findGenerator mediaType request, .error e⟩) ∨
    ∃ e, GeneratorRan env id t τ (.error e)

theorem GeneratorRan.append {τ : List (Transition Cmd (Config Cmd World Exc))} {r : Except Exc GenerationResult}
    (h : GeneratorRan env id t τ r) (τ' τ'' : List (Transition Cmd (Config Cmd World Exc))) :
    GeneratorRan env id t (τ' ++ τ ++ τ'') r := by
  obtain ⟨τ₀, τ₁, τ₂, request, run, c₁, c₂, rfl, ⟨step, hmem, hown⟩, hruns⟩ := h
  exact ⟨τ' ++ τ₀, τ₁, τ₂ ++ τ'', request, run, c₁, c₂, by simp,
    ⟨step, List.mem_append_right _ hmem, hown⟩, hruns⟩

theorem SomethingRaised.append {τ : List (Transition Cmd (Config Cmd World Exc))}
    (h : SomethingRaised env id t τ) (τ' τ'' : List (Transition Cmd (Config Cmd World Exc))) :
    SomethingRaised env id t (τ' ++ τ ++ τ'') := by
  rcases h with ⟨step, hmem, hown⟩ | ⟨e, hran⟩
  · exact .inl ⟨step, List.mem_append_left _ (List.mem_append_right _ hmem), hown⟩
  · exact .inr ⟨e, hran.append τ' τ''⟩

/-- The collaborators of the runner: storage works, and nothing claims to have been cancelled
that was not told so. -/
structure Honest (env : Env) : Prop where
  works : env.faults = false
  generators : ∀ id request, ∀ run ∈ env.generators id request, HonestRun false run
  lookup : .generationCancelled ∉ env.unsupported

/-- `_update_status`. -/
theorem ensured_updateStatus (hworks : env.faults = false) {expected target : GenerationStatus} {progress : ℚ}
    (hactive : ¬ expected.isTerminalStatus) (htarget : target ≠ .queued)
    (hedge : expected.isValidTransition target) (hprogress : 0 ≤ progress ∧ progress ≤ 1) :
    Ensured env id t (Owned id token (afterCancel expected)) (JobRunner.updateStatus id expected target progress)
      fun r c => (r = .ok none ∧ Owned id token (afterCancel expected).tail c) ∨
        Read id token (afterCancel target) r c := by
  refine ensured_update hworks hactive htarget hedge ?_
  rintro fraction ⟨rfl⟩
  exact hprogress

/-- How the inner `try` of `process_job` ends. -/
inductive Generated (env : Env) (id : JobId) (t : Tid) (token : Option ℕ)
    (τ : List (Transition Cmd (Config Cmd World Exc))) :
    Except Exc (Option JobRecord ⊕ GenerationResult) → Config Cmd World Exc → Prop
  | early {job : Option JobRecord} {c : Config Cmd World Exc} (h : Owned id token [.cancelled] c) :
      Generated env id t token τ (.ok (.inl job)) c
  | returned {result : GenerationResult} {c : Config Cmd World Exc} (hran : GeneratorRan env id t τ (.ok result))
      (h : Owned id token (afterCancel .running) c) : Generated env id t token τ (.ok (.inr result)) c
  | gaveUp {c : Config Cmd World Exc} (h : Owned id token [.cancelRequested] c) :
      Generated env id t token τ (.error .generationCancelled) c
  | raised {e : Exc} {c : Config Cmd World Exc} (hne : e ≠ .generationCancelled)
      (hraised : SomethingRaised env id t τ) (h : Owned id token [.preparing, .running, .cancelRequested] c) :
      Generated env id t token τ (.error e) c

/-- Handing the job to its generator. -/
theorem ensured_generate (henv : Honest env) (request : GenerationRequest) {statuses : List GenerationStatus}
    (hclosed : CancelClosed statuses) :
    Ensured env id t (Owned id token statuses) (Prog.exec (.generate id request)) fun r c =>
      ∀ run, r = .ok run → HonestRun false run ∧ Owned id token statuses c := by
  refine Ensures.exec (stable_owned hclosed) (fun run => ?_) ?_
  · intro c c' hrely h run' hr
    exact ⟨(h run' hr).1, stable_owned hclosed c c' hrely (h run' hr).2⟩
  · intro c run c' hc hmem run' hr
    obtain rfl := Except.ok.inj hr
    have hstep := mem_step_beside hmem
    simp only [step, List.mem_map, Prod.mk.injEq] at hstep
    obtain ⟨run', hgenerators, rfl, hstate⟩ := hstep
    exact ⟨henv.generators id request _ hgenerators, hc.of_eq (by rw [← hstate]; rfl) (by rw [← hstate])⟩

/-- Finding the generator of the job. -/
theorem ensured_findGenerator (henv : Honest env) (job : JobRecord) :
    Ensured env id t (Owned id token (afterCancel .preparing))
      (Prog.call (.findGenerator job.mediaType job.request)) fun r c =>
        r ≠ .error .generationCancelled ∧ Owned id token (afterCancel .preparing) c := by
  have hstable : Stable (Beside env id) (Owned id token (afterCancel .preparing)) :=
    stable_owned (cancelClosed_afterCancel _)
  refine Ensures.call hstable (fun r => stable_and (stable_const _) hstable) ?_
  intro c r c' hc hmem
  have hstep := mem_step_beside hmem
  simp only [step, List.mem_cons, List.mem_map, Prod.mk.injEq] at hstep
  rcases hstep with ⟨rfl, hstate⟩ | ⟨e, he, rfl, hstate⟩
  · exact ⟨by simp, hc.of_eq (by rw [hstate]) (by rw [hstate])⟩
  · refine ⟨fun heq => henv.lookup ?_, hc.of_eq (by rw [hstate]) (by rw [hstate])⟩
    rw [← Except.error.inj heq]
    exact he

theorem Generated.prepend {τ : List (Transition Cmd (Config Cmd World Exc))}
    {r : Except Exc (Option JobRecord ⊕ GenerationResult)} {c : Config Cmd World Exc}
    (h : Generated env id t token τ r c) (τ' : List (Transition Cmd (Config Cmd World Exc))) :
    Generated env id t token (τ' ++ τ) r c := by
  cases h with
  | early h => exact .early h
  | returned hran h => exact .returned (by simpa using hran.append τ' []) h
  | gaveUp h => exact .gaveUp h
  | raised hne hraised h => exact .raised hne (by simpa using hraised.append τ' []) h

/-- The job is running, and its generator is started. -/
theorem started_ends (henv : Honest env) (request : GenerationRequest) {c c' : Config Cmd World Exc}
    {τ : List (Transition Cmd (Config Cmd World Exc))} {r : Except Exc (Option JobRecord ⊕ GenerationResult)}
    (hc : Owned id token (afterCancel .running) c)
    (h : Runs (studio env).beside (Beside env id) t (do
      let run ← Prog.exec (.generate id request)
      return .inr (← JobRunner.runGenerator id run)) c τ r c') : Generated env id t token τ r c' := by
  have hclosed := cancelClosed_afterCancel .running
  rcases h.of_bind with ⟨e, -, hexec⟩ | ⟨run, c₁, τ₁, τ₂, rfl, hexec, hstarted⟩
  · obtain ⟨run, hr, -⟩ := hexec.mem_of_exec
    cases hr
  obtain ⟨run', hr, step, hmem, hown⟩ := hexec.mem_of_exec
  obtain rfl := Except.ok.inj hr
  obtain ⟨hhonest, hc₁⟩ := ensured_generate henv request hclosed _ _ _ _ hc hexec run rfl
  rcases hstarted.of_bind with ⟨e, rfl, hraise⟩ | ⟨result, c₂, τ₃, τ₄, rfl, hreturn, hret⟩
  · obtain ⟨hc', hgaveUp⟩ := ensured_runGenerator henv.works hhonest _ _ _ _ hc₁ hraise
    by_cases hcancelled : e = .generationCancelled
    · subst hcancelled
      exact .gaveUp (hgaveUp rfl)
    · exact .raised hcancelled (.inr ⟨e, τ₁, τ₂, [], request, run, c₁, c', by simp, ⟨step, hmem, hown⟩,
        hraise.mono fun _ _ h => h.1⟩) (hc'.mono (by decide))
  · obtain ⟨hc₂, -⟩ := ensured_runGenerator henv.works hhonest _ _ _ _ hc₁ hreturn
    have hc' := Ensures.ret (Q := fun _ c => Owned id token (afterCancel .running) c)
      (stable_owned hclosed) (fun c hc => hc) _ _ _ _ hc₂ hret
    rw [hret.result_of_ret]
    exact .returned ⟨τ₁, τ₃, τ₄, request, run, c₁, c₂, by simp, ⟨step, hmem, hown⟩,
      hreturn.mono fun _ _ h => h.1⟩ hc'

theorem generate_ends (henv : Honest env) (job : JobRecord) {c c' : Config Cmd World Exc}
    {τ : List (Transition Cmd (Config Cmd World Exc))} {r : Except Exc (Option JobRecord ⊕ GenerationResult)}
    (hc : Owned id token (afterCancel .preparing) c)
    (h : Runs (studio env).beside (Beside env id) t (JobRunner.generate id job) c τ r c') :
    Generated env id t token τ r c' := by
  rcases h.of_bind with ⟨e, rfl, hfind⟩ | ⟨_, c₁, τ₁, τ₂, rfl, hfind, hfound⟩
  · obtain ⟨hne, hc'⟩ := ensured_findGenerator henv job _ _ _ _ hc hfind
    obtain ⟨step, hmem, hown⟩ := hfind.mem_of_call
    exact .raised (fun heq => hne (by rw [heq])) (.inl ⟨step, hmem, _, _, e, hown⟩) (hc'.mono (by decide))
  obtain ⟨-, hc₁⟩ := ensured_findGenerator henv job _ _ _ _ hc hfind
  refine Generated.prepend ?_ τ₁
  have hupdated : Ensured env id t (Owned id token (afterCancel .preparing))
      (JobRunner.updateStatus id .preparing .running (1 / 10)) _ :=
    ensured_updateStatus henv.works (by decide) (by decide) (by decide) (by norm_num)
  rcases hfound.of_bind with ⟨e, -, hupdate⟩ | ⟨claimed, c₂, τ₃, τ₄, rfl, hupdate, hrest⟩
  · rcases hupdated _ _ _ _ hc₁ hupdate with ⟨hr, -⟩ | ⟨job, hr, -⟩ <;> cases hr
  refine Generated.prepend ?_ τ₃
  have hclaimed := hupdated _ _ _ _ hc₁ hupdate
  cases claimed with
  | none =>
    -- the compare-and-set has lost to a request to cancel
    rcases hclaimed with ⟨-, hc₂⟩ | ⟨job, hr, -⟩
    swap
    · cases hr
    rcases hrest.of_bind with ⟨e, -, hfinal⟩ | ⟨early, c₃, τ₅, τ₆, rfl, hfinal, hret⟩
    · obtain ⟨job, hr, -⟩ := ensured_finalizeCancellation henv.works _ _ _ _ hc₂ hfinal
      cases hr
    · have hfinal := (ensured_finalizeCancellation henv.works _ _ _ _ hc₂ hfinal).owned (by decide)
      have hc' := Ensures.ret (Q := fun _ c => Owned id token [.cancelled] c) (stable_owned (by decide))
        (fun c hc => hc) _ _ _ _ hfinal hret
      rw [hret.result_of_ret]
      exact .early hc'
  | some claimed =>
    rcases hclaimed with ⟨hr, -⟩ | hread
    · cases hr
    exact started_ends henv job.request (hread.owned (cancelClosed_afterCancel .running)) hrest

/-! ## After the generator -/

/-- Synchronising the assets leaves the row alone, whether it raises or not. -/
theorem ensured_syncJob (job : JobRecord) {statuses : List GenerationStatus} (hclosed : CancelClosed statuses) :
    Ensured env id t (Owned id token statuses) (Prog.call (.syncJob job)) fun _ c => Owned id token statuses c := by
  refine Ensures.call (stable_owned hclosed) (fun _ => stable_owned hclosed) ?_
  intro c r c' hc hmem
  have hstep := mem_step_beside hmem
  rcases mem_fallible hstep with hstep | ⟨-, hstate⟩
  · simp only [List.mem_cons, List.mem_map, Prod.mk.injEq] at hstep
    rcases hstep with ⟨-, hstate⟩ | ⟨e, -, -, hstate⟩
    · exact hc.of_eq (by rw [hstate]; rfl) (by rw [hstate]; rfl)
    · exact hc.of_eq (by rw [hstate]) (by rw [hstate])
  · exact hc.of_eq (by rw [hstate]) (by rw [hstate])

/-- `mark_succeeded` has ended the job, or tells that it was asked to stop. -/
theorem ensured_markSucceeded (hworks : env.faults = false) (result : GenerationResult) :
    Ensured env id t (Owned id token (afterCancel .postprocessing)) (JobService.markSucceeded id result) fun r c =>
      Read id token [.cancelRequested] r c ∨
        (Owned id token [.succeeded] c ∧ ∀ job, r = .ok (some job) → job.status = .succeeded) := by
  have hdone : CancelClosed [.succeeded] := by decide
  have hstop : CancelClosed [.cancelRequested] := by decide
  refine Ensures.bind (ensured_update hworks (by decide) (by decide) (by decide)
    JobService.one_mem_range) ?_ ?_
  · rintro e c (⟨hr, -⟩ | ⟨job, hr, -⟩) <;> cases hr
  · rintro (_ | job)
    · refine ((ensured_get hworks hstop).mono ?_ fun r c hread => .inl hread)
      rintro c (⟨-, hc⟩ | ⟨job, hr, -⟩)
      · exact hc
      · cases hr
    · -- the row has ended; what the synchronisation does no longer matters
      refine Ensures.bind (Q := fun _ c => Owned id token [.succeeded] c ∧ job.status = .succeeded) ?_ ?_ ?_
      · intro c τ r c' hc hruns
        rcases hc with ⟨hr, -⟩ | hread
        · cases hr
        have hc := hread.owned hdone
        obtain ⟨job', hr, hmem, -⟩ := hread
        obtain rfl : job = job' := by simpa using hr
        refine ⟨ensured_syncJob job hdone c τ r c' hc hruns, ?_⟩
        simpa [afterCancel, JobService.cancelTarget] using hmem
      · exact fun e c hc => .inr ⟨hc.1, fun job hr => by cases hr⟩
      · refine fun _ => Ensures.ret ?_ fun c hc => .inr ⟨hc.1, fun job' hr => ?_⟩
        · exact stable_or stable_read (stable_and (stable_owned hdone) (stable_const _))
        · obtain rfl : job = job' := by simpa using hr
          exact hc.2

/-- The last compare-and-set of the worker, and what it owes a request to cancel that has won. -/
theorem ensured_postprocessed (hworks : env.faults = false) (result : GenerationResult) :
    Ensured env id t (Owned id token (afterCancel .postprocessing)) (do
      let completion ← JobService.markSucceeded id result
      if completion.any fun job => job.status == .cancelRequested then JobRunner.finalizeCancellation id
      else pure completion) fun _ c => Owned id token [.cancelled] c ∨ Owned id token [.succeeded] c := by
  have hcancelled : CancelClosed [.cancelled] := by decide
  have hdone : CancelClosed [.succeeded] := by decide
  refine Ensures.bind (ensured_markSucceeded hworks result) ?_ ?_
  · rintro e c (⟨job, hr, -⟩ | ⟨hc, -⟩)
    · cases hr
    · exact .inr hc
  · intro completion c τ r c' hc hruns
    split at hruns
    next hstop =>
      rcases hc with hread | ⟨-, hstatus⟩
      · have hc := hread.owned (by decide)
        exact .inl ((ensured_finalizeCancellation hworks c τ r c' hc hruns).owned hcancelled)
      · obtain ⟨job, rfl, hrequested⟩ := Option.any_eq_true _ _ |>.mp hstop
        rw [hstatus job rfl] at hrequested
        cases hrequested
    next hstop =>
      rcases hc with ⟨job, hr, hmem, -⟩ | ⟨hc, -⟩
      · obtain rfl : completion = some job := Except.ok.inj hr
        exact absurd (by simpa using hmem) hstop
      · exact .inr (Ensures.ret (Q := fun _ c => Owned id token [.succeeded] c) (stable_owned hdone)
          (fun c hc => hc) c τ r c' hc hruns)

/-- What happens to the result of a generator. -/
theorem ensured_complete (hworks : env.faults = false) (result : GenerationResult) :
    Ensured env id t (Owned id token (afterCancel .running)) (JobRunner.complete id result) fun _ c =>
      Owned id token [.cancelled] c ∨ Owned id token [.succeeded] c := by
  intro c τ r c' hc h
  rcases runs_checkpoint hworks (cancelClosed_afterCancel .running) (by decide) hc h with
    hcancelled | ⟨c₁, τ₁, τ₂, -, hc₁, hrest⟩
  · exact .inl hcancelled
  refine (?_ : Ensured env id t (Owned id token (afterCancel .running)) _ fun _ c =>
    Owned id token [.cancelled] c ∨ Owned id token [.succeeded] c) c₁ τ₂ r c' hc₁ hrest
  refine Ensures.bind (ensured_updateStatus hworks (by decide) (by decide) (by decide) (by norm_num)) ?_ ?_
  · rintro e c (⟨hr, -⟩ | ⟨job, hr, -⟩) <;> cases hr
  rintro (_ | job)
  · refine (ensured_finalizeCancellation hworks).mono ?_ fun _ _ hread => .inl (hread.owned (by decide))
    rintro c (⟨-, hc⟩ | ⟨job, hr, -⟩)
    · exact hc
    · cases hr
  · refine (ensured_postprocessed hworks result).mono ?_ fun _ _ h => h
    rintro c (⟨hr, -⟩ | hread)
    · cases hr
    · exact hread.owned (cancelClosed_afterCancel _)

/-! ## The job is resolved -/

/-- How the job of a worker has ended, and what it took. -/
inductive Ended (env : Env) (id : JobId) (t : Tid) (token : Option ℕ)
    (τ : List (Transition Cmd (Config Cmd World Exc))) (c : Config Cmd World Exc) : Prop
  | cancelled (h : Owned id token [.cancelled] c)
  | failed (hraised : SomethingRaised env id t τ) (h : Owned id token [.failed] c)
  | succeeded {result : GenerationResult} (hran : GeneratorRan env id t τ (.ok result))
      (h : Owned id token [.succeeded] c)

theorem Ended.append {τ : List (Transition Cmd (Config Cmd World Exc))} {c : Config Cmd World Exc}
    (h : Ended env id t token τ c) (τ' τ'' : List (Transition Cmd (Config Cmd World Exc))) :
    Ended env id t token (τ' ++ τ ++ τ'') c := by
  cases h with
  | cancelled h => exact .cancelled h
  | failed hraised h => exact .failed (hraised.append τ' τ'') h
  | succeeded hran h => exact .succeeded (hran.append τ' τ'') h

theorem runRegistered_ends (henv : Honest env) (job : JobRecord) {c c' : Config Cmd World Exc}
    {τ : List (Transition Cmd (Config Cmd World Exc))} {r : Except Exc (Option JobRecord)}
    (hc : Owned id token (afterCancel .preparing) c)
    (h : Runs (studio env).beside (Beside env id) t (JobRunner.runRegistered id job) c τ r c') :
    Ended env id t token τ c' := by
  have hclosed : CancelClosed [.cancelled] := by decide
  rcases runs_checkpoint henv.works (cancelClosed_afterCancel .preparing) (by decide) hc h with
    hcancelled | ⟨c₁, τ₁, τ₂, rfl, hc₁, hrest⟩
  · exact .cancelled hcancelled
  obtain ⟨outcome, c₂, τ₃, τ₄, rfl, hgenerate, hafter⟩ := Runs.of_attempt_bind hrest
  have hgenerated := generate_ends henv job hc₁ hgenerate
  cases hgenerated with
  | early hc₂ =>
    exact .cancelled (Ensures.ret (Q := fun _ c => Owned id token [.cancelled] c) (stable_owned hclosed)
      (fun c hc => hc) _ _ _ _ hc₂ hafter)
  | @returned result _ hran hc₂ =>
    rcases ensured_complete henv.works _ _ _ _ _ hc₂ hafter with hc' | hc'
    · exact .cancelled hc'
    · have hran := hran.append τ₁ τ₄
      rw [List.append_assoc] at hran
      exact .succeeded hran hc'
  | gaveUp hc₂ =>
    exact .cancelled ((ensured_finalizeCancellation henv.works _ _ _ _ hc₂ hafter).owned hclosed)
  | @raised e _ hne hraised hc₂ =>
    have hfailure : Runs (studio env).beside (Beside env id) t (do
        if ← JobRunner.isCancelled id then JobRunner.finalizeCancellation id
        else JobService.markFailed id e.text) c₂ τ₄ r c' := by
      cases e <;> first | exact hafter | exact absurd rfl hne
    rcases runs_checkpoint henv.works (by decide) (by decide) hc₂ hfailure with
      hcancelled | ⟨c₃, τ₅, τ₆, rfl, hc₃, hfailed⟩
    · exact .cancelled hcancelled
    · have hraised := hraised.append τ₁ (τ₅ ++ τ₆)
      rw [List.append_assoc] at hraised
      exact .failed hraised (ensured_markFailed henv.works (by decide) (by decide) _ _ _ _ _ hc₃ hfailed)

/-- A read that decides nothing. -/
theorem ensured_get_keeps (hworks : env.faults = false) {statuses : List GenerationStatus}
    (hclosed : CancelClosed statuses) :
    Ensured env id t (Owned id token statuses) (JobRepository.get id) fun _ c => Owned id token statuses c :=
  (ensured_get hworks hclosed).mono (fun _ hc => hc) fun _ _ hread => hread.owned hclosed

/-- A job that has ended is past every compare-and-set. -/
theorem ensured_ended (hworks : env.faults = false) {status target : GenerationStatus}
    (hterminal : status.isTerminalStatus) {message : Option (Option String)} {expected : List GenerationStatus}
    (hexpected : ∀ s ∈ expected, ¬ s.isTerminalStatus) (htarget : target ≠ .queued) :
    Ensured env id t (Owned id token [status]) (do
      match ← JobRepository.updateCore.run id (.edit (some target) (some 1) none none message
        (some (expected.map .known))) with
      | none => JobService.getJob id
      | some job => pure (some job)) fun _ c => Owned id token [status] c := by
  have hclosed : CancelClosed [status] := by cases status <;> first | decide | cases hterminal
  have hlawful : (JobUpdate.edit (some target) (some 1) none none message (some (expected.map .known))).Lawful :=
    lawful_edit (JobService.lawfulEdit_of expected hexpected htarget JobService.one_mem_range)
  refine Ensures.bind (Q := fun _ c => Owned id token [status] c) (ensured_keeps hworks hclosed hlawful ?_)
    (fun _ _ hc => hc) ?_
  · rintro now row row' ⟨status', hmem, hstatus⟩ hrun
    obtain rfl := List.mem_singleton.mp hmem
    have hchange := JobUpdate.statusChange hrun
    rw [hstatus] at hchange ⊢
    exact hchange.of_terminal hterminal
  · rintro (_ | job)
    · exact ensured_get_keeps hworks hclosed
    · exact Ensures.ret (stable_owned hclosed) fun _ hc => hc

/-- `_resolve_claim_failure` leaves a job alone that has ended. -/
theorem ensured_resolveClaimFailure (hworks : env.faults = false) {status : GenerationStatus}
    (hterminal : status.isTerminalStatus) (e : Exc) :
    Ensured env id t (Owned id token [status]) (JobRunner.resolveClaimFailure id e)
      fun _ c => Owned id token [status] c := by
  have hclosed : CancelClosed [status] := by cases status <;> first | decide | cases hterminal
  have hstable : Stable (Beside env id) (Owned id token [status]) := stable_owned hclosed
  have hfinal : Ensured env id t (Owned id token [status]) (JobRunner.finalizeCancellation id)
      fun _ c => Owned id token [status] c :=
    @ensured_ended env id t token hworks status .cancelled hterminal none [.cancelRequested] (by decide) (by decide)
  have hfailed : Ensured env id t (Owned id token [status]) (JobService.markFailed id e.text)
      fun _ c => Owned id token [status] c :=
    @ensured_ended env id t token hworks status .failed hterminal _ GenerationStatus.activeJobStatuses
      (by decide) (by decide)
  have hreturn (job : Option JobRecord) : Ensured env id t (Owned id token [status]) (.ret job)
      fun _ c => Owned id token [status] c := Ensures.ret hstable fun _ hc => hc
  refine Ensures.bind (Q := fun _ c => Owned id token [status] c) (Ensures.attempt_bind hfinal ?_)
    (fun _ _ hc => hc) fun current => ?_
  · rintro (e | job) <;> exact hreturn _
  · split
    · exact hreturn current
    · refine Ensures.attempt_bind hfailed ?_
      rintro (e | job)
      · refine Ensures.attempt_bind (ensured_get_keeps hworks hclosed) ?_
        rintro (e | job) <;> exact hreturn _
      · exact hreturn job

theorem Ended.transfer {τ : List (Transition Cmd (Config Cmd World Exc))} {c c' : Config Cmd World Exc}
    {token' : Option ℕ} (h : Ended env id t token τ c) (hkeeps : ∀ status : GenerationStatus,
      status.isTerminalStatus → Owned id token [status] c → Owned id token' [status] c') :
    Ended env id t token' τ c' := by
  cases h with
  | cancelled h => exact .cancelled (hkeeps .cancelled rfl h)
  | failed hraised h => exact .failed hraised (hkeeps .failed rfl h)
  | succeeded hran h => exact .succeeded hran (hkeeps .succeeded rfl h)

theorem ensured_registryBegin {statuses : List GenerationStatus} (hclosed : CancelClosed statuses) :
    Ensured env id t (Owned id none statuses) (Prog.exec (.registryBegin id)) fun r c =>
      ∃ token, r = .ok token ∧ Owned id (some token) statuses c := by
  refine Ensures.exec (stable_owned hclosed) (fun token => stable_exists fun token' =>
    stable_and (stable_const _) (stable_owned hclosed)) ?_
  intro c token c' hc hmem
  have hstep := mem_step_beside hmem
  have hnone : c.state.registry.lookup id = none := by simpa [tokenOf] using hc.token
  simp only [step, hnone, List.mem_singleton, Prod.mk.injEq] at hstep
  obtain ⟨rfl, hstate⟩ := hstep
  have hrow : c'.state.row? id = c.state.row? id := by rw [hstate]; rfl
  have hstatus : statusOf c'.state id = statusOf c.state id := by rw [statusOf, hrow]; rfl
  refine ⟨_, rfl, hstatus ▸ hc.status, ?_, ?_, ?_⟩
  · simpa [Decodes, hrow] using hc.decodes
  · simp [tokenOf, hstate]
  · rintro ⟨entry, hentry, hrequested⟩
    rw [hstate] at hentry
    obtain rfl : { token := c.state.tokens } = entry := by simpa using hentry
    cases hrequested

theorem ensured_registryEnd {statuses : List GenerationStatus} (hclosed : CancelClosed statuses) (token : ℕ) :
    Ensured env id t (Owned id (some token) statuses) (Prog.exec (.registryEnd id token)) fun _ c =>
      Owned id none statuses c := by
  refine Ensures.exec (stable_owned hclosed) (fun _ => stable_owned hclosed) ?_
  intro c _ c' hc hmem
  have hstep := mem_step_beside hmem
  obtain ⟨entry, hentry, htoken⟩ := Option.map_eq_some_iff.mp hc.token
  simp only [step, hentry, Option.any_some, htoken, BEq.rfl, if_true, List.mem_singleton, Prod.mk.injEq,
    true_and] at hstep
  have hrow : c'.state.row? id = c.state.row? id := by rw [hstep]; rfl
  have hstatus : statusOf c'.state id = statusOf c.state id := by rw [statusOf, hrow]; rfl
  have hgone : c'.state.registry.lookup id = none := by simp [hstep]
  refine ⟨hstatus ▸ hc.status, ?_, ?_, ?_⟩
  · simpa [Decodes, hrow] using hc.decodes
  · simp [tokenOf, hgone]
  · rintro ⟨entry, hentry, -⟩
    rw [hgone] at hentry
    cases hentry

/-- What the worker of a claimed job does, from its first read to the end of its registration. -/
theorem execute_ends (henv : Honest env) (job : JobRecord) {c c' : Config Cmd World Exc}
    {τ : List (Transition Cmd (Config Cmd World Exc))} {r : Except Exc (Option JobRecord)}
    (hc : Owned id none (afterCancel .preparing) c)
    (h : Runs (studio env).beside (Beside env id) t (JobRunner.execute id job) c τ r c') :
    Ended env id t none τ c' := by
  have hclosed := cancelClosed_afterCancel .preparing
  have hterminal (status : GenerationStatus) (hstatus : status.isTerminalStatus) : CancelClosed [status] := by
    cases status <;> first | decide | cases hstatus
  rcases h.of_bind with ⟨e, -, hget⟩ | ⟨found, c₁, τ₁, τ₂, rfl, hget, hfound⟩
  · obtain ⟨job, hr, -⟩ := ensured_get henv.works hclosed _ _ _ _ hc hget
    cases hr
  have hread := ensured_get henv.works hclosed _ _ _ _ hc hget
  have hc₁ := hread.owned hclosed
  obtain ⟨job', hr, -⟩ := hread
  obtain rfl := Except.ok.inj hr
  rcases hfound.of_bind with ⟨e, -, hbegin⟩ | ⟨token, c₂, τ₃, τ₄, rfl, hbegin, hrest⟩
  · obtain ⟨token, hr, -⟩ := ensured_registryBegin hclosed _ _ _ _ hc₁ hbegin
    cases hr
  obtain ⟨token', hr, hc₂⟩ := ensured_registryBegin hclosed _ _ _ _ hc₁ hbegin
  obtain rfl := Except.ok.inj hr
  obtain ⟨outcome, c₃, τ₅, τ₆, rfl, hresolved, hfinally⟩ := Runs.of_attempt_bind hrest
  obtain ⟨registered, c₄, τ₇, τ₈, rfl, hregistered, hhandler⟩ := Runs.of_attempt_bind hresolved
  have hended := runRegistered_ends henv job hc₂ hregistered
  -- whatever the body raised, its handler finds the job ended
  have hended₃ : Ended env id t (some token) τ₇ c₃ := by
    refine hended.transfer fun status hstatus hc₄ => ?_
    cases registered with
    | ok completion =>
      exact Ensures.ret (Q := fun _ c => Owned id (some token) [status] c) (stable_owned (hterminal status hstatus))
        (fun c hc => hc) _ _ _ _ hc₄ hhandler
    | error e => exact ensured_resolveClaimFailure henv.works hstatus e _ _ _ _ hc₄ hhandler
  have hended' : Ended env id t none τ₇ c' := by
    refine hended₃.transfer fun status hstatus hc₃ => ?_
    have hfinal : Ensured env id t (Owned id (some token) [status]) (do
        Prog.exec (.registryEnd id token)
        Prog.ofExcept outcome) fun _ c => Owned id none [status] c :=
      Ensures.bind (ensured_registryEnd (hterminal status hstatus) token) (fun _ _ hc => hc)
        fun _ => Ensures.ofExcept (stable_owned (hterminal status hstatus)) fun _ hc => hc
    exact hfinal _ _ _ _ hc₃ hfinally
  simpa using hended'.append (τ₁ ++ τ₃) (τ₈ ++ τ₆)

end Generator

end CreativeStudio.Jobs
