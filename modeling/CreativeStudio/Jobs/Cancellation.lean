import CreativeStudio.Conc.Executions
import CreativeStudio.Jobs.Service
import CreativeStudio.Jobs.StatusLaw

/-!
# What a request to cancel does to a job

Any number of threads call `cancel_job` for one job. Each of their commands reads, moves the
job from an active status to the status that stops it, or tells the worker of the job; the
worker is told only when the row says so already.
-/

namespace CreativeStudio.Storage
open Data Jobs Conc

/-! ## Statuses only move on -/

/-- How far a job is on its way: each change of its status takes it further. -/
def stage : GenerationStatus → ℕ
  | .queued => 0
  | .preparing => 1
  | .running => 2
  | .postprocessing => 3
  | .cancelRequested => 4
  | .succeeded | .failed | .cancelled => 5

theorem StatusChange.stage_lt {current target : GenerationStatus}
    (h : StatusChange (.known current) (.known target)) (hne : target ≠ current) :
    stage current < stage target := by
  cases h with
  | same => exact absurd rfl hne
  | edge h => revert h; cases current <;> cases target <;> decide

/-- A valid status stays valid, and moves on if it changes. -/
theorem StatusPath.known_of {current : GenerationStatus} {text : StatusText}
    (h : StatusPath (.known current) text) :
    ∃ target, text = .known target ∧ (target ≠ current → stage current < stage target) := by
  induction h with
  | refl => exact ⟨current, rfl, fun hne => absurd rfl hne⟩
  | @tail _ text _ hchange ih =>
    obtain ⟨mid, rfl, hmid⟩ := ih
    obtain ⟨target, rfl⟩ : ∃ target, text = .known target := by
      cases hchange with
      | same => exact ⟨mid, rfl⟩
      | @edge _ target h => exact ⟨target, rfl⟩
    refine ⟨target, rfl, fun hne => ?_⟩
    by_cases hlast : target = mid
    · subst hlast
      exact hmid hne
    · have hlt := hchange.stage_lt hlast
      by_cases hfirst : mid = current
      · rwa [hfirst] at hlt
      · exact (hmid hfirst).trans hlt

end CreativeStudio.Storage

namespace CreativeStudio.Jobs
open Data Storage Conc

/-- A status that no request to cancel moves is one from stage four on. -/
theorem JobService.cancelTarget_eq_none {status : GenerationStatus} :
    JobService.cancelTarget status = none ↔ 4 ≤ stage status := by
  cases status <;> decide

/-- The row of the job says that nothing is left to cancel. -/
def Stopped (w : World) (id : JobId) : Prop :=
  ∃ status, statusOf w id = some (.known status) ∧ JobService.cancelTarget status = none

/-- The status of the job has followed the contract. -/
def StatusEvolves (id : JobId) (w w' : World) : Prop :=
  ∀ text, statusOf w id = some text → ∃ text', statusOf w' id = some text' ∧ StatusPath text text'

theorem statusEvolves_refl (id : JobId) (w : World) : StatusEvolves id w w :=
  fun text h => ⟨text, h, .refl⟩

theorem statusEvolves_trans {id : JobId} {w₁ w₂ w₃ : World} (h : StatusEvolves id w₁ w₂)
    (h' : StatusEvolves id w₂ w₃) : StatusEvolves id w₁ w₃ := by
  intro text htext
  obtain ⟨mid, hmid, hpath⟩ := h text htext
  obtain ⟨last, hlast, hpath'⟩ := h' mid hmid
  exact ⟨last, hlast, hpath.trans hpath'⟩

theorem statusEvolves_of_step {env : Env} {t : Tid} {c : Cmd β} {w w' : World} {b : β} (id : JobId)
    (h : (b, w') ∈ (studio env).step t c w) : StatusEvolves id w w' := by
  intro text htext
  obtain ⟨row, hrow, rfl⟩ := Option.map_eq_some_iff.mp htext
  obtain ⟨row', hrow', hsame | ⟨update, now, hrun, -⟩⟩ := row_of_step h hrow
  · exact ⟨row.status, by rw [statusOf, hrow', hsame]; rfl, .refl⟩
  · exact ⟨row'.status, by rw [statusOf, hrow']; rfl, .single (update.statusChange hrun)⟩

theorem StatusEvolves.stopped {id : JobId} {w w' : World} (h : StatusEvolves id w w')
    (hw : Stopped w id) : Stopped w' id := by
  obtain ⟨status, hstatus, htarget⟩ := hw
  obtain ⟨text, htext, hpath⟩ := h _ hstatus
  obtain ⟨target, rfl, hlt⟩ := StatusPath.known_of hpath
  refine ⟨target, htext, ?_⟩
  by_cases hne : target = status
  · rwa [hne]
  · have hlt := hlt hne
    rw [JobService.cancelTarget_eq_none] at htarget ⊢
    omega

/-! ## The commands of `cancel_job` -/

/-- Threads that cancel one job. -/
def cancelSystem (env : Env) (id : JobId) : System Cmd World Exc where
  toMachine := studio env
  init _ := True
  calls _ _ p := p = discard (JobService.cancelJob id)
  reset _ _ := False

/-- A command that `cancel_job` executes in a state. -/
def CancelCommand (id : JobId) : Cmd β → World → Prop
  | .selectJob _, _ => True
  | .updateJob target update, _ => target = id ∧ ∃ status stop progress,
      JobService.cancelTarget status = some (stop, progress) ∧
        update = .edit (some stop) progress none none none (some [.known status])
  | .registryRequestCancel target, w => target = id ∧ Stopped w id
  | _, _ => False

/-- The commands are those of `cancel_job`; the state only has to keep to the contract. -/
def cancelDiscipline (env : Env) (id : JobId) : Discipline (studio env) where
  inv _ := True
  evolves := StatusEvolves id
  keeps _ _ _ := True
  ok _ c w := CancelCommand id c w
  base _ _ _ := True
  evolves_refl := statusEvolves_refl id
  evolves_trans _ _ _ := statusEvolves_trans
  keeps_refl _ _ := trivial
  keeps_trans _ _ _ _ _ _ := trivial

section Cancel
variable {env : Env} {t : Tid} {id : JobId}

theorem tolerated_of_step {c : Cmd β} {w w' : World} {b : β} (h : (b, w') ∈ (studio env).step t c w) :
    (cancelDiscipline env id).Tolerated t w w' :=
  ⟨trivial, statusEvolves_of_step id h, fun _ _ => trivial⟩

/-- The row has come at least so far. -/
def Reached (n : ℕ) (w : World) (id : JobId) : Prop :=
  n = 0 ∨ ∃ status, statusOf w id = some (.known status) ∧ n ≤ stage status

theorem Reached.mono {m n : ℕ} {w : World} (hw : Reached n w id) (hle : m ≤ n) : Reached m w id := by
  rcases hw with rfl | ⟨status, hstatus, hn⟩
  · exact .inl (by omega)
  · exact .inr ⟨status, hstatus, hle.trans hn⟩

theorem StatusEvolves.reached {n : ℕ} {w w' : World} (h : StatusEvolves id w w') (hw : Reached n w id) :
    Reached n w' id := by
  rcases hw with rfl | ⟨status, hstatus, hle⟩
  · exact .inl rfl
  · obtain ⟨text, htext, hpath⟩ := h _ hstatus
    obtain ⟨target, rfl, hlt⟩ := StatusPath.known_of hpath
    refine .inr ⟨target, htext, ?_⟩
    by_cases hne : target = status
    · rwa [hne]
    · exact hle.trans (hlt hne).le

theorem stopped_of_reached {w : World} (hw : Reached 4 w id) : Stopped w id := by
  rcases hw with hzero | ⟨status, hstatus, hle⟩
  · omega
  · exact ⟨status, hstatus, JobService.cancelTarget_eq_none.mpr hle⟩

theorem reached_of_stopped {w : World} (hw : Stopped w id) : Reached 4 w id := by
  obtain ⟨status, hstatus, htarget⟩ := hw
  exact .inr ⟨status, hstatus, JobService.cancelTarget_eq_none.mp htarget⟩

theorem wp_get (w : World) :
    (cancelDiscipline env id).wp t (JobRepository.get id) (fun r w' => StatusEvolves id w w' ∧
      ∀ job, r = .ok (some job) → statusOf w' id = some (.known job.status)) w := by
  refine Discipline.wp_bind (Discipline.wp_call fun w₁ hint => ⟨trivial, fun r w₂ hs _ =>
    ⟨tolerated_of_step hs, fun _ => ?_⟩⟩)
  have hevolves : StatusEvolves id w w₂ := statusEvolves_trans hint.evolves (statusEvolves_of_step id hs)
  rcases mem_fallible hs with hrow | ⟨rfl, -⟩
  swap
  · exact ⟨hevolves, fun job hr => by cases hr⟩
  simp only [List.mem_singleton, Prod.mk.injEq] at hrow
  obtain ⟨rfl, rfl⟩ := hrow
  simp only
  cases hrow : w₂.row? id with
  | none => exact ⟨hevolves, fun job hr => by cases hr⟩
  | some row =>
    refine Discipline.wp_ofExcept ⟨hevolves, fun job hr => ?_⟩
    cases hrecord : row.toRecord id with
    | error e => simp [hrecord, Except.map] at hr
    | ok job' =>
      simp only [hrecord, Except.map, Except.ok.injEq, Option.some.injEq] at hr
      subst hr
      rw [statusOf, hrow]
      exact congrArg some (status_of_decode? (toRecord_eq_ok.mp hrecord)).1

theorem stage_of_cancelTarget {status stop : GenerationStatus} {progress : Option ℚ}
    (h : JobService.cancelTarget status = some (stop, progress)) :
    stage status < 4 ∧ JobService.cancelTarget stop = none ∧ stop ∈ status.allowedTransitions := by
  cases status <;> simp only [JobService.cancelTarget, Option.some.injEq, Prod.mk.injEq, reduceCtorEq] at h <;>
    obtain ⟨rfl, -⟩ := h <;> decide

/-- The compare-and-set of `cancel_job` stops the job, or finds that it has moved on. -/
theorem wp_cancelUpdate {status stop : GenerationStatus} {progress : Option ℚ} {w : World}
    (htarget : JobService.cancelTarget status = some (stop, progress))
    (hw : statusOf w id = some (.known status)) :
    (cancelDiscipline env id).wp t
      (JobRepository.updateIfStatus id [.known status] (some (.known stop)) progress)
      (fun r w' => (∀ job, r = .ok (some job) → Stopped w' id) ∧
        (r = .ok none → Reached (stage status + 1) w' id)) w := by
  obtain ⟨hstage, hstop, hedge⟩ := stage_of_cancelTarget htarget
  refine Discipline.wp_bind (Discipline.wp_call fun w₁ hint =>
    ⟨⟨rfl, status, stop, progress, htarget, rfl⟩, fun r w₂ hs _ => ⟨tolerated_of_step hs, fun _ => ?_⟩⟩)
  obtain ⟨text, htext, hpath⟩ := hint.evolves _ hw
  obtain ⟨current, rfl, hlt⟩ := StatusPath.known_of hpath
  match r with
  | .error e => exact ⟨fun job hr => (by cases hr), fun hr => (by cases hr)⟩
  | .ok false =>
    obtain ⟨rfl, hmissed⟩ := updateJob_missed hs
    refine ⟨fun job hr => (by cases hr), fun _ => .inr ⟨current, htext, hlt ?_⟩⟩
    rintro rfl
    obtain ⟨row, hrow, hstatus⟩ := Option.map_eq_some_iff.mp htext
    refine hmissed row hrow ?_
    have hsource : StatusText.known current ∈ transitionSources stop := by
      rw [known_mem_transitionSources, GenerationStatus.isValidTransition_iff]
      exact .inr hedge
    simp [Condition.holds, JobUpdate.edit, hstatus, hsource]
  | .ok true =>
    obtain ⟨hne, -⟩ | ⟨row, row', -, -, hrun, rfl⟩ := updateJob_cases hs
    · exact absurd rfl hne
    obtain ⟨-, rfl⟩ := JobUpdate.run_eq_some.mp hrun
    have hstopped : Stopped (w₁.replaceRow t id row
        ((JobUpdate.edit (some stop) progress none none none (some [.known status])).set.apply w₁.clock row)) id :=
      ⟨stop, by simp [statusOf, JobUpdate.edit, Assignments.apply], hstop⟩
    refine Discipline.wp_mono (wp_get _) fun r w₃ hget => ?_
    have hstopped := hget.1.stopped hstopped
    refine ⟨fun _ _ => hstopped, fun _ => ?_⟩
    obtain ⟨last, hlast, htarget⟩ := hstopped
    exact .inr ⟨last, hlast, by have := JobService.cancelTarget_eq_none.mp htarget; omega⟩

/-- The loop of `cancel_job` ends with a row that is stopped; each miss has found the job one
stage further. -/
theorem wp_cancelLoop (retries : ℕ) {w : World} (hw : Reached (4 - retries) w id) :
    (cancelDiscipline env id).wp t (JobService.cancelLoop id retries)
      (fun r w' => ∀ job, r = .ok (some job) → Stopped w' id) w := by
  induction retries generalizing w with
  | zero =>
    refine Discipline.wp_mono (wp_get w) fun r w' hget job hr => ?_
    exact stopped_of_reached (hget.1.reached hw)
  | succ retries ih =>
    refine Discipline.wp_bind (Discipline.wp_mono (wp_get w) fun r w₁ hget _ => ?_)
    match r with
    | .error e => exact fun job hr => by cases hr
    | .ok none => exact fun job hr => by cases hr
    | .ok (some job) =>
      have hstatus := hget.2 job rfl
      have hreached := hget.1.reached hw
      simp only
      split
      next htarget => exact fun _ _ => ⟨job.status, hstatus, htarget⟩
      next stop progress htarget =>
        refine Discipline.wp_bind (Discipline.wp_mono (wp_cancelUpdate htarget hstatus) fun r w₂ hupdate _ => ?_)
        match r with
        | .error e => exact fun job hr => by cases hr
        | .ok (some updated) => exact fun _ _ => hupdate.1 updated rfl
        | .ok none =>
          refine ih ((hupdate.2 rfl).mono ?_)
          rcases hreached with hzero | ⟨status, hstatus', hle⟩
          · omega
          · obtain rfl : job.status = status := by simpa [hstatus] using hstatus'
            omega

theorem wp_cancelJob (w : World) :
    (cancelDiscipline env id).wp t (discard (JobService.cancelJob id)) (fun _ _ => True) w := by
  refine Discipline.wp_bind (Discipline.wp_mono (?_ : (cancelDiscipline env id).wp t
    (JobService.cancelJob id) (fun _ _ => True) w) fun r _ _ _ => by cases r <;> trivial)
  refine Discipline.wp_bind (Discipline.wp_mono (wp_cancelLoop 4 (.inl rfl)) fun r w₁ hloop _ => ?_)
  match r with
  | .error e => trivial
  | .ok none => trivial
  | .ok (some job) =>
    refine Discipline.wp_bind (Discipline.wp_exec fun w₂ hint =>
      ⟨⟨rfl, hint.evolves.stopped (hloop job rfl)⟩, fun _ w₃ hs _ => ⟨tolerated_of_step hs, fun _ => trivial⟩⟩)

theorem sound_cancelDiscipline : System.Sound (S := cancelSystem env id) (cancelDiscipline env id) where
  init _ _ := trivial
  calls t w p _ h := by
    subst h
    exact wp_cancelJob w
  reset _ _ _ h := h.elim
  base _ _ _ _ _ _ _ _ _ _ := trivial

end Cancel

/-! ## What the worker of the job sees of it -/

/-- The row of the job is there and decodes. -/
def Decodes (w : World) (id : JobId) : Prop :=
  ∃ row, w.row? id = some row ∧ (row.decode? id).isSome

/-- The worker of the job has been told to stop. -/
def Requested (w : World) (id : JobId) : Prop :=
  ∃ entry, w.registry.lookup id = some entry ∧ entry.requested

/-- The event object that is registered for the job. -/
def tokenOf (w : World) (id : JobId) : Option ℕ := (w.registry.lookup id).map Registration.token

/-- What one command of another thread that cancels the job does. -/
structure CancelStep (id : JobId) (w w' : World) : Prop where
  status : statusOf w' id = statusOf w id ∨ ∃ status stop progress,
    JobService.cancelTarget status = some (stop, progress) ∧ statusOf w id = some (.known status) ∧
      statusOf w' id = some (.known stop)
  decodes : Decodes w id → Decodes w' id
  token : tokenOf w' id = tokenOf w id
  /-- The worker is told when the row says so. -/
  requested : Requested w' id → Requested w id ∨ Stopped w' id

theorem CancelStep.refl (id : JobId) (w : World) : CancelStep id w w :=
  ⟨.inl rfl, fun h => h, rfl, .inl⟩

/-- A row that is replaced by a lawful statement still decodes. -/
theorem decodes_replaceRow {w : World} {t : Tid} {id : JobId} {update : JobUpdate} {now : ℕ} {row row' : JobRow}
    (hlawful : update.Lawful) (hrow : w.row? id = some row) (hrun : update.run now row = some row')
    (h : Decodes w id) : Decodes (w.replaceRow t id row row') id := by
  obtain ⟨old, hold, hdecodes⟩ := h
  obtain rfl : old = row := Option.some.inj (hold.symm.trans hrow)
  exact ⟨row', by simp, hlawful.decodes hrun hdecodes⟩

theorem cancelStep_of_command {env : Env} {t : Tid} {id : JobId} {c : Cmd β} {w w' : World} {b : β}
    (hcommand : CancelCommand id c w) (h : (b, w') ∈ (studio env).step t c w) : CancelStep id w w' := by
  cases c with
  | selectJob target =>
    rcases mem_fallible h with hrow | ⟨-, rfl⟩
    · simp only [List.mem_singleton, Prod.mk.injEq] at hrow
      exact hrow.2 ▸ .refl id w
    · exact .refl id w'
  | updateJob target update =>
    obtain ⟨rfl, status, stop, progress, htarget, rfl⟩ := hcommand
    rcases updateJob_cases h with ⟨-, rfl⟩ | ⟨row, row', -, hrow, hrun, rfl⟩
    · exact .refl _ _
    obtain ⟨hactive, hstop, hprogress⟩ := JobService.cancelTarget_spec htarget
    have hlawful : (JobUpdate.edit (some stop) progress none none none (some [.known status])).Lawful :=
      lawful_edit (JobService.lawfulEdit_of [status] (by simpa using hactive) hstop hprogress)
    refine ⟨.inr ⟨status, stop, progress, htarget, ?_, ?_⟩, decodes_replaceRow hlawful hrow hrun, rfl, .inl⟩
    · have hmem := Condition.mem_of_holds (JobUpdate.run_eq_some.mp hrun).1
        (by simp [JobUpdate.edit] : [StatusText.known status] ∈ _)
      rw [statusOf, hrow]
      simpa using hmem
    · obtain ⟨-, rfl⟩ := JobUpdate.run_eq_some.mp hrun
      simp [statusOf, JobUpdate.edit, Assignments.apply]
  | registryRequestCancel target =>
    obtain ⟨rfl, hstopped⟩ := hcommand
    simp only [step] at h
    split at h <;> simp only [List.mem_singleton, Prod.mk.injEq] at h <;> obtain ⟨-, rfl⟩ := h
    next entry hentry =>
      refine ⟨.inl rfl, fun h => h, ?_, fun _ => .inr hstopped⟩
      simp [tokenOf, hentry]
    next => exact .refl _ _
  | _ => exact hcommand.elim

/-- What holds beside the threads that cancel: each of them is where its program allows. -/
abbrev CancelGood (env : Env) (id : JobId) (c : Config Cmd World Exc) : Prop :=
  System.Sound.Good (S := cancelSystem env id) (cancelDiscipline env id) c

theorem cancelGood_of_step {env : Env} {id : JobId} {c c' : Config Cmd World Exc}
    (h : (cancelSystem env id).Step c c') (hc : CancelGood env id c) :
    CancelGood env id c' ∧ CancelStep id c.state c'.state := by
  cases h with
  | @op s s' th t β cmd k b hth hstep =>
    refine ⟨hc.op hth hstep trivial, ?_⟩
    have hwp : (cancelDiscipline env id).wp t (th t) (fun _ _ => True) s := hc.threads t
    rw [hth] at hwp
    exact cancelStep_of_command (hwp s (.refl trivial)).1 hstep
  | call hidle hcall => exact ⟨hc.call sound_cancelDiscipline hcall, .refl id _⟩
  | reset hreset => exact hreset.elim

end CreativeStudio.Jobs
