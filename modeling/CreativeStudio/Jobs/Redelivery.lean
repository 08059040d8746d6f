import CreativeStudio.Conc.Executions
import CreativeStudio.Jobs.Runner
import CreativeStudio.Jobs.StatusLaw

/-!
# What becomes of a job taken off the queue

`run_once` takes an id out of the queue before it knows whether the job can be claimed. When
it comes back, by returning or by raising, the row of the job is gone or has left `queued`, or
the id waits in its lane again. The one fact about the queue behind it is that an id waits in
one lane at most.
-/

namespace CreativeStudio.Storage
open Data Jobs Conc

/-! ## An id waits once -/

namespace JobQueue

/-- An id waits in at most one lane, and at most once: the source maps ids to lanes. -/
def Tidy (queue : JobQueue) : Prop := (queue.pending.map Prod.fst).Nodup

/-- A dequeued id came from the lane that was asked, and it waits nowhere else. -/
theorem dequeue_eq_ok {queue queue' : JobQueue} {lane : Option String} {id : JobId}
    (htidy : queue.Tidy) (h : queue.dequeue lane = .ok (some id, queue')) :
    ∃ target, queue'.resolveLane lane = .ok target ∧ (id, target) ∈ queue.pending ∧
      queue'.pending.lookup id = none ∧ queue'.Tidy := by
  unfold dequeue at h
  cases hlane : queue.resolveLane lane with
  | error e => simp [hlane, bind, Except.bind] at h
  | ok target =>
    simp only [hlane, bind, Except.bind] at h
    split at h
    next entry hentry =>
      obtain ⟨hid, rfl⟩ := Prod.mk.inj (Except.ok.inj h)
      obtain rfl := Option.some.inj hid
      have hmem := List.mem_of_find?_eq_some hentry
      have htarget : entry.2 = target := by simpa using List.find?_some hentry
      have hperm := (List.perm_cons_erase hmem).map Prod.fst
      have hnodup : (entry.1 :: (queue.pending.erase entry).map Prod.fst).Nodup := hperm.nodup_iff.mp htidy
      refine ⟨target, hlane, htarget ▸ hmem, ?_, (List.nodup_cons.mp hnodup).2⟩
      rw [List.lookup_eq_none_iff]
      intro other hother
      have hne : entry.1 ≠ other.1 := by
        intro heq
        exact (List.nodup_cons.mp hnodup).1 (heq ▸ List.mem_map_of_mem hother)
      simpa using hne
    next => simp at h

/-- An id that waits nowhere is put at the end of its lane. -/
theorem enqueue_eq_ok {queue : JobQueue} {lane : Option String} {target : String} {id : JobId}
    (hlane : queue.resolveLane lane = .ok target) (hnone : queue.pending.lookup id = none) :
    queue.enqueue id lane = .ok { queue with pending := queue.pending ++ [(id, target)] } := by
  simp [enqueue, hlane, hnone, bind, Except.bind]

theorem tidy_enqueue {queue queue' : JobQueue} {lane : Option String} {id : JobId} (htidy : queue.Tidy)
    (h : queue.enqueue id lane = .ok queue') : queue'.Tidy := by
  unfold enqueue at h
  cases hlane : queue.resolveLane lane with
  | error e => simp [hlane, bind, Except.bind] at h
  | ok target =>
    simp only [hlane, bind, Except.bind] at h
    split at h
    · split at h
      · exact Except.ok.inj h ▸ htidy
      · cases h
    next hnone =>
      obtain rfl := Except.ok.inj h
      have hfresh : id ∉ queue.pending.map Prod.fst := by
        intro hmem
        obtain ⟨entry, hentry, rfl⟩ := List.mem_map.mp hmem
        have hne := List.lookup_eq_none_iff.mp hnone entry hentry
        simp at hne
      simpa [Tidy, List.nodup_append, List.nodup_cons] using ⟨htidy, fun a lane hmem heq =>
        hfresh (heq ▸ List.mem_map_of_mem hmem)⟩

theorem tidy_dequeue {queue queue' : JobQueue} {lane : Option String} {r : Option JobId}
    (htidy : queue.Tidy) (h : queue.dequeue lane = .ok (r, queue')) : queue'.Tidy := by
  cases r with
  | some id =>
    obtain ⟨-, -, -, -, h⟩ := dequeue_eq_ok htidy h
    exact h
  | none =>
    unfold dequeue at h
    cases hlane : queue.resolveLane lane with
    | error e => simp [hlane, bind, Except.bind] at h
    | ok target =>
      simp only [hlane, bind, Except.bind] at h
      split at h
      · simp at h
      · obtain ⟨-, rfl⟩ := Prod.mk.inj (Except.ok.inj h)
        exact htidy

end JobQueue

/-- No command makes an id wait twice. -/
theorem tidy_of_step {env : Env} {t : Tid} {c : Cmd β} {w w' : World} {b : β}
    (h : (b, w') ∈ (studio env).step t c w) (htidy : w.queue.Tidy) : w'.queue.Tidy := by
  by_cases hkind : c.kind ∈ [.enqueue, .dequeue]
  swap
  · rw [(frame_of_step h).queue hkind]
    exact htidy
  rw [studio_step] at h
  cases c with
  | enqueue id lane =>
    cases hqueue : w.queue.enqueue id lane with
    | error e =>
      simp only [step, hqueue, List.mem_singleton, Prod.mk.injEq] at h
      exact h.2 ▸ htidy
    | ok queue =>
      simp only [step, hqueue, List.mem_singleton, Prod.mk.injEq] at h
      obtain ⟨-, rfl⟩ := h
      exact JobQueue.tidy_enqueue htidy hqueue
  | dequeue lane =>
    cases hqueue : w.queue.dequeue lane with
    | error e =>
      simp only [step, hqueue, List.mem_singleton, Prod.mk.injEq] at h
      exact h.2 ▸ htidy
    | ok result =>
      simp only [step, hqueue, List.mem_singleton, Prod.mk.injEq] at h
      obtain ⟨-, rfl⟩ := h
      exact JobQueue.tidy_dequeue htidy hqueue
  | updateJob id update =>
    simp only [Cmd.kind] at hkind
    split at hkind <;> simp at hkind
  | _ => simp [Cmd.kind] at hkind

end CreativeStudio.Storage

namespace CreativeStudio.Jobs
open Data Storage Conc

/-- The row of the job has a status of the contract, and the job does not wait to be run. -/
def Settled (w : World) (id : JobId) : Prop :=
  ∃ status, statusOf w id = some (.known status) ∧ status ≠ .queued

/-- The row is gone or settled. -/
def Resolved (w : World) (id : JobId) : Prop := w.row? id = none ∨ Settled w id

/-- A lawful command leaves a settled job settled. -/
theorem settled_of_step {env : Env} {t : Tid} {c : Cmd β} {w w' : World} {b : β} {id : JobId}
    (hlawful : c.Lawful) (h : (b, w') ∈ (studio env).step t c w) (hw : Settled w id) : Settled w' id := by
  obtain ⟨status, hstatus, hne⟩ := hw
  obtain ⟨row, hrow, hknown⟩ := Option.map_eq_some_iff.mp hstatus
  obtain ⟨row', hrow', hsame | ⟨update, now, hrun, hupdate⟩⟩ := row_of_step h hrow
  · exact ⟨status, by rw [statusOf, hrow', hsame]; exact congrArg some hknown, hne⟩
  · have hchange := update.statusChange hrun
    rw [hknown] at hchange
    have hqueued := (hupdate hlawful).leavesQueued now row row' hrun
    have hstatus' : statusOf w' id = some row'.status := by rw [statusOf, hrow']; rfl
    generalize row'.status = text at hchange hqueued hstatus'
    cases hchange with
    | same => exact ⟨status, hstatus', hne⟩
    | @edge _ target hedge => exact ⟨target, hstatus', fun heq => hqueued (by rw [heq])⟩

section Runs
variable {env : Env} {t : Tid} {id : JobId} {w w' : World} {τ : List (Transition Cmd World)}
  {kinds : List Kind}

theorem settled_of_runs {p : App α} {r : Except Exc α} (h : Runs (studio env) Alone t p w τ r w')
    (hp : Within kinds p) (hw : Settled w id) : Settled w' id :=
  h.preserves hp (fun _ _ _ _ hc hstep => settled_of_step hc.2 hstep) (fun _ _ hother => hother.elim) hw

theorem queue_of_runs {p : App α} {r : Except Exc α} (h : Runs (studio env) Alone t p w τ r w')
    (hp : Within kinds p) (hkinds : ∀ kind ∈ kinds, kind ∉ [.enqueue, .dequeue]) :
    w'.queue = w.queue := by
  have hown {β : Type} (c : Cmd β) (b : β) (s s' : World) (hc : c.Within kinds)
      (hstep : (b, s') ∈ (studio env).step t c s) (hs : s.queue = w.queue) : s'.queue = w.queue := by
    rw [(frame_of_step hstep).queue (hkinds _ hc.1), hs]
  exact h.preserves hp hown (fun _ _ hother => hother.elim) rfl

/-! ## The statements that read and write one row -/

/-- Reading a job changes nothing; it fails, finds no row, or decodes the row. -/
theorem runs_get {r : Except Exc (Option JobRecord)}
    (h : Runs (studio env) Alone t (JobRepository.get id) w τ r w') :
    w' = w ∧ (r = .error .storage ∨ (r = .ok none ∧ w.row? id = none) ∨
      ∃ row, w.row? id = some row ∧ r = (row.toRecord id).map some) := by
  rcases h.of_bind with ⟨e, rfl, hselect⟩ | ⟨found, w₁, τ₁, τ₂, rfl, hselect, hdecode⟩
  · obtain ⟨-, hselect⟩ := hselect.of_call
    rcases mem_fallible hselect with hrow | ⟨hfault, rfl⟩
    · simp at hrow
    · exact ⟨rfl, .inl (by simpa using hfault)⟩
  · obtain ⟨-, hselect⟩ := hselect.of_call
    rcases mem_fallible hselect with hrow | ⟨hfault, -⟩
    swap
    · cases hfault
    simp only [List.mem_singleton, Prod.mk.injEq, Except.ok.injEq] at hrow
    obtain ⟨hfound, rfl⟩ := hrow
    cases found with
    | none =>
      obtain ⟨rfl, -, rfl⟩ := hdecode.of_ret
      exact ⟨rfl, .inr (.inl ⟨rfl, hfound.symm⟩)⟩
    | some row =>
      cases hrecord : (row.toRecord id).map some with
      | ok job =>
        simp only [hrecord] at hdecode
        obtain ⟨rfl, -, rfl⟩ := hdecode.of_ret
        exact ⟨rfl, .inr (.inr ⟨row, hfound.symm, hrecord.symm⟩)⟩
      | error e =>
        simp only [hrecord] at hdecode
        obtain ⟨rfl, -, rfl⟩ := hdecode.of_raise
        exact ⟨rfl, .inr (.inr ⟨row, hfound.symm, hrecord.symm⟩)⟩

/-- A job that was read has a row with its status. -/
theorem statusOf_of_get {job : JobRecord}
    (h : Runs (studio env) Alone t (JobRepository.get id) w τ (.ok (some job)) w') :
    w' = w ∧ statusOf w id = some (.known job.status) := by
  obtain ⟨rfl, hr | ⟨hr, -⟩ | ⟨row, hrow, hr⟩⟩ := runs_get h
  · cases hr
  · cases hr
  · cases hrecord : row.toRecord id with
    | error e =>
      rw [hrecord] at hr
      cases hr
    | ok job' =>
      rw [hrecord] at hr
      obtain rfl : job = job' := by simpa [Except.map] using hr
      refine ⟨rfl, ?_⟩
      rw [statusOf, hrow]
      exact congrArg some (status_of_decode? (toRecord_eq_ok.mp hrecord)).1

/-- What a compare-and-set out of `queued` can come to. -/
inductive Transitioned (id : JobId) (target : GenerationStatus) (w : World) : Except Exc Bool → World → Prop
  | raised (e : Exc) : Transitioned id target w (.error e) w
  | missed (h : statusOf w id ≠ some (.known .queued)) : Transitioned id target w (.ok false) w
  | won {w' : World} (h : statusOf w id = some (.known .queued))
      (h' : statusOf w' id = some (.known target)) : Transitioned id target w (.ok true) w'

theorem runs_transition {target : GenerationStatus} {progress : Option ℚ}
    {reason : Option (Option String)} {r : Except Exc Bool} (htarget : target ∈ GenerationStatus.queued.allowedTransitions)
    (h : Runs (studio env) Alone t
      (JobRepository.transitionIfStatus id [.known .queued] (.known target) progress reason) w τ r w') :
    Transitioned id target w r w' := by
  have hsource : StatusText.known .queued ∈ transitionSources target := by
    rw [known_mem_transitionSources, GenerationStatus.isValidTransition_iff]
    exact .inr htarget
  obtain ⟨-, hstep⟩ := Runs.of_call h
  cases r with
  | error e =>
    obtain ⟨-, rfl⟩ | ⟨-, -, hr, -⟩ := updateJob_cases hstep
    · exact .raised e
    · cases hr
  | ok matched =>
    cases matched with
    | false =>
      obtain ⟨rfl, hmissed⟩ := updateJob_missed hstep
      refine .missed fun hqueued => ?_
      obtain ⟨row, hrow, hstatus⟩ := Option.map_eq_some_iff.mp hqueued
      refine hmissed row hrow ?_
      simp [Condition.holds, JobUpdate.edit, hstatus, hsource]
    | true =>
      obtain ⟨hne, -⟩ | ⟨row, row', -, hrow, hrun, rfl⟩ := updateJob_cases hstep
      · exact absurd rfl hne
      · obtain ⟨hholds, rfl⟩ := JobUpdate.run_eq_some.mp hrun
        have hqueued : row.status ∈ [StatusText.known .queued] :=
          Condition.mem_of_holds hholds (by simp [JobUpdate.edit])
        refine .won ?_ ?_
        · rw [statusOf, hrow]
          simpa using hqueued
        · simp [statusOf, JobUpdate.edit, Assignments.apply]

/-- A status that is not `queued` is untouched by a compare-and-set out of `queued`. -/
theorem Transitioned.eq_of_not_queued {target : GenerationStatus} {r : Except Exc Bool}
    (h : Transitioned id target w r w') (hne : statusOf w id ≠ some (.known .queued)) : w' = w := by
  cases h with
  | raised e => rfl
  | missed h => rfl
  | won h h' => exact absurd h hne

/-! ## The parts of `run_once` -/

/-- What a call does to the job: it leaves the queue alone, it leaves a job alone that has
already left `queued`, and what it returns says that the job is resolved. -/
structure Handles (id : JobId) (w w' : World) (resolved : Prop) : Prop where
  queue : w'.queue = w.queue
  kept : ∀ status, status ≠ .queued → statusOf w id = some (.known status) →
    statusOf w' id = some (.known status)
  resolved : resolved → Resolved w' id

theorem Handles.mono {resolved resolved' : Prop} (h : Handles id w w' resolved) (himp : resolved' → resolved) :
    Handles id w w' resolved' :=
  ⟨h.queue, h.kept, fun hresolved => h.resolved (himp hresolved)⟩

/-- One call after the other; the second one says whether the job is resolved. -/
theorem Handles.trans {w₁ : World} {resolved resolved' : Prop} (h : Handles id w w₁ resolved)
    (h' : Handles id w₁ w' resolved') : Handles id w w' resolved' :=
  ⟨h'.queue.trans h.queue, fun status hne hstatus => h'.kept status hne (h.kept status hne hstatus),
    h'.resolved⟩

theorem resolved_of_statusOf {status : Option StatusText} (h : statusOf w id = status)
    (hne : status ≠ some (.known .queued)) (hknown : ∀ text, status ≠ some (.unknown text)) :
    Resolved w id := by
  cases status with
  | none =>
    left
    simpa [statusOf] using h
  | some text =>
    cases text with
    | unknown text => exact absurd rfl (hknown text)
    | known status => exact .inr ⟨status, h, fun heq => hne (by rw [heq])⟩

/-- Reading the raw status changes nothing. -/
theorem runs_getRawStatus {r : Except Exc (Option StatusText)}
    (h : Runs (studio env) Alone t (JobRepository.getRawStatus id) w τ r w') :
    w' = w ∧ ((∃ e, r = .error e) ∨ r = .ok (statusOf w id)) := by
  rcases Runs.of_bind h with ⟨e, rfl, hselect⟩ | ⟨found, w₁, τ₁, τ₂, rfl, hselect, hret⟩
  · obtain ⟨-, hselect⟩ := hselect.of_call
    rcases mem_fallible hselect with hrow | ⟨-, rfl⟩
    · simp at hrow
    · exact ⟨rfl, .inl ⟨e, rfl⟩⟩
  · obtain ⟨-, hselect⟩ := hselect.of_call
    obtain ⟨rfl, -, rfl⟩ := hret.of_ret
    rcases mem_fallible hselect with hrow | ⟨hfault, -⟩
    · simp only [List.mem_singleton, Prod.mk.injEq, Except.ok.injEq] at hrow
      obtain ⟨rfl, rfl⟩ := hrow
      exact ⟨rfl, .inr rfl⟩
    · cases hfault

/-- A repair of a status outside the contract: it fails, or the job is settled. -/
theorem runs_repair {message text : String} {r : Except Exc Bool}
    (hunknown : statusOf w id = some (.unknown text))
    (h : Runs (studio env) Alone t (JobRepository.quarantineStructurallyInvalidStatus id message) w τ r w') :
    (∃ e, r = .error e) ∨ Settled w' id := by
  obtain ⟨row, hrow, hstatus⟩ := Option.map_eq_some_iff.mp hunknown
  have hholds : (JobUpdate.repairStatus message).condition.holds row := by
    simp [Condition.holds, JobUpdate.repairStatus, hstatus, jobStatusTexts]
  obtain ⟨-, hstep⟩ := Runs.of_call h
  rcases r with e | _ | _
  · exact .inl ⟨e, rfl⟩
  · exact absurd hholds ((updateJob_missed hstep).2 row hrow)
  · obtain ⟨hne, -⟩ | ⟨old, new, -, -, hrun, rfl⟩ := updateJob_cases hstep
    · exact absurd rfl hne
    · obtain ⟨-, rfl⟩ := JobUpdate.run_eq_some.mp hrun
      exact .inr ⟨.failed, by simp [statusOf, JobUpdate.repairStatus, Assignments.apply], by decide⟩

/-- A quarantine that did not fail has resolved the job. -/
theorem runs_quarantinePoisonJob {e : Exc} {r : Except Exc QuarantineOutcome}
    (h : Runs (studio env) Alone t (JobRunner.quarantinePoisonJob id e) w τ r w') :
    ∃ outcome, r = .ok outcome ∧ Handles id w w' (outcome ≠ .writeFailed) := by
  have hqueue : w'.queue = w.queue :=
    queue_of_runs h (JobRunner.within_quarantinePoisonJob id e (List.Subset.refl _)) (by decide)
  unfold JobRunner.quarantinePoisonJob at h
  obtain ⟨moved, w₁, τ₁, τ₂, rfl, hmove, h⟩ := h.of_attempt_bind
  have hmove := runs_transition (by decide) hmove
  have hkept₁ (status : GenerationStatus) (hne : status ≠ .queued)
      (hstatus : statusOf w id = some (.known status)) : w₁ = w :=
    hmove.eq_of_not_queued (by rw [hstatus]; simpa using hne)
  cases hmove with
  | raised e =>
    obtain ⟨rfl, -, rfl⟩ := h.of_ret
    exact ⟨_, rfl, hqueue, fun _ _ hstatus => hstatus, fun hne => absurd rfl hne⟩
  | won hqueued hfailed =>
    obtain ⟨rfl, -, rfl⟩ := h.of_ret
    refine ⟨_, rfl, hqueue, fun status hne hstatus => ?_, fun _ => .inr ⟨.failed, hfailed, by decide⟩⟩
    rw [hkept₁ status hne hstatus]
    exact hstatus
  | missed hne =>
    obtain ⟨raw, w₂, τ₃, τ₄, rfl, hraw, h⟩ := h.of_attempt_bind
    obtain ⟨rfl, hraw⟩ := runs_getRawStatus hraw
    rcases hraw with ⟨e', rfl⟩ | rfl
    · obtain ⟨rfl, -, rfl⟩ := h.of_ret
      exact ⟨_, rfl, hqueue, fun _ _ hstatus => hstatus, fun hne => absurd rfl hne⟩
    generalize hstatus : statusOf w₂ id = status at h hne
    match status with
    | none | some (.known _) =>
      obtain ⟨rfl, -, rfl⟩ := h.of_ret
      refine ⟨_, rfl, hqueue, fun _ _ hstatus => hstatus, fun _ => ?_⟩
      exact resolved_of_statusOf hstatus hne (by simp)
    | some (.unknown text) =>
      obtain ⟨repaired, w₃, τ₅, τ₆, rfl, hrepair, h⟩ := h.of_attempt_bind
      have hkept (status : GenerationStatus) (hknown : statusOf w₂ id = some (.known status)) :
          statusOf w' id = some (.known status) := by
        rw [hstatus] at hknown
        simp at hknown
      have hrepair := runs_repair hstatus hrepair
      match repaired with
      | .error e' =>
        obtain ⟨rfl, -, rfl⟩ := h.of_ret
        exact ⟨_, rfl, hqueue, fun status _ => hkept status, fun hne => absurd rfl hne⟩
      | .ok true | .ok false =>
        obtain ⟨rfl, -, rfl⟩ := h.of_ret
        refine ⟨_, rfl, hqueue, fun status _ => hkept status, fun _ => .inr ?_⟩
        simpa using hrepair

/-- A job that was claimed stays resolved, whatever its execution does. -/
theorem runs_processJob {r : Except Exc (Option JobRecord)}
    (h : Runs (studio env) Alone t (JobRunner.processJob id) w τ r w') :
    Handles id w w' (∃ job, r = .ok job) := by
  have hqueue : w'.queue = w.queue :=
    queue_of_runs h (JobRunner.within_processJob id (List.Subset.refl _)) (by decide)
  unfold JobRunner.processJob at h
  rcases h.of_bind with ⟨e, rfl, hget⟩ | ⟨found, w₁, τ₁, τ₂, -, hget, hfound⟩
  · obtain ⟨rfl, -⟩ := runs_get hget
    exact ⟨rfl, fun _ _ hstatus => hstatus, fun ⟨job, hr⟩ => by cases hr⟩
  cases found with
  | none =>
    obtain ⟨rfl, hr | ⟨-, hnone⟩ | ⟨row, -, hr⟩⟩ := runs_get hget
    · cases hr
    · obtain ⟨rfl, -, rfl⟩ := hfound.of_ret
      exact ⟨rfl, fun _ _ hstatus => hstatus, fun _ => .inl hnone⟩
    · cases hrecord : row.toRecord id <;> simp [hrecord, Except.map] at hr
  | some job =>
    obtain ⟨rfl, hstatus⟩ := statusOf_of_get hget
    simp only at hfound
    split at hfound
    next hne =>
      obtain ⟨rfl, -, rfl⟩ := hfound.of_ret
      exact ⟨rfl, fun _ _ hstatus => hstatus, fun _ => .inr ⟨job.status, hstatus, hne⟩⟩
    next hqueued =>
      rw [not_not] at hqueued
      rw [hqueued] at hstatus
      have hkept (status : GenerationStatus) (hne : status ≠ .queued)
          (hknown : statusOf w₁ id = some (.known status)) : statusOf w' id = some (.known status) := by
        rw [hstatus] at hknown
        simp only [Option.some.injEq, StatusText.known.injEq] at hknown
        exact absurd hknown.symm hne
      refine ⟨hqueue, hkept, ?_⟩
      rintro ⟨completion, rfl⟩
      rcases hfound.of_bind with ⟨e, he, -⟩ | ⟨won, w₂, τ₃, τ₄, -, hclaim, hclaimed⟩
      · cases he
      have hclaim := runs_transition (by decide) hclaim
      cases hclaim with
      | missed hmissed => exact absurd hstatus hmissed
      | won _ hpreparing =>
        have hwithin : Within [.read, .update, .sync, .generate] ((JobRunner.execute id job).orElse
            fun e => JobRunner.resolveClaimFailure id e) := by simp [JobRunner.within_execute]
        exact .inr (settled_of_runs hclaimed hwithin ⟨.preparing, hpreparing, by decide⟩)

/-- An id that waits nowhere is put back into its lane before the exception goes on. -/
theorem runs_redeliver {lane : Option String} {target : String} {e : Exc}
    {r : Except Exc (Option JobRecord)} (hlane : w.queue.resolveLane lane = .ok target)
    (hfresh : w.queue.pending.lookup id = none)
    (h : Runs (studio env) Alone t (do Prog.call (.enqueue id lane); throw e) w τ r w') :
    (id, target) ∈ w'.queue.pending ∧ w'.jobs = w.jobs := by
  have henqueue := JobQueue.enqueue_eq_ok hlane hfresh
  rcases h.of_bind with ⟨e, rfl, hcall⟩ | ⟨_, w₁, τ₁, τ₂, rfl, hcall, hthrow⟩
  · obtain ⟨-, hstep⟩ := hcall.of_call
    simp [step, henqueue] at hstep
  · obtain ⟨-, hstep⟩ := hcall.of_call
    obtain ⟨-, -, rfl⟩ := hthrow.of_raise
    simp only [step, henqueue, List.mem_singleton, Prod.mk.injEq, true_and] at hstep
    rw [hstep]
    exact ⟨List.mem_append_right _ (List.mem_singleton_self _), rfl⟩

/-! ## The job is resolved, or the id comes back -/

/-- When `run_once` comes back, the job it took off the queue is resolved or waits in its lane
again, and a job that had left `queued` before has kept its status. -/
theorem runOnce_accounts {lane : Option String} {queue : JobQueue} {r : Except Exc (Option JobRecord)}
    (htidy : w.queue.Tidy) (hdequeue : w.queue.dequeue lane = .ok (some id, queue))
    (h : Runs (studio env) Alone t (JobRunner.runOnce lane) w τ r w') :
    ∃ target, (id, target) ∈ w.queue.pending ∧ (Resolved w' id ∨ (id, target) ∈ w'.queue.pending) ∧
      ∀ status, status ≠ .queued → statusOf w id = some (.known status) →
        statusOf w' id = some (.known status) := by
  obtain ⟨target, hlane, hmem, hfresh, -⟩ := JobQueue.dequeue_eq_ok htidy hdequeue
  refine ⟨target, hmem, ?_⟩
  unfold JobRunner.runOnce at h
  rcases h.of_bind with ⟨e, rfl, hcall⟩ | ⟨found, w₁, τ₁, τ₂, -, hcall, hfound⟩
  · obtain ⟨-, hstep⟩ := hcall.of_call
    simp [step, hdequeue] at hstep
  obtain ⟨-, hstep⟩ := hcall.of_call
  simp only [step, hdequeue, List.mem_singleton, Prod.mk.injEq, Except.ok.injEq] at hstep
  obtain ⟨rfl, hw₁⟩ := hstep
  -- the row is still what it was, and the id waits nowhere
  have hstatus₁ : statusOf w₁ id = statusOf w id := by rw [hw₁]; rfl
  have hqueue₁ : w₁.queue = queue := by rw [hw₁]
  rw [← hstatus₁]
  obtain ⟨completion, w₂, τ₃, τ₄, -, hprocess, hafter⟩ := Runs.of_attempt_bind hfound
  have hprocess := runs_processJob hprocess
  cases completion with
  | ok job =>
    obtain ⟨-, -, rfl⟩ := hafter.of_ret
    exact ⟨.inl (hprocess.resolved ⟨job, rfl⟩), hprocess.kept⟩
  | error e =>
    simp only at hafter
    have hredeliver {w₃ : World} {τ₅ : List (Transition Cmd World)} (hhandled : Handles id w₁ w₃ False)
        (hback : Runs (studio env) Alone t (do Prog.call (.enqueue id lane); throw e) w₃ τ₅ r w') :
        (Resolved w' id ∨ (id, target) ∈ w'.queue.pending) ∧ ∀ status, status ≠ .queued →
          statusOf w₁ id = some (.known status) → statusOf w' id = some (.known status) := by
      have hqueue₃ : w₃.queue = queue := hhandled.queue.trans hqueue₁
      obtain ⟨hpending, hjobs⟩ := runs_redeliver (hqueue₃ ▸ hlane) (hqueue₃ ▸ hfresh) hback
      refine ⟨.inr hpending, fun status hne hstatus => ?_⟩
      rw [statusOf, World.row?, hjobs]
      exact hhandled.kept status hne hstatus
    split at hafter
    · rcases hafter.of_bind with ⟨e', -, hquarantine⟩ | ⟨outcome, w₃, τ₅, τ₆, -, hquarantine, hback⟩
      · obtain ⟨outcome, ho, -⟩ := runs_quarantinePoisonJob hquarantine
        cases ho
      obtain ⟨outcome', ho, hhandled⟩ := runs_quarantinePoisonJob hquarantine
      obtain rfl := Except.ok.inj ho
      have hhandled := hprocess.trans hhandled
      split at hback
      next hfailed => exact hredeliver (hhandled.mono False.elim) hback
      next hdone =>
        obtain ⟨-, -, rfl⟩ := hback.of_raise
        exact ⟨.inl (hhandled.resolved hdone), hhandled.kept⟩
    · exact hredeliver (hprocess.mono False.elim) hafter

end Runs

/-- A queued job whose request does not decode, and whose id waits. -/
def poisonedQueue : World where
  jobs := AList.insert 7 { JobRow.ofRecord { collectedJob with status := .queued } with
    requestJson := .malformed } ∅
  files := ∅
  queue := { pending := [(7, "default")] }

/-- The storage fails while the row is quarantined: the row stays `queued`, and the id comes
back. -/
theorem runOnce_accounts_poisonedQueue :
    ∃ τ e w', Runs (studio { Env.plain with faults := true }) Alone 0 (JobRunner.runOnce none) poisonedQueue τ
        (.error e) w' ∧ statusOf w' 7 = some (.known .queued) ∧
      ∃ target, (7, target) ∈ poisonedQueue.queue.pending ∧
        (Resolved w' 7 ∨ (7, target) ∈ w'.queue.pending) ∧
        ∀ status, status ≠ .queued → statusOf poisonedQueue 7 = some (.known status) →
          statusOf w' 7 = some (.known status) := by
  have hfollow : ((studio { Env.plain with faults := true }).follow 0 (JobRunner.runOnce none) [0, 0, 1, 0]
      poisonedQueue).map (fun (_, r, w') => (r, statusOf w' 7)) =
        some (.error (.decode 7), some (.known .queued)) := by decide +kernel
  obtain ⟨⟨τ, r, w'⟩, hrun, hresult⟩ := Option.map_eq_some_iff.mp hfollow
  obtain ⟨rfl, hstatus⟩ := Prod.mk.inj hresult
  have hruns := runs_of_follow hrun
  have hdequeue : poisonedQueue.queue.dequeue none = .ok (some 7, { pending := [] }) := rfl
  have htidy : poisonedQueue.queue.Tidy := by simp [JobQueue.Tidy, poisonedQueue]
  exact ⟨τ, _, w', hruns, hstatus, runOnce_accounts htidy hdequeue hruns⟩

end CreativeStudio.Jobs
