import CreativeStudio.Storage.JobRepository

/-!
# What a command touches

Commands come in kinds, and a program stays within a list of kinds. For each kind the
components of the shared state that it leaves alone are listed once, in `Frame`; what an
`UPDATE` may do to a row is the law of its statement.
-/

namespace CreativeStudio.Storage
open Data Jobs Batches Conc

/-- What a command does, for the purpose of saying what it cannot touch. -/
inductive Kind
  /-- It reads, or calls a collaborator that shares no state with the rest. -/
  | read
  | insert | update
  /-- `mark_completion_done`. -/
  | markDone
  | writeBatch | lock | enqueue | dequeue | poison
  /-- It draws a uuid. -/
  | draw
  /-- `sync_job`. -/
  | sync
  /-- The Story step of a completion. -/
  | replay
  | generate
  /-- It records what the thread is doing. -/
  | note
  | phase
  deriving DecidableEq, Repr

@[simp] def Cmd.kind : Cmd β → Kind
  | .insertJob _ _ => .insert
  | .updateJob _ update => if update.set.completionState.isSome then .markDone else .update
  | .selectJob _ | .selectJobs | .scanBatchFiles | .readBatchFile _ | .poisonCandidates
  | .utcNow | .validateReferences _ _ | .registryBegin _ | .registryRequestCancel _
  | .registryCancelled _ | .registryEnd _ _ | .stopRequested
  | .findGenerator _ _ => .read
  | .writeBatchFile _ => .writeBatch
  | .acquireBatchLock | .releaseBatchLock => .lock
  | .enqueue _ _ => .enqueue
  | .dequeue _ => .dequeue
  | .setPoisonCandidates _ => .poison
  | .uuid4 => .draw
  | .syncJob _ => .sync
  | .convergeScene _ => .replay
  | .generate _ _ => .generate
  | .beginAttempt _ | .noteStatus _ | .noteRecomputed _ => .note
  | .enterPhase _ => .phase

/-- An `UPDATE` that the command executes is lawful. -/
@[simp] def Cmd.Lawful : Cmd β → Prop
  | .updateJob _ update => update.Lawful
  | _ => True

/-- The command is of one of the kinds, and lawful. -/
@[simp] def Cmd.Within (kinds : List Kind) (c : Cmd β) : Prop := c.kind ∈ kinds ∧ c.Lawful

/-- What a command of a kind leaves alone. -/
structure Frame (kind : Kind) (t : Tid) (w w' : World) : Prop where
  jobs : kind ∉ [.insert, .update, .markDone] → w'.jobs = w.jobs
  files : kind ≠ .writeBatch → w'.files = w.files
  batchLock : kind ≠ .lock → w'.batchLock = w.batchLock
  queue : kind ∉ [.enqueue, .dequeue] → w'.queue = w.queue
  uuids : kind ≠ .draw → w'.uuids = w.uuids
  phase : kind ≠ .phase → w'.phase = w.phase
  attempts : kind ∉ [.enqueue, .sync, .replay, .note] → w'.attempts = w.attempts
  /-- Whatever the kind, the records about other threads stay. -/
  attempts_of_ne : ∀ u, u ≠ t → w'.attempts u = w.attempts u
  claims : kind ∉ [.update, .markDone, .generate] → w'.claims = w.claims
  invoked : kind ≠ .generate → w'.invoked = w.invoked

theorem Frame.refl (kind : Kind) (t : Tid) (w : World) : Frame kind t w w := by
  constructor <;> intros <;> rfl

theorem mem_fallible {env : Env} {w w' : World} {r : Except Exc α}
    {outcomes : List (Except Exc α × World)} (h : (r, w') ∈ fallible env w outcomes) :
    (r, w') ∈ outcomes ∨ (r = .error .storage ∧ w' = w) := by
  unfold fallible at h
  split at h
  · rcases List.mem_append.mp h with h | h
    · exact .inl h
    · rw [List.mem_singleton, Prod.mk.injEq] at h
      exact .inr h
  · exact .inl h

/-- A property of every outcome of a fallible command. -/
theorem frame_of_mem_fallible {env : Env} {kind : Kind} {t : Tid} {w w' : World}
    {r : Except Exc α} {outcomes : List (Except Exc α × World)}
    (h : (r, w') ∈ fallible env w outcomes)
    (hout : (r, w') ∈ outcomes → Frame kind t w w') : Frame kind t w w' := by
  rcases mem_fallible h with h | ⟨-, rfl⟩
  · exact hout h
  · exact .refl kind t w'

@[simp] theorem attempts_attempt_of_ne {w : World} {t u : Tid} {f : Attempt → Attempt}
    (hu : u ≠ t) : (w.attempt t f).attempts u = w.attempts u := by
  simp [World.attempt, Function.update_of_ne hu]

/-- Each command touches what its kind says. -/
theorem frame_of_step {env : Env} {t : Tid} {c : Cmd β} {w w' : World} {b : β}
    (h : (b, w') ∈ (studio env).step t c w) : Frame c.kind t w w' := by
  rw [studio_step] at h
  cases c with
  | insertJob id row =>
    refine frame_of_mem_fallible h fun h => ?_
    cases hrow : w.row? id <;> simp only [hrow, List.mem_singleton, Prod.mk.injEq] at h <;>
      obtain ⟨-, rfl⟩ := h <;> constructor <;> simp [Cmd.kind]
  | updateJob id update =>
    refine frame_of_mem_fallible h fun h => ?_
    have hkind : (Cmd.updateJob id update).kind = .markDone ∨
        (Cmd.updateJob id update).kind = .update := by
      simp only [Cmd.kind]; split <;> simp
    cases hrow : w.row? id with
    | none =>
      simp only [hrow, List.mem_singleton, Prod.mk.injEq] at h
      obtain ⟨-, rfl⟩ := h
      exact .refl ..
    | some row =>
      cases hrun : update.run w.clock row <;>
        simp only [hrow, hrun, List.mem_singleton, Prod.mk.injEq] at h <;>
        obtain ⟨-, rfl⟩ := h
      · exact .refl ..
      · rcases hkind with hkind | hkind <;> rw [hkind] <;> constructor <;>
          simp [World.replaceRow]
  | selectJob id | selectJobs | scanBatchFiles | writeBatchFile record =>
    refine frame_of_mem_fallible h fun h => ?_
    simp only [List.mem_singleton, Prod.mk.injEq] at h
    obtain ⟨-, rfl⟩ := h
    constructor <;> simp [Cmd.kind]
  | syncJob job =>
    refine frame_of_mem_fallible h fun h => ?_
    simp only [List.mem_cons, List.mem_map, Prod.mk.injEq] at h
    rcases h with ⟨-, rfl⟩ | ⟨e, -, -, rfl⟩
    · constructor <;> simp +contextual [Cmd.kind, World.attempt, Function.update_of_ne]
    · exact .refl ..
  | readBatchFile id =>
    simp only [step, List.mem_cons] at h
    rcases h with h | h
    · cases hfile : w.file? id with
      | none =>
        simp only [hfile, Prod.mk.injEq] at h
        obtain ⟨-, rfl⟩ := h
        exact .refl ..
      | some file =>
        cases file <;> simp only [hfile, Prod.mk.injEq] at h <;> obtain ⟨-, rfl⟩ := h <;>
          exact .refl ..
    · split at h <;> simp at h
      obtain ⟨-, rfl⟩ := h
      exact .refl ..
  | acquireBatchLock =>
    simp only [step] at h
    split at h <;> simp at h
    subst h
    constructor <;> simp [Cmd.kind]
  | enqueue id lane =>
    simp only [step] at h
    split at h <;> simp only [List.mem_singleton, Prod.mk.injEq] at h <;> obtain ⟨-, rfl⟩ := h
    · exact .refl ..
    · constructor <;> simp +contextual [Cmd.kind, World.attempt, Function.update_of_ne]
  | dequeue lane =>
    simp only [step] at h
    split at h <;> simp only [List.mem_singleton, Prod.mk.injEq] at h <;> obtain ⟨-, rfl⟩ := h
    · exact .refl ..
    · constructor <;> simp [Cmd.kind]
  | validateReferences request projectId | findGenerator mediaType request =>
    simp only [step, List.mem_cons, List.mem_map, Prod.mk.injEq] at h
    rcases h with ⟨-, rfl⟩ | ⟨e, -, -, rfl⟩ <;> exact .refl ..
  | convergeScene job =>
    simp only [step, List.mem_append, List.mem_map, Prod.mk.injEq] at h
    rcases h with ⟨e, -, -, rfl⟩ | ⟨e, -, -, rfl⟩
    · constructor <;> simp +contextual [Cmd.kind, World.attempt, Function.update_of_ne]
    · exact .refl ..
  | registryBegin id | registryRequestCancel id =>
    simp only [step] at h
    split at h <;> simp only [List.mem_singleton, Prod.mk.injEq] at h <;> obtain ⟨-, rfl⟩ := h <;>
      constructor <;> intros <;> rfl
  | registryEnd id token =>
    simp only [step] at h
    split at h <;> simp only [List.mem_singleton, Prod.mk.injEq] at h <;> obtain ⟨-, rfl⟩ := h <;>
      constructor <;> intros <;> rfl
  | registryCancelled id =>
    simp only [step, List.mem_singleton, Prod.mk.injEq] at h
    obtain ⟨-, rfl⟩ := h
    exact .refl ..
  | stopRequested =>
    simp only [step, List.mem_cons, List.not_mem_nil, or_false, Prod.mk.injEq] at h
    rcases h with ⟨-, rfl⟩ | ⟨-, rfl⟩ <;> exact .refl ..
  | generate id request =>
    simp only [step, List.mem_map, Prod.mk.injEq] at h
    obtain ⟨run, -, -, rfl⟩ := h
    constructor <;> simp [Cmd.kind]
  | enterPhase phase =>
    simp only [step] at h
    split at h <;> simp at h
    subst h
    constructor <;> simp [Cmd.kind]
  | releaseBatchLock | poisonCandidates | setPoisonCandidates candidates | uuid4 | utcNow
  | beginAttempt id | noteStatus status | noteRecomputed record =>
    simp only [step, List.mem_singleton, Prod.mk.injEq] at h
    obtain ⟨-, rfl⟩ := h
    constructor <;> simp +contextual [Cmd.kind, World.attempt, Function.update_of_ne]

/-! ## Rows -/

@[simp] theorem row?_replaceRow_self (w : World) (t : Tid) (id : JobId) (old new : JobRow) :
    (w.replaceRow t id old new).row? id = some new := by
  simp [World.row?, World.replaceRow]

theorem row?_replaceRow_of_ne (w : World) (t : Tid) {id id' : JobId} (old new : JobRow)
    (h : id' ≠ id) : (w.replaceRow t id old new).row? id' = w.row? id' := by
  simp [World.row?, World.replaceRow, AList.lookup_insert_ne h]

/-- The outcomes of an `UPDATE`: it fails, it matches nothing, or it replaces the row. -/
theorem updateJob_cases {env : Env} {t : Tid} {id : JobId} {update : JobUpdate} {w w' : World}
    {r : Except Exc Bool} (h : (r, w') ∈ (studio env).step t (.updateJob id update) w) :
    (r ≠ .ok true ∧ w' = w) ∨ ∃ row row', r = .ok true ∧ w.row? id = some row ∧
      update.run w.clock row = some row' ∧ w' = w.replaceRow t id row row' := by
  rw [studio_step] at h
  rcases mem_fallible h with h | ⟨rfl, rfl⟩
  swap
  · exact .inl ⟨by simp, rfl⟩
  cases hrow : w.row? id with
  | none =>
    simp only [hrow, List.mem_singleton, Prod.mk.injEq] at h
    obtain ⟨rfl, rfl⟩ := h
    exact .inl ⟨by simp, rfl⟩
  | some row =>
    cases hrun : update.run w.clock row with
    | none =>
      simp only [hrow, hrun, List.mem_singleton, Prod.mk.injEq] at h
      obtain ⟨rfl, rfl⟩ := h
      exact .inl ⟨by simp, rfl⟩
    | some row' =>
      simp only [hrow, hrun, List.mem_singleton, Prod.mk.injEq] at h
      obtain ⟨rfl, rfl⟩ := h
      exact .inr ⟨row, row', rfl, rfl, hrun, rfl⟩

/-- An `UPDATE` that matched nothing found no row, or one that its `WHERE` clause excludes. -/
theorem updateJob_missed {env : Env} {t : Tid} {id : JobId} {update : JobUpdate} {w w' : World}
    (h : (.ok false, w') ∈ (studio env).step t (.updateJob id update) w) :
    w' = w ∧ ∀ row, w.row? id = some row → ¬ update.condition.holds row := by
  rw [studio_step] at h
  rcases mem_fallible h with h | ⟨hfault, -⟩
  swap
  · cases hfault
  cases hrow : w.row? id with
  | none =>
    simp only [hrow, List.mem_singleton, Prod.mk.injEq] at h
    exact ⟨h.2, fun row hsome => by cases hsome⟩
  | some row =>
    cases hrun : update.run w.clock row with
    | none =>
      simp only [hrow, hrun, List.mem_singleton, Prod.mk.injEq] at h
      refine ⟨h.2, ?_⟩
      rintro _ ⟨rfl⟩ hholds
      simp [JobUpdate.run, hholds] at hrun
    | some row' => simp [hrow, hrun] at h

/-- The outcomes of an `INSERT`: it is refused, or the row is new. -/
theorem insertJob_cases {env : Env} {t : Tid} {id : JobId} {row : JobRow} {w w' : World}
    {r : Except Exc Unit} (h : (r, w') ∈ (studio env).step t (.insertJob id row) w) :
    ((∃ e, r = .error e) ∧ w' = w) ∨
      r = .ok () ∧ w.row? id = none ∧ w' = { w with jobs := w.jobs.insert id row } := by
  rw [studio_step] at h
  rcases mem_fallible h with h | ⟨rfl, rfl⟩
  swap
  · exact .inl ⟨⟨_, rfl⟩, rfl⟩
  cases hrow : w.row? id with
  | some old =>
    simp only [hrow, List.mem_singleton, Prod.mk.injEq] at h
    obtain ⟨rfl, rfl⟩ := h
    exact .inl ⟨⟨_, rfl⟩, rfl⟩
  | none =>
    simp only [hrow, List.mem_singleton, Prod.mk.injEq] at h
    obtain ⟨rfl, rfl⟩ := h
    exact .inr ⟨rfl, rfl, rfl⟩

/-- A row persists, and what happens to it is one statement. -/
theorem row_of_step {env : Env} {t : Tid} {c : Cmd β} {w w' : World} {b : β} {id : JobId}
    {row : JobRow} (h : (b, w') ∈ (studio env).step t c w) (hrow : w.row? id = some row) :
    ∃ row', w'.row? id = some row' ∧ (row' = row ∨
      ∃ (update : JobUpdate) (now : ℕ), update.run now row = some row' ∧
        (c.Lawful → update.Lawful)) := by
  by_cases hkind : c.kind ∈ [.insert, .update, .markDone]
  swap
  · refine ⟨row, ?_, .inl rfl⟩
    rw [World.row?, (frame_of_step h).jobs hkind]
    exact hrow
  cases c with
  | insertJob new inserted =>
    rcases insertJob_cases h with ⟨-, rfl⟩ | ⟨-, hnone, rfl⟩
    · exact ⟨row, hrow, .inl rfl⟩
    · have hne : id ≠ new := by
        rintro rfl
        rw [hnone] at hrow
        cases hrow
      exact ⟨row, by simpa [World.row?, AList.lookup_insert_ne hne] using hrow, .inl rfl⟩
  | updateJob target update =>
    rcases updateJob_cases h with ⟨-, rfl⟩ | ⟨old, new, -, hold, hrun, rfl⟩
    · exact ⟨row, hrow, .inl rfl⟩
    · by_cases hid : id = target
      · subst hid
        obtain rfl : old = row := Option.some.inj (hold.symm.trans hrow)
        exact ⟨new, by simp, .inr ⟨update, w.clock, hrun, fun hlawful => hlawful⟩⟩
      · exact ⟨row, by rw [row?_replaceRow_of_ne w t old new hid]; exact hrow, .inl rfl⟩
  | _ => simp [Cmd.kind] at hkind

/-! ## Programs within kinds of commands

The lemmas are equivalences, so that `simp` reads a footprint off the text of a
program. -/

/-- Every command of the program is of one of the kinds, and lawful. -/
def Within (kinds : List Kind) (p : App α) : Prop := p.Uses fun c => c.Within kinds

section Within
variable {kinds : List Kind}

@[simp] theorem within_ret (a : α) : Within kinds (.ret a) := trivial
@[simp] theorem within_raise (e : Exc) : Within kinds (.raise e : App α) := trivial

@[simp] theorem within_bind {p : App α} {f : α → App β} :
    Within kinds (p >>= f) ↔ Within kinds p ∧ ∀ a, p.Returns a → Within kinds (f a) :=
  Prog.uses_bind p f

@[simp] theorem within_map {p : App α} {f : α → β} :
    Within kinds (f <$> p) ↔ Within kinds p := by
  rw [map_eq_pure_bind, within_bind]
  simp

@[simp] theorem within_exec {c : Cmd α} : Within kinds (Prog.exec c) ↔ c.Within kinds :=
  Prog.uses_exec c

@[simp] theorem within_call {c : Cmd (Except Exc α)} :
    Within kinds (Prog.call c) ↔ c.Within kinds := Prog.uses_call c

@[simp] theorem within_ofExcept (r : Except Exc α) : Within kinds (Prog.ofExcept r) :=
  Prog.uses_ofExcept r

@[simp] theorem within_attempt {p : App α} : Within kinds p.attempt ↔ Within kinds p :=
  Prog.uses_attempt p

@[simp] theorem within_ite {c : Prop} [Decidable c] {p q : App α} :
    Within kinds (if c then p else q) ↔ (c → Within kinds p) ∧ (¬ c → Within kinds q) := by
  split <;> simp [*]

@[simp] theorem within_discard {p : App α} : Within kinds (discard p) ↔ Within kinds p :=
  within_map

@[simp] theorem within_orElse {p : App α} {h : Exc → App α} :
    Within kinds (p.orElse h) ↔
      Within kinds p ∧ ∀ e, p.attempt.Returns (.error e) → Within kinds (h e) := by
  unfold Prog.orElse
  rw [within_bind, within_attempt, and_congr_right_iff]
  refine fun _ => ⟨fun hr e he => hr _ he, fun hh r hr => ?_⟩
  cases r with
  | ok a => exact within_ret a
  | error e => exact hh e hr

@[simp] theorem within_andFinally {p : App α} {f : App Unit} :
    Within kinds (p.andFinally f) ↔
      Within kinds p ∧ ∀ r, p.attempt.Returns r → Within kinds f := by
  unfold Prog.andFinally
  simp

theorem except_forall {ε α : Type*} {P : Except ε α → Prop} :
    (∀ r, P r) ↔ (∀ e, P (.error e)) ∧ ∀ a, P (.ok a) :=
  ⟨fun h => ⟨fun e => h _, fun a => h _⟩, fun h r => by
    cases r with
    | error e => exact h.1 e
    | ok a => exact h.2 a⟩

/-! ### The job repository -/

/-- An `UPDATE` of the services: it expects statuses that are not terminal, and it leaves no
row `queued`. -/
structure LawfulEdit (status : Option StatusText) (progress : Option ℚ)
    (expectedStatuses : List StatusText) : Prop where
  expected : ∀ text ∈ expectedStatuses, text ∉ terminalStatusTexts
  status_ne : status ≠ some (.known .queued)
  expected_ne : status = none → .known .queued ∉ expectedStatuses
  progress_mem : ∀ fraction, progress = some fraction → 0 ≤ fraction ∧ fraction ≤ 1

theorem lawful_edit {status : Option GenerationStatus} {progress : Option ℚ}
    {projectId : Option (Option String)} {result : Option (Option GenerationResult)}
    {errorMessage : Option (Option String)} {expectedStatuses : List StatusText}
    (h : LawfulEdit (status.map .known) progress expectedStatuses) :
    (JobUpdate.edit status progress projectId result errorMessage
      (some expectedStatuses)).Lawful := by
  have hmem : ∀ row, (JobUpdate.edit status progress projectId result errorMessage
      (some expectedStatuses)).condition.holds row → row.status ∈ expectedStatuses :=
    fun row hholds => Condition.mem_of_holds hholds (by simp [JobUpdate.edit])
  refine JobUpdate.lawful_of ?_ (.inr fun row hholds => h.expected _ (hmem row hholds))
    h.progress_mem
  cases status with
  | none => exact .inr ⟨rfl, fun row hholds hqueued => h.expected_ne rfl (hqueued ▸ hmem row hholds)⟩
  | some status =>
    refine .inl ⟨rfl, fun hqueued => h.status_ne ?_⟩
    simpa [JobUpdate.edit] using hqueued

theorem lawful_repairStatus (errorMessage : String) :
    (JobUpdate.repairStatus errorMessage).Lawful := by
  refine JobUpdate.lawful_of (.inl ⟨rfl, by simp [JobUpdate.repairStatus]⟩) (.inr ?_) ?_
  · intro row hholds hterminal
    refine Condition.notMem_of_holds hholds ?_
    obtain ⟨status, -, hstatus⟩ := List.mem_map.mp hterminal
    rw [← hstatus]
    exact List.mem_map_of_mem (GenerationStatus.mem_jobStatuses status)
  · rintro progress ⟨rfl⟩
    simp

/-- A statement on terminal rows that assigns completion columns only. -/
theorem lawful_of_terminal {update : JobUpdate} (hstatus : update.set.status = none)
    (hresult : update.set.result = none) (herror : update.set.errorMessage = none)
    (hprogress : update.set.progress = none)
    (hterminal : terminalStatusTexts ∈ update.condition.statusIn) : update.Lawful := by
  refine JobUpdate.lawful_of (.inr ⟨hstatus, fun row hholds hqueued => ?_⟩)
    (.inl ⟨hresult, herror⟩) (by simp [hprogress])
  have hmem := Condition.mem_of_holds hholds hterminal
  rw [hqueued] at hmem
  simp [terminalStatusTexts, GenerationStatus.terminalJobStatuses] at hmem

theorem lawful_completionDone : JobUpdate.completionDone.Lawful :=
  lawful_of_terminal rfl rfl rfl rfl (by simp [JobUpdate.completionDone])

theorem lawful_completionPending (errorMessage : String) :
    (JobUpdate.completionPending errorMessage).Lawful :=
  lawful_of_terminal rfl rfl rfl rfl (by simp [JobUpdate.completionPending])

namespace JobRepository

@[simp] theorem within_get (id : JobId) (h : .read ∈ kinds) : Within kinds (get id) := by
  simp [get, Option.forall, h]

@[simp] theorem within_create (job : JobRecord) (h : [.insert, .read] ⊆ kinds) :
    Within kinds (create job) := by
  simp only [List.cons_subset] at h
  simp [create, Option.forall, h]

@[simp] theorem within_createIfAbsent (job : JobRecord) (h : [.insert, .read] ⊆ kinds) :
    Within kinds (createIfAbsent job) := by
  unfold createIfAbsent
  rw [within_bind, within_attempt]
  refine ⟨within_create job h, fun r _ => ?_⟩
  simp only [List.cons_subset] at h
  split <;> simp [Option.forall, h]

@[simp] theorem within_listTolerant (h : .read ∈ kinds) : Within kinds listTolerant := by
  simp [listTolerant, h]

@[simp] theorem within_listTerminalPendingCompletion (h : .read ∈ kinds) :
    Within kinds listTerminalPendingCompletion := by
  simp [listTerminalPendingCompletion, h]

@[simp] theorem within_getRawStatus (id : JobId) (h : .read ∈ kinds) :
    Within kinds (getRawStatus id) := by
  simp [getRawStatus, h]

@[simp] theorem within_getRawErrorMessage (id : JobId) (h : .read ∈ kinds) :
    Within kinds (getRawErrorMessage id) := by
  simp [getRawErrorMessage, h]

theorem within_updateIfStatus {id : JobId} {expectedStatuses : List StatusText}
    {status : Option StatusText} {progress : Option ℚ} {projectId : Option (Option String)}
    {result : Option (Option GenerationResult)} {errorMessage : Option (Option String)}
    (hlawful : LawfulEdit status progress expectedStatuses) (h : [.read, .update] ⊆ kinds) :
    Within kinds
      (updateIfStatus id expectedStatuses status progress projectId result errorMessage) := by
  simp only [List.cons_subset] at h
  unfold updateIfStatus updateCore
  split
  · exact within_ret none
  split
  · exact within_ret none
  next target =>
    have hedit : (JobUpdate.edit (some target) progress projectId result errorMessage
        (some expectedStatuses)).Lawful := lawful_edit hlawful
    simpa [updateCore.run, h, JobUpdate.edit] using hedit
  · have hedit : (JobUpdate.edit none progress projectId result errorMessage
        (some expectedStatuses)).Lawful := lawful_edit hlawful
    split
    · exact within_get id h.1
    · simpa [updateCore.run, h, JobUpdate.edit] using hedit

theorem within_transitionIfStatus {id : JobId} {expectedStatuses : List StatusText}
    {status : StatusText} {progress : Option ℚ} {errorMessage : Option (Option String)}
    (hlawful : LawfulEdit (some status) progress expectedStatuses) (h : .update ∈ kinds) :
    Within kinds (transitionIfStatus id expectedStatuses status progress errorMessage) := by
  unfold transitionIfStatus
  split
  · exact within_ret false
  next target =>
    split
    · exact within_ret false
    · have hedit : (JobUpdate.edit (some target) progress none none errorMessage
          (some expectedStatuses)).Lawful := lawful_edit hlawful
      simpa [h, JobUpdate.edit] using hedit

@[simp] theorem within_quarantineStructurallyInvalidStatus (id : JobId) (errorMessage : String)
    (h : .update ∈ kinds) :
    Within kinds (quarantineStructurallyInvalidStatus id errorMessage) := by
  simpa [quarantineStructurallyInvalidStatus, h, JobUpdate.repairStatus] using
    lawful_repairStatus errorMessage

@[simp] theorem within_markCompletionDone (id : JobId) (h : .markDone ∈ kinds) :
    Within kinds (markCompletionDone id) := by
  simpa [markCompletionDone, h, JobUpdate.completionDone] using lawful_completionDone

@[simp] theorem within_markCompletionPendingWithError (id : JobId) (errorMessage : String)
    (h : .update ∈ kinds) : Within kinds (markCompletionPendingWithError id errorMessage) := by
  simpa [markCompletionPendingWithError, h, JobUpdate.completionPending] using
    lawful_completionPending errorMessage

end JobRepository

end Within

end CreativeStudio.Storage
