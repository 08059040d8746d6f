import CreativeStudio.Jobs.Schemas
import CreativeStudio.Schemas.Errors
import Mathlib.Logic.Relation

/-!
# Rows of the jobs table

A row holds what is stored, which need not be what the program wrote: a column may hold
bytes that do not decode, and a status outside the contract. `JobUpdate` is one `UPDATE`
statement. It carries the proof that its `WHERE` clause guards the status it sets, so a
statement that breaks the transition contract cannot be built.
-/

namespace CreativeStudio.Storage
open Data Jobs

/-- A stored value: bytes that decode, or bytes that do not. -/
inductive Column (α : Type)
  | value (a : α)
  | malformed
  deriving DecidableEq, Repr

/-- The value of a column that decodes. -/
def Column.get? : Column α → Option α
  | value a => some a
  | malformed => none

/-- A stored timestamp: its place in the order of the column, and whether it parses. -/
structure Timestamp where
  order : ℕ
  parses : Bool := true
  deriving DecidableEq, Repr

/-- One row of the jobs table, without its id. -/
structure JobRow where
  projectId : Column (Option String)
  mediaType : Column MediaType
  status : StatusText
  requestJson : Column GenerationRequest
  resultJson : Column (Option GenerationResult)
  progress : ℚ
  errorMessage : Column (Option String)
  completionState : Column CompletionState
  completionError : Column (Option String)
  createdAt : Timestamp
  updatedAt : Timestamp
  deriving DecidableEq, Repr

/-- `datetime.fromisoformat`. -/
def Timestamp.parse (t : Timestamp) : Option ℕ := if t.parses then some t.order else none

/-- The status a `JobRecord` accepts. -/
def parseStatus : StatusText → Option GenerationStatus
  | .known status => some status
  | .unknown _ => none

/-- The progress a `JobRecord` accepts. -/
def parseProgress (progress : ℚ) : Option ℚ :=
  if 0 ≤ progress ∧ progress ≤ 1 then some progress else none

/-- The record that a row reconstructs to. -/
def JobRow.decode? (id : JobId) (row : JobRow) : Option JobRecord := do
  return {
    id
    projectId := ← row.projectId.get?
    mediaType := ← row.mediaType.get?
    status := ← parseStatus row.status
    request := ← row.requestJson.get?
    result := ← row.resultJson.get?
    progress := ← parseProgress row.progress
    errorMessage := ← row.errorMessage.get?
    completionState := ← row.completionState.get?
    completionError := ← row.completionError.get?
    createdAt := ← row.createdAt.parse
    updatedAt := ← row.updatedAt.parse }

/-- `_row_to_record`: any failure is the row's own content. -/
def JobRow.toRecord (id : JobId) (row : JobRow) : Except Exc JobRecord :=
  match row.decode? id with
  | some job => .ok job
  | none => .error (.decode id)

/-- The result as a column written with sorted keys holds it. -/
def canonResult (result : GenerationResult) : GenerationResult :=
  { result with metadata := result.metadata.canon }

/-- The row that `INSERT` writes. -/
def JobRow.ofRecord (job : JobRecord) : JobRow where
  projectId := .value job.projectId
  mediaType := .value job.mediaType
  status := .known job.status
  requestJson := .value job.request.canon
  resultJson := .value (job.result.map canonResult)
  progress := job.progress
  errorMessage := .value job.errorMessage
  completionState := .value job.completionState
  completionError := .value job.completionError
  createdAt := { order := job.createdAt }
  updatedAt := { order := job.updatedAt }

theorem decode?_ofRecord (job : JobRecord) (h : 0 ≤ job.progress ∧ job.progress ≤ 1) :
    (JobRow.ofRecord job).decode? job.id =
      some { job with request := job.request.canon, result := job.result.map canonResult } := by
  simp [JobRow.decode?, JobRow.ofRecord, Column.get?, parseStatus, parseProgress, h,
    Timestamp.parse]

/-- A row that decodes has the status its record shows. -/
theorem status_of_decode? {id : JobId} {row : JobRow} {job : JobRecord}
    (h : row.decode? id = some job) : row.status = .known job.status ∧ job.id = id := by
  unfold JobRow.decode? at h
  simp only [Option.pure_def, Option.bind_eq_bind, Option.bind_eq_some_iff, Option.some.injEq] at h
  obtain ⟨_, -, _, -, status, hstatus, _, -, _, -, _, -, _, -, _, -, _, -, _, -, _, -, rfl⟩ := h
  refine ⟨?_, rfl⟩
  cases hrow : row.status with
  | known s => rw [hrow] at hstatus; exact congrArg StatusText.known (Option.some.inj hstatus)
  | unknown text => rw [hrow] at hstatus; cases hstatus

theorem toRecord_eq_ok {id : JobId} {row : JobRow} {job : JobRecord} :
    row.toRecord id = .ok job ↔ row.decode? id = some job := by
  unfold JobRow.toRecord
  cases row.decode? id <;> simp

/-! ## Updates -/

/-- `JOB_STATUSES` as texts. -/
def jobStatusTexts : List StatusText := GenerationStatus.jobStatuses.map .known

/-- `TERMINAL_JOB_STATUSES` as texts. -/
def terminalStatusTexts : List StatusText := GenerationStatus.terminalJobStatuses.map .known

/-- The statuses from which a transition to the target is valid. -/
def transitionSources (target : GenerationStatus) : List StatusText :=
  (GenerationStatus.jobStatuses.filter fun current => current.isValidTransition target).map .known

theorem known_mem_transitionSources {current target : GenerationStatus} :
    StatusText.known current ∈ transitionSources target ↔ current.isValidTransition target := by
  simp [transitionSources, GenerationStatus.mem_jobStatuses]

/-- The `SET` clause of an `UPDATE`; a column that is not assigned is `none`. -/
structure Assignments where
  status : Option GenerationStatus := none
  progress : Option ℚ := none
  projectId : Option (Option String) := none
  result : Option (Option GenerationResult) := none
  errorMessage : Option (Option String) := none
  completionState : Option CompletionState := none
  completionError : Option (Option String) := none
  deriving DecidableEq, Repr

/-- The `WHERE` clause of an `UPDATE`, besides the id. -/
structure Condition where
  statusIn : List (List StatusText) := []
  statusNotIn : List StatusText := []
  completionState : Option CompletionState := none
  deriving DecidableEq, Repr

def Condition.holds (condition : Condition) (row : JobRow) : Bool :=
  condition.statusIn.all (fun texts => texts.contains row.status) &&
    !condition.statusNotIn.contains row.status &&
    condition.completionState.all fun state => row.completionState == .value state

/-- Assign to a column, or leave it. -/
def assign (new : Option α) (old : Column α) : Column α :=
  match new with
  | some a => .value a
  | none => old

/-- The row with its assigned columns replaced; `updated_at` always is. -/
def Assignments.apply (set : Assignments) (now : ℕ) (row : JobRow) : JobRow :=
  { row with
    status := match set.status with
      | some status => .known status
      | none => row.status
    progress := set.progress.getD row.progress
    projectId := assign set.projectId row.projectId
    resultJson := assign (set.result.map (Option.map canonResult)) row.resultJson
    errorMessage := assign set.errorMessage row.errorMessage
    completionState := assign set.completionState row.completionState
    completionError := assign set.completionError row.completionError
    updatedAt := { order := now } }

/-- An `UPDATE` statement for one job id. -/
structure JobUpdate where
  set : Assignments
  condition : Condition
  /-- The status that is set is guarded by its valid sources, or repairs a status that
  the contract was never defined for. -/
  guarded : ∀ status, set.status = some status →
    transitionSources status ∈ condition.statusIn ∨
      (status = .failed ∧ condition.statusNotIn = jobStatusTexts)
  /-- A completion mark is never taken back. -/
  marksDone : set.completionState ≠ some .pending

/-- The row after the statement, if its `WHERE` clause matches. -/
def JobUpdate.run (update : JobUpdate) (now : ℕ) (row : JobRow) : Option JobRow :=
  if update.condition.holds row then some (update.set.apply now row) else none

/-- How a status may change in one statement: along an edge of the contract, or from a
text outside it to `failed`. -/
inductive StatusChange : StatusText → StatusText → Prop
  | same (text : StatusText) : StatusChange text text
  | edge {current target : GenerationStatus} (h : target ∈ current.allowedTransitions) :
      StatusChange (.known current) (.known target)
  | repair (text : String) : StatusChange (.unknown text) (.known .failed)

theorem StatusChange.known {current target : GenerationStatus}
    (h : StatusChange (.known current) (.known target)) :
    target = current ∨ target ∈ current.allowedTransitions := by
  cases h with
  | same => exact .inl rfl
  | edge h => exact .inr h

/-- The status of a row after any number of statements. -/
abbrev StatusPath : StatusText → StatusText → Prop := Relation.ReflTransGen StatusChange

/-- A status that no statement changes. -/
theorem StatusChange.of_terminal {status : GenerationStatus} (hterminal : status.isTerminalStatus)
    {text : StatusText} (h : StatusChange (.known status) text) : text = .known status := by
  cases h with
  | same => rfl
  | edge h => simp [GenerationStatus.allowedTransitions_of_terminal hterminal] at h

theorem StatusPath.of_terminal {status : GenerationStatus} (hterminal : status.isTerminalStatus)
    {text : StatusText} (h : StatusPath (.known status) text) : text = .known status := by
  induction h with
  | refl => rfl
  | tail _ h ih => subst ih; exact h.of_terminal hterminal

/-- Where a job that was asked to stop can go. -/
theorem StatusPath.of_cancelRequested {text : StatusText}
    (h : StatusPath (.known .cancelRequested) text) :
    text ∈ [.known .cancelRequested, .known .cancelled, .known .failed] := by
  induction h with
  | refl => simp
  | @tail b c _ h ih =>
    simp only [List.mem_cons, List.not_mem_nil, or_false] at ih
    rcases ih with rfl | rfl | rfl
    · cases h with
      | same => simp
      | edge h => revert h; simp [GenerationStatus.allowedTransitions]; tauto
    · rw [h.of_terminal rfl]; simp
    · rw [h.of_terminal rfl]; simp

/-- The only status that leads to `succeeded`. -/
theorem StatusChange.into_succeeded {text : StatusText}
    (h : StatusChange text (.known .succeeded)) (hne : text ≠ .known .succeeded) :
    text = .known .postprocessing := by
  cases h with
  | same => exact absurd rfl hne
  | edge h => rw [GenerationStatus.succeeded_mem_allowedTransitions.mp h]

/-- No status leads back to `queued`. -/
theorem StatusChange.eq_queued {text : StatusText} (h : StatusChange text (.known .queued)) :
    text = .known .queued := by
  cases h with
  | same => rfl
  | edge h => exact absurd h (GenerationStatus.queued_notMem_allowedTransitions _)

/-- Every statement keeps to the contract. -/
theorem JobUpdate.statusChange {update : JobUpdate} {now : ℕ} {row row' : JobRow}
    (h : update.run now row = some row') : StatusChange row.status row'.status := by
  unfold run at h
  split at h
  swap
  · cases h
  next hholds =>
    obtain rfl := Option.some.inj h
    simp only [Condition.holds, Bool.and_eq_true, List.all_eq_true, Bool.not_eq_true',
      List.contains_eq_mem, decide_eq_true_eq, decide_eq_false_iff_not] at hholds
    obtain ⟨⟨hin, hnotin⟩, -⟩ := hholds
    unfold Assignments.apply
    cases hset : update.set.status with
    | none => exact .same _
    | some target =>
      rcases update.guarded target hset with hguard | ⟨rfl, hrepair⟩
      · have hsource := hin _ hguard
        cases hstatus : row.status with
        | unknown text =>
          rw [hstatus] at hsource
          simp [transitionSources] at hsource
        | known current =>
          rw [hstatus, known_mem_transitionSources, GenerationStatus.isValidTransition_iff] at hsource
          rcases hsource with rfl | hedge
          · exact .same _
          · exact .edge hedge
      · cases hstatus : row.status with
        | unknown text => exact .repair text
        | known current =>
          rw [hrepair, hstatus] at hnotin
          exact absurd (List.mem_map_of_mem (GenerationStatus.mem_jobStatuses current)) hnotin

/-- A mark of completion stays. -/
theorem JobUpdate.completionState_done {update : JobUpdate} {now : ℕ} {row row' : JobRow}
    (h : update.run now row = some row') (hdone : row.completionState = .value .done) :
    row'.completionState = .value .done := by
  unfold run at h
  split at h
  swap
  · cases h
  · obtain rfl := Option.some.inj h
    have hmark := update.marksDone
    unfold Assignments.apply assign
    cases hset : update.set.completionState with
    | none => exact hdone
    | some state =>
      cases state with
      | pending => exact absurd hset hmark
      | done => rfl

/-! ## Updates that keep a row's outcome -/

/-- The status is one no generation comes back from. -/
def JobRow.Terminal (row : JobRow) : Prop := row.status ∈ terminalStatusTexts

instance (row : JobRow) : Decidable row.Terminal := inferInstanceAs (Decidable (_ ∈ _))

/-- What every statement of the services keeps to, whatever row it meets. -/
structure JobUpdate.Lawful (update : JobUpdate) : Prop where
  /-- A row it matches is not left `queued`. -/
  leavesQueued : ∀ now row row', update.run now row = some row' → row'.status ≠ .known .queued
  /-- The outcome of a terminal row stays. -/
  keepsOutcome : ∀ now row row', update.run now row = some row' → row.Terminal →
    row'.resultJson = row.resultJson ∧ row'.errorMessage = row.errorMessage
  /-- The progress stays in range. -/
  keepsProgress : ∀ now row row', update.run now row = some row' →
    (parseProgress row.progress).isSome → (parseProgress row'.progress).isSome

theorem JobUpdate.run_eq_some {update : JobUpdate} {now : ℕ} {row row' : JobRow} :
    update.run now row = some row' ↔
      update.condition.holds row ∧ update.set.apply now row = row' := by
  unfold run
  split <;> simp_all

/-- A matched row satisfies each membership test of the `WHERE` clause. -/
theorem Condition.mem_of_holds {condition : Condition} {row : JobRow}
    (h : condition.holds row) {texts : List StatusText} (htexts : texts ∈ condition.statusIn) :
    row.status ∈ texts := by
  simp only [holds, Bool.and_eq_true, List.all_eq_true, List.contains_eq_mem,
    decide_eq_true_eq] at h
  exact h.1.1 _ htexts

theorem Condition.notMem_of_holds {condition : Condition} {row : JobRow}
    (h : condition.holds row) : row.status ∉ condition.statusNotIn := by
  simp only [holds, Bool.and_eq_true, Bool.not_eq_true', List.contains_eq_mem,
    decide_eq_false_iff_not] at h
  exact h.1.2

/-- The result and the error message a statement assigns are assigned to active rows only. -/
def JobUpdate.SparesOutcome (update : JobUpdate) : Prop :=
  (update.set.result = none ∧ update.set.errorMessage = none) ∨
    ∀ row, update.condition.holds row → ¬ row.Terminal

/-- A statement is lawful when it moves the row to a status other than `queued`, or
matches no queued row; when it spares the outcome of terminal rows; and when the progress
it assigns is in range. -/
theorem JobUpdate.lawful_of {update : JobUpdate}
    (hqueued : update.set.status.isSome ∧ update.set.status ≠ some .queued ∨
      update.set.status = none ∧
        ∀ row, update.condition.holds row → row.status ≠ .known .queued)
    (houtcome : update.SparesOutcome)
    (hprogress : ∀ progress, update.set.progress = some progress → 0 ≤ progress ∧ progress ≤ 1) :
    update.Lawful where
  leavesQueued now row row' hrun := by
    obtain ⟨hholds, rfl⟩ := run_eq_some.mp hrun
    unfold Assignments.apply
    rcases hqueued with ⟨hsome, hne⟩ | ⟨hnone, hne⟩
    · obtain ⟨status, hstatus⟩ := Option.isSome_iff_exists.mp hsome
      rw [hstatus] at hne ⊢
      intro h
      exact hne (congrArg some (StatusText.known.inj h))
    · rw [hnone]
      exact hne row hholds
  keepsOutcome now row row' hrun hterminal := by
    obtain ⟨hholds, rfl⟩ := run_eq_some.mp hrun
    rcases houtcome with ⟨hresult, herror⟩ | hactive
    · simp [Assignments.apply, assign, hresult, herror]
    · exact absurd hterminal (hactive row hholds)
  keepsProgress now row row' hrun hrow := by
    obtain ⟨-, rfl⟩ := run_eq_some.mp hrun
    unfold Assignments.apply
    cases hset : update.set.progress with
    | none => simpa using hrow
    | some progress => simp [parseProgress, hprogress progress hset]

/-! ## Rows that decode -/

theorem isSome_decode? {id : JobId} {row : JobRow} :
    (row.decode? id).isSome ↔ row.projectId.get?.isSome ∧ row.mediaType.get?.isSome ∧
      (parseStatus row.status).isSome ∧ row.requestJson.get?.isSome ∧
      row.resultJson.get?.isSome ∧ (parseProgress row.progress).isSome ∧
      row.errorMessage.get?.isSome ∧ row.completionState.get?.isSome ∧
      row.completionError.get?.isSome ∧ row.createdAt.parse.isSome ∧ row.updatedAt.parse.isSome := by
  simp [JobRow.decode?, Option.isSome_iff_exists, Option.bind_eq_some_iff]

theorem isSome_get?_assign {new : Option α} {old : Column α} (h : old.get?.isSome) :
    (assign new old).get?.isSome := by
  cases new with
  | none => exact h
  | some a => rfl

/-- A statement of the services does not make a row undecodable. -/
theorem JobUpdate.Lawful.decodes {update : JobUpdate} (hlawful : update.Lawful) {now : ℕ}
    {id : JobId} {row row' : JobRow} (h : update.run now row = some row')
    (hdecodes : (row.decode? id).isSome) : (row'.decode? id).isSome := by
  have hprogress := hlawful.keepsProgress now row row' h
  have hstatus := update.statusChange h
  obtain ⟨-, rfl⟩ := JobUpdate.run_eq_some.mp h
  rw [isSome_decode?] at hdecodes ⊢
  obtain ⟨h₁, h₂, h₃, h₄, h₅, h₆, h₇, h₈, h₉, h₁₀, -⟩ := hdecodes
  refine ⟨isSome_get?_assign h₁, h₂, ?_, h₄, isSome_get?_assign h₅, hprogress h₆,
    isSome_get?_assign h₇, isSome_get?_assign h₈, isSome_get?_assign h₉, h₁₀, rfl⟩
  cases hrow : row.status with
  | unknown text => rw [hrow] at h₃; cases h₃
  | known status =>
    rw [hrow] at hstatus
    generalize (update.set.apply now row).status = status' at hstatus
    cases hstatus <;> rfl

end CreativeStudio.Storage
