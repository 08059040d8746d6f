import CreativeStudio.Storage.World

/-!
# The job repository

Every method that reads or writes the jobs table. A method of several statements is
several commands, with other threads in between: `create` inserts and then reads back, and
`update` reads the row again after its `UPDATE` has been committed.
-/

namespace CreativeStudio.Storage
open Data Jobs Conc

/-! ## The statements -/

namespace JobUpdate

/-- The `UPDATE` of `_update` and of `transition_if_status`: the lifecycle edge is part of
its `WHERE` clause whenever it sets a status. -/
def edit (status : Option GenerationStatus) (progress : Option ℚ)
    (projectId : Option (Option String)) (result : Option (Option GenerationResult))
    (errorMessage : Option (Option String)) (expectedStatuses : Option (List StatusText)) :
    JobUpdate where
  set := { status, progress, projectId, result, errorMessage }
  condition := { statusIn := expectedStatuses.toList ++ (status.map transitionSources).toList }
  guarded := by
    rintro target rfl
    simp
  marksDone := by simp

/-- The `UPDATE` of `quarantine_structurally_invalid_status`. -/
def repairStatus (errorMessage : String) : JobUpdate where
  set := { status := some .failed, progress := some 1, errorMessage := some (some errorMessage) }
  condition := { statusNotIn := jobStatusTexts }
  guarded := by
    intro status hstatus
    exact .inr ⟨(Option.some.inj hstatus).symm, rfl⟩
  marksDone := by simp

/-- The `UPDATE` of `mark_completion_done`. -/
def completionDone : JobUpdate where
  set := { completionState := some .done, completionError := some none }
  condition := { statusIn := [terminalStatusTexts] }
  guarded := by simp
  marksDone := by simp

/-- The `UPDATE` of `mark_completion_pending_with_error`. -/
def completionPending (errorMessage : String) : JobUpdate where
  set := { completionError := some (some errorMessage) }
  condition := { statusIn := [terminalStatusTexts], completionState := some .pending }
  guarded := by simp
  marksDone := by simp

end JobUpdate

/-! ## The methods -/

namespace JobRepository

/-- `get`. -/
def get (id : JobId) : App (Option JobRecord) := do
  match ← Prog.call (.selectJob id) with
  | none => pure none
  | some row => Prog.ofExcept ((row.toRecord id).map some)

/-- `create`. -/
def create (job : JobRecord) : App JobRecord := do
  Prog.call (.insertJob job.id (.ofRecord job))
  match ← get job.id with
  | some created => pure created
  | none => throw (.other s!"Job {job.id} was not persisted.")

/-- `create_if_absent`: the caller whose `INSERT` loses reads the winner's row. -/
def createIfAbsent (job : JobRecord) : App (JobRecord × Bool) := do
  match ← (create job).attempt with
  | .ok created => pure (created, true)
  | .error .integrity => match ← get job.id with
    | some existing => pure (existing, false)
    | none => throw .integrity
  | .error e => throw e

/-- `list`: one row that does not decode fails the whole read. -/
def list : App (List JobRecord) := do
  let rows ← Prog.call .selectJobs
  Prog.ofExcept (rows.mapM fun row => row.2.toRecord row.1)

/-- The exception of a row that does not decode. -/
def decodeFailure? (row : JobId × JobRow) : Option (JobId × Exc) :=
  if (row.2.decode? row.1).isSome then none else some (row.1, .decode row.1)

/-- `list_tolerant`: the rows that decode, and the ids of the others. -/
def listTolerant : App (List JobRecord × List (JobId × Exc)) := do
  let rows ← Prog.call .selectJobs
  pure (rows.filterMap fun row => row.2.decode? row.1, rows.filterMap decodeFailure?)

/-- `list_terminal_pending_completion`, oldest first; a row that does not decode is
skipped. -/
def listTerminalPendingCompletion : App (List JobRecord) := do
  let rows ← Prog.call .selectJobs
  let due := rows.reverse.filter fun row =>
    row.2.completionState == .value .pending && terminalStatusTexts.contains row.2.status
  pure (due.filterMap fun row => row.2.decode? row.1)

/-- `_update`. -/
def updateCore (id : JobId) (status : Option StatusText) (progress : Option ℚ)
    (projectId : Option (Option String)) (result : Option (Option GenerationResult))
    (errorMessage : Option (Option String)) (expectedStatuses : Option (List StatusText)) :
    App (Option JobRecord) := do
  match status with
  | some (.unknown _) => pure none
  | some (.known target) =>
    run (.edit (some target) progress projectId result errorMessage expectedStatuses)
  | none =>
    if progress.isNone && projectId.isNone && result.isNone && errorMessage.isNone then get id
    else run (.edit none progress projectId result errorMessage expectedStatuses)
where
  /-- Execute the statement, and read the row again if it matched. -/
  run (update : JobUpdate) : App (Option JobRecord) := do
    if ← Prog.call (.updateJob id update) then get id else pure none

/-- `update`. -/
def update (id : JobId) (status : Option StatusText) (progress : Option ℚ)
    (projectId : Option (Option String)) (result : Option (Option GenerationResult))
    (errorMessage : Option (Option String)) : App (Option JobRecord) :=
  updateCore id status progress projectId result errorMessage none

/-- `update_if_status`. -/
def updateIfStatus (id : JobId) (expectedStatuses : List StatusText)
    (status : Option StatusText) (progress : Option ℚ := none)
    (projectId : Option (Option String) := none)
    (result : Option (Option GenerationResult) := none)
    (errorMessage : Option (Option String) := none) : App (Option JobRecord) :=
  if expectedStatuses.isEmpty then pure none
  else updateCore id status progress projectId result errorMessage (some expectedStatuses)

/-- `transition_if_status`: whether the compare-and-set won, with no read after it. -/
def transitionIfStatus (id : JobId) (expectedStatuses : List StatusText) (status : StatusText)
    (progress : Option ℚ := none) (errorMessage : Option (Option String) := none) : App Bool :=
  match status with
  | .unknown _ => pure false
  | .known target =>
    if expectedStatuses.isEmpty then pure false
    else Prog.call (.updateJob id
      (.edit (some target) progress none none errorMessage (some expectedStatuses)))

/-- `get_raw_status`. -/
def getRawStatus (id : JobId) : App (Option StatusText) := do
  let row ← Prog.call (.selectJob id)
  pure (row.map JobRow.status)

/-- `get_raw_error_message`: a value that is not text is reported by a fixed message. -/
def getRawErrorMessage (id : JobId) : App (Option String) := do
  let row ← Prog.call (.selectJob id)
  pure (row.bind fun row => match row.errorMessage with
    | .value message => message
    | .malformed => some
      "Job's error_message column contains non-text data and could not be recovered.")

/-- `quarantine_structurally_invalid_status`. -/
def quarantineStructurallyInvalidStatus (id : JobId) (errorMessage : String) : App Bool :=
  Prog.call (.updateJob id (.repairStatus errorMessage))

/-- `mark_completion_done`. -/
def markCompletionDone (id : JobId) : App Bool := Prog.call (.updateJob id .completionDone)

/-- `mark_completion_pending_with_error`. -/
def markCompletionPendingWithError (id : JobId) (errorMessage : String) : App Bool :=
  Prog.call (.updateJob id (.completionPending errorMessage))

/-- `update_status`. -/
def updateStatus (id : JobId) (status : StatusText) (progress : Option ℚ) :
    App (Option JobRecord) :=
  update id (some status) progress none none none

/-- `update_result`. -/
def updateResult (id : JobId) (result : GenerationResult) : App (Option JobRecord) :=
  update id none none none (some (some result)) none

/-- `update_project`. -/
def updateProject (id : JobId) (projectId : Option String) : App (Option JobRecord) :=
  update id none none (some projectId) none none

/-- `update_error`. -/
def updateError (id : JobId) (errorMessage : Option String) : App (Option JobRecord) :=
  update id none none none none (some errorMessage)

end JobRepository

end CreativeStudio.Storage
