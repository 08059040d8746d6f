import Mathlib.Data.List.Basic

/-!
# Job statuses and the transition contract

The eight statuses of a job, which of them are terminal, and the table of statuses
each may move to next. Identity is left out of the table and added by
`isValidTransition`, so that repeated cancel requests are no-ops. The persisted
`status` column is plain text: `StatusText` also has the texts outside the contract.
-/

namespace CreativeStudio.Jobs

inductive GenerationStatus
  | queued | preparing | running | postprocessing | cancelRequested
  | succeeded | failed | cancelled
  deriving DecidableEq, Repr

namespace GenerationStatus

/-- `JOB_STATUSES`. -/
def jobStatuses : List GenerationStatus :=
  [queued, preparing, running, postprocessing, cancelRequested, succeeded, failed, cancelled]

/-- `TERMINAL_JOB_STATUSES`. -/
def terminalJobStatuses : List GenerationStatus := [succeeded, failed, cancelled]

/-- `ACTIVE_JOB_STATUSES`. -/
def activeJobStatuses : List GenerationStatus :=
  [queued, preparing, running, postprocessing, cancelRequested]

/-- `ALLOWED_TRANSITIONS`: the statuses each status may move to next. -/
def allowedTransitions : GenerationStatus → List GenerationStatus
  | queued => [preparing, cancelled, failed]
  | preparing => [running, cancelRequested, failed]
  | running => [postprocessing, cancelRequested, failed]
  | postprocessing => [succeeded, cancelRequested, failed]
  | cancelRequested => [cancelled, failed]
  | succeeded => []
  | failed => []
  | cancelled => []

def isTerminalStatus (status : GenerationStatus) : Bool := terminalJobStatuses.contains status

def isValidTransition (current target : GenerationStatus) : Bool :=
  target == current || (allowedTransitions current).contains target

theorem mem_jobStatuses (s : GenerationStatus) : s ∈ jobStatuses := by cases s <;> decide

/-- A terminal status has no outgoing edge. -/
theorem allowedTransitions_of_terminal {s : GenerationStatus} (h : s.isTerminalStatus) :
    allowedTransitions s = [] := by
  cases s <;> first | rfl | cases h

/-- No edge leads back to `queued`. -/
theorem queued_notMem_allowedTransitions (s : GenerationStatus) :
    queued ∉ allowedTransitions s := by
  cases s <;> decide

/-- The only edge into `succeeded` starts at `postprocessing`. -/
theorem succeeded_mem_allowedTransitions {s : GenerationStatus} :
    succeeded ∈ allowedTransitions s ↔ s = postprocessing := by
  cases s <;> decide

theorem isValidTransition_iff {current target : GenerationStatus} :
    isValidTransition current target ↔ target = current ∨ target ∈ allowedTransitions current := by
  simp [isValidTransition]

end GenerationStatus

/-- What a `status` column holds: a status, or a text the contract does not know. -/
inductive StatusText
  | known (status : GenerationStatus)
  | unknown (text : String)
  deriving DecidableEq, Repr

end CreativeStudio.Jobs
