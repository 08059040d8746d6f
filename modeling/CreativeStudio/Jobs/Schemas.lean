import CreativeStudio.Jobs.Statuses
import CreativeStudio.Schemas.Generation

/-!
# Persisted job records

What the job repository hands out when a row can be reconstructed.
-/

namespace CreativeStudio.Jobs

/-- Whether a terminal job's side effects have been durably applied. -/
inductive CompletionState
  | pending | done
  deriving DecidableEq, Repr

/-- Persisted job state tracked by the execution pipeline. -/
structure JobRecord where
  id : JobId
  projectId : Option String
  mediaType : MediaType
  status : GenerationStatus
  request : GenerationRequest
  result : Option GenerationResult := none
  progress : ℚ := 0
  errorMessage : Option String := none
  completionState : CompletionState := .pending
  completionError : Option String := none
  createdAt : ℕ
  updatedAt : ℕ
  deriving DecidableEq, Repr

end CreativeStudio.Jobs
