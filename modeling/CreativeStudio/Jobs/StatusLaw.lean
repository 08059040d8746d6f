import CreativeStudio.Storage.Footprint

/-!
# The status law over whole runs

Any number of threads call the write methods of the job repository with arbitrary
arguments, and the process may crash at any time. Every change of a status that is
committed is an edge of the transition contract, whatever a caller read before.
-/

namespace CreativeStudio.Jobs
open Data Storage Conc

/-- The status column of a job's row. -/
def statusOf (w : World) (id : JobId) : Option StatusText := (w.row? id).map JobRow.status

/-- A call of a write method of the repository. -/
inductive RepositoryWrite : App Unit → Prop
  | create (job : JobRecord) :
      RepositoryWrite (discard (JobRepository.create job))
  | createIfAbsent (job : JobRecord) :
      RepositoryWrite (discard (JobRepository.createIfAbsent job))
  | update (id : JobId) (status : Option StatusText) (progress : Option ℚ)
      (projectId : Option (Option String)) (result : Option (Option GenerationResult))
      (errorMessage : Option (Option String)) :
      RepositoryWrite (discard
        (JobRepository.update id status progress projectId result errorMessage))
  | updateIfStatus (id : JobId) (expectedStatuses : List StatusText)
      (status : Option StatusText) (progress : Option ℚ) (projectId : Option (Option String))
      (result : Option (Option GenerationResult)) (errorMessage : Option (Option String)) :
      RepositoryWrite (discard (JobRepository.updateIfStatus id expectedStatuses status progress
        projectId result errorMessage))
  | transitionIfStatus (id : JobId) (expectedStatuses : List StatusText) (status : StatusText)
      (progress : Option ℚ) (errorMessage : Option (Option String)) :
      RepositoryWrite (discard
        (JobRepository.transitionIfStatus id expectedStatuses status progress errorMessage))
  | updateStatus (id : JobId) (status : StatusText) (progress : Option ℚ) :
      RepositoryWrite (discard (JobRepository.updateStatus id status progress))
  | updateResult (id : JobId) (result : GenerationResult) :
      RepositoryWrite (discard (JobRepository.updateResult id result))
  | updateProject (id : JobId) (projectId : Option String) :
      RepositoryWrite (discard (JobRepository.updateProject id projectId))
  | updateError (id : JobId) (errorMessage : Option String) :
      RepositoryWrite (discard (JobRepository.updateError id errorMessage))
  | markCompletionDone (id : JobId) :
      RepositoryWrite (discard (JobRepository.markCompletionDone id))
  | markCompletionPendingWithError (id : JobId) (errorMessage : String) :
      RepositoryWrite (discard (JobRepository.markCompletionPendingWithError id errorMessage))
  | quarantineStructurallyInvalidStatus (id : JobId) (errorMessage : String) :
      RepositoryWrite (discard
        (JobRepository.quarantineStructurallyInvalidStatus id errorMessage))

/-- Threads that write the jobs table through the repository. -/
def repositoryWriters (env : Env) : System Cmd World Exc where
  toMachine := studio env
  init _ := True
  calls _ _ p := RepositoryWrite p
  reset w w' := w' = w.crash

/-- What a run from `c` to `c'` does to the statuses of the rows that `c` has. -/
structure KeepsStatusLaw (S : System Cmd World Exc) (c c' : Config Cmd World Exc) : Prop where
  /-- A committed change from one valid status to another is an edge of the contract. -/
  edge : ∀ c'', S.Step c' c'' → ∀ id current target,
    statusOf c'.state id = some (.known current) → statusOf c''.state id = some (.known target) →
      target ≠ current → target ∈ current.allowedTransitions
  terminal : ∀ id (status : GenerationStatus), status.isTerminalStatus →
    statusOf c.state id = some (.known status) → statusOf c'.state id = some (.known status)
  cancelRequested : ∀ id, statusOf c.state id = some (.known .cancelRequested) →
    statusOf c'.state id ≠ some (.known .succeeded)
  /-- A row that has come to `succeeded` was in `postprocessing` right before. -/
  succeeded : ∀ id text, statusOf c.state id = some text → text ≠ .known .succeeded →
    statusOf c'.state id = some (.known .succeeded) →
      ∃ c₁ c₂, Relation.ReflTransGen S.Step c c₁ ∧ S.Step c₁ c₂ ∧
        Relation.ReflTransGen S.Step c₂ c' ∧
        statusOf c₁.state id = some (.known .postprocessing) ∧
        statusOf c₂.state id = some (.known .succeeded)

section Run
variable {env : Env} {c c' : Config Cmd World Exc} {id : JobId} {text : StatusText}

/-- A row keeps its status in a step, or changes it by one statement. -/
theorem statusChange_of_step (hs : (repositoryWriters env).Step c c')
    (h : statusOf c.state id = some text) :
    ∃ text', statusOf c'.state id = some text' ∧ StatusChange text text' := by
  cases hs with
  | op _ hstep =>
    obtain ⟨row, hrow, rfl⟩ := Option.map_eq_some_iff.mp h
    obtain ⟨row', hrow', hchange⟩ := row_of_step hstep hrow
    refine ⟨row'.status, by simp [statusOf, hrow'], ?_⟩
    rcases hchange with rfl | ⟨update, now, hrun, -⟩
    · exact .same _
    · exact update.statusChange hrun
  | call _ _ => exact ⟨text, h, .same _⟩
  | reset hreset =>
    subst hreset
    exact ⟨text, h, .same _⟩

theorem statusPath_of_run (hrun : Relation.ReflTransGen (repositoryWriters env).Step c c')
    (h : statusOf c.state id = some text) :
    ∃ text', statusOf c'.state id = some text' ∧ StatusPath text text' := by
  induction hrun with
  | refl => exact ⟨text, h, .refl⟩
  | tail _ hs ih =>
    obtain ⟨mid, hmid, hpath⟩ := ih
    obtain ⟨last, hlast, hchange⟩ := statusChange_of_step hs hmid
    exact ⟨last, hlast, hpath.tail hchange⟩

/-- A run into `succeeded` has a step into it from `postprocessing`. -/
theorem postprocessing_of_run (hrun : Relation.ReflTransGen (repositoryWriters env).Step c c')
    (h : statusOf c.state id = some text) (hne : text ≠ .known .succeeded)
    (h' : statusOf c'.state id = some (.known .succeeded)) :
    ∃ c₁ c₂, Relation.ReflTransGen (repositoryWriters env).Step c c₁ ∧
      (repositoryWriters env).Step c₁ c₂ ∧
      Relation.ReflTransGen (repositoryWriters env).Step c₂ c' ∧
      statusOf c₁.state id = some (.known .postprocessing) ∧
      statusOf c₂.state id = some (.known .succeeded) := by
  induction hrun with
  | refl =>
    rw [h] at h'
    exact absurd (Option.some.inj h') hne
  | @tail mid last hrun hs ih =>
    obtain ⟨before, hbefore, -⟩ := statusPath_of_run hrun h
    obtain ⟨after, hafter, hchange⟩ := statusChange_of_step hs hbefore
    obtain rfl : after = .known .succeeded := Option.some.inj (hafter.symm.trans h')
    by_cases hsucceeded : before = .known .succeeded
    · subst hsucceeded
      obtain ⟨c₁, c₂, hr₁, hs₁, hr₂, hstatus⟩ := ih hbefore
      exact ⟨c₁, c₂, hr₁, hs₁, hr₂.tail hs, hstatus⟩
    · obtain rfl := hchange.into_succeeded hsucceeded
      exact ⟨mid, last, hrun, hs, .refl, hbefore, hafter⟩

end Run

/-- However the write methods interleave, and whatever arguments they are called with,
the statuses keep to the contract. -/
theorem keepsStatusLaw (env : Env) {c c' : Config Cmd World Exc}
    (hrun : Relation.ReflTransGen (repositoryWriters env).Step c c') :
    KeepsStatusLaw (repositoryWriters env) c c' where
  edge c'' hs id current target hcurrent htarget hne := by
    obtain ⟨text, htext, hchange⟩ := statusChange_of_step hs hcurrent
    obtain rfl : text = .known target := Option.some.inj (htext.symm.trans htarget)
    exact hchange.known.resolve_left hne
  terminal id status hterminal h := by
    obtain ⟨text, htext, hpath⟩ := statusPath_of_run hrun h
    rwa [hpath.of_terminal hterminal] at htext
  cancelRequested id h hsucceeded := by
    obtain ⟨text, htext, hpath⟩ := statusPath_of_run hrun h
    obtain rfl : text = .known .succeeded := Option.some.inj (htext.symm.trans hsucceeded)
    simpa using hpath.of_cancelRequested
  succeeded id text h hne hsucceeded := postprocessing_of_run hrun h hne hsucceeded

/-- A job whose outputs are being collected. -/
def collectedJob : JobRecord where
  id := 7
  projectId := none
  mediaType := .image
  status := .postprocessing
  request := {
    mediaType := .image, taskType := none, prompt := "", negativePrompt := none, modelId := ""
    seed := none, outputFormat := none, params := [], references := [] }
  createdAt := 0
  updatedAt := 0

/-- One thread inserts the job, and then two threads race to end it. -/
def raceToTheEnd : Config Cmd World Exc where
  state := { jobs := ∅, files := ∅ }
  threads
    | 0 => do
      let _ ← JobRepository.create collectedJob
      let _ ← JobRepository.updateIfStatus 7 [.known .postprocessing] (some (.known .succeeded))
      pure ()
    | 1 => discard (JobRepository.updateStatus 7 (.known .cancelRequested) none)
    | _ => .ret ()

/-- The compare-and-set to `succeeded` loses to the request to stop. -/
theorem keepsStatusLaw_raceToTheEnd :
    ∃ c', (repositoryWriters .plain).runSchedule [(0, 0), (0, 0), (1, 0), (0, 0)] raceToTheEnd =
        some c' ∧ KeepsStatusLaw (repositoryWriters .plain) raceToTheEnd c' ∧
      statusOf c'.state 7 = some (.known .cancelRequested) := by
  obtain ⟨c', hrun, hstatus⟩ : ∃ c',
      (repositoryWriters .plain).runSchedule [(0, 0), (0, 0), (1, 0), (0, 0)] raceToTheEnd =
        some c' ∧ statusOf c'.state 7 = some (.known .cancelRequested) := ⟨_, rfl, by decide⟩
  exact ⟨c', hrun, keepsStatusLaw .plain (System.run_of_runSchedule hrun), hstatus⟩

end CreativeStudio.Jobs
