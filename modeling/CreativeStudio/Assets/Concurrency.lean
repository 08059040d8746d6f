import CreativeStudio.Conc.Replace
import CreativeStudio.Projects.Repository

/-!
# Concurrent calls on one file

The repositories of projects and assets take no lock between reading a file and replacing
it. Job completion and the routes call them from different threads.
-/

namespace CreativeStudio.Assets
open Data Jobs Batches Conc Projects

/-- A call on one project file, with the time it takes. -/
inductive ProjectCall
  | addJob (now : ℕ) (job : JobId)
  | removeJob (now : ℕ) (job : JobId)
  | update (now : ℕ) (changes : ProjectChanges)
  deriving DecidableEq, Repr

/-- What a call writes over a project it has read. -/
def ProjectCall.change : ProjectCall → Project → Option Project
  | .addJob now job => addJobEdit now job
  | .removeJob now job => removeJobEdit now job
  | .update now changes => updateEdit now changes

/-- What a call writes over a file it has read. A file that is not there, or does not load,
is left alone. -/
def ProjectCall.edit (call : ProjectCall) (file : Option Project) : Option (Option Project) :=
  (file.bind call.change).map fun project => some project.saved

/-- A call on one asset file, with the time it takes. Of `sync_job` it is the turn of its
loop for one output. -/
inductive AssetCall
  | markReused (now : ℕ) (action : String) (derivedJobId : Option String)
  | recordExport (now : ℕ) (exportPath : String)
  | bindProject (now : ℕ) (projectId : Option String)
  | syncJob (now : ℕ) (job : JobRecord) (outputIndex : ℕ)
  deriving DecidableEq, Repr

/-- What a turn of the loop of `sync_job` writes over the file of an asset, if it is the file
of this output. -/
def syncTurn (lib : Library) (id : AssetId) (job : JobRecord) (outputIndex : ℕ) (file : Option Asset) :
    Option Asset := do
  let result ← job.result
  if job.status ≠ .succeeded then none
  let path ← (syncSource result).outputs[outputIndex]?
  if stableAssetId job.id path ≠ id then none
  (syncEdit lib job (syncSource result) outputIndex path file).toOption.join

/-- What a call writes over a file it has read, and when. A call that raises writes
nothing. -/
def AssetCall.change (lib : Library) (id : AssetId) (file : Option Asset) :
    AssetCall → Option (ℕ × Asset)
  | .markReused now action derivedJobId =>
    (file.bind fun asset => (markReusedEdit lib action derivedJobId asset).toOption.join).map (now, ·)
  | .recordExport now exportPath => (file.bind (recordExportEdit exportPath)).map (now, ·)
  | .bindProject now projectId => (file.bind (bindProjectEdit projectId)).map (now, ·)
  | .syncJob now job outputIndex => (syncTurn lib id job outputIndex file).map (now, ·)

/-- The file that a call leaves behind. -/
def AssetCall.edit (lib : Library) (id : AssetId) (call : AssetCall) (file : Option Asset) :
    Option (Option Asset) :=
  (call.change lib id file).map fun (now, asset) => some { asset with updatedAt := now }.saved

/-- When every call that replaces a project or an asset finds the file as it read it, the
calls that have returned are as good as served one after the other: nothing that one of
them wrote is lost. -/
theorem serial_of_freshRun (lib : Library) :
    (∀ (file : Option Project) (calls : List ProjectCall) (accesses : List Access) (desk : Desk (Option Project)),
      (Desk.opened file).FreshRun ProjectCall.edit calls accesses →
      (Desk.opened file).run ProjectCall.edit calls accesses = some desk →
      Desk.Serial ProjectCall.edit calls file desk) ∧
    ∀ (id : AssetId) (file : Option Asset) (calls : List AssetCall) (accesses : List Access)
        (desk : Desk (Option Asset)),
      (Desk.opened file).FreshRun (AssetCall.edit lib id) calls accesses →
      (Desk.opened file).run (AssetCall.edit lib id) calls accesses = some desk →
      Desk.Serial (AssetCall.edit lib id) calls file desk :=
  ⟨fun file _ _ _ hfresh hrun => (Desk.serial_opened file).run hfresh hrun,
    fun _ file _ _ _ hfresh hrun => (Desk.serial_opened file).run hfresh hrun⟩

/-! ### Two jobs added at the same time -/

/-- A project without jobs. -/
def emptyProject : Project where
  id := "project"
  name := "A film"
  createdAt := 0
  updatedAt := 0

/-- Two jobs that are added to the project. -/
def twoAdditions : List ProjectCall := [.addJob 1 7, .addJob 2 8]

/-- Both calls read the project before either replaces it. -/
def bothReadFirst : List Access := [.get 0, .get 1, .save 0, .save 1]

/-- The second addition starts when the first has been saved. -/
def oneAfterAnother : List Access := [.get 0, .save 0, .get 1, .save 1]

/-- The first job is missing from the project, though both calls have returned. -/
theorem not_serial_bothReadFirst : ∃ desk,
    (Desk.opened (some emptyProject)).run ProjectCall.edit twoAdditions bothReadFirst = some desk ∧
      desk.phases 0 = .returned ∧ desk.phases 1 = .returned ∧
      desk.file.map Project.jobIds = some [8] ∧
      ¬ Desk.Serial ProjectCall.edit twoAdditions (some emptyProject) desk := by
  refine ⟨_, rfl, rfl, rfl, rfl, ?_⟩
  rintro ⟨order, hnodup, hreturned, hfile⟩
  -- whatever the order, it serves both calls
  have hmem : ∀ i, i ∈ order ↔ i ∈ [0, 1] := by
    intro i
    rw [hreturned]
    rcases i with _ | _ | i <;> simp [Desk.opened, Desk.phases_move]
  have hlength := ((List.perm_ext_iff_of_nodup hnodup (by decide)).mpr hmem).length_eq
  obtain ⟨i, j, rfl⟩ := List.length_eq_two.mp hlength
  have hi := (hmem i).mp (by simp)
  have hj := (hmem j).mp (by simp)
  have hne : i ≠ j := by simpa using hnodup
  have hserial := congrArg (Option.map Project.jobIds) hfile
  simp only [List.mem_cons, List.not_mem_nil, or_false] at hi hj
  rcases hi with rfl | rfl <;> rcases hj with rfl | rfl
  · exact hne rfl
  · revert hserial
    decide
  · revert hserial
    decide
  · exact hne rfl

/-- The project when one addition is saved before the other reads. -/
theorem serial_of_freshRun_oneAfterAnother : ∃ desk,
    (Desk.opened (some emptyProject)).run ProjectCall.edit twoAdditions oneAfterAnother = some desk ∧
      desk.file.map Project.jobIds = some [7, 8] ∧
      Desk.Serial ProjectCall.edit twoAdditions (some emptyProject) desk := by
  refine ⟨_, rfl, rfl, (serial_of_freshRun Library.plain).1 _ _ oneAfterAnother _ ?_ rfl⟩
  refine ⟨trivial, fun next hnext => ?_⟩
  cases hnext
  refine ⟨fun seen hseen => ?_, fun next hnext => ?_⟩
  · cases hseen
    rfl
  cases hnext
  refine ⟨trivial, fun next hnext => ?_⟩
  cases hnext
  refine ⟨fun seen hseen => ?_, fun next hnext => ?_⟩
  · cases hseen
    rfl
  · trivial

end CreativeStudio.Assets
