import CreativeStudio.Assets.Repository

/-!
# The project repository

One JSON file for each project. As with assets, every operation reads the file, changes what
it has read, and replaces the file, and the change is a function of its own.
-/

namespace CreativeStudio.Projects
open Data Assets

/-- The name of a project file. -/
abbrev ProjectId := String

/-- `Project`. -/
structure Project where
  id : ProjectId
  name : String
  description : String := ""
  status : String := "active"
  tags : List String := []
  metadata : Obj := []
  pinnedAssetIds : List AssetId := []
  createdAt : ℕ
  updatedAt : ℕ
  jobIds : List JobId := []
  deriving DecidableEq, Repr

/-- The project that reading a file back returns after it was written with sorted keys. -/
def Project.saved (project : Project) : Project := { project with metadata := project.metadata.canon }

/-- The fields that `update` is given. -/
structure ProjectChanges where
  name : Option String := none
  description : Option String := none
  status : Option String := none
  tags : Option (List String) := none
  metadata : Option Obj := none
  pinnedAssetIds : Option (List AssetId) := none
  deriving DecidableEq, Repr

/-- `update`: `none` when nothing has changed. -/
def updateEdit (now : ℕ) (changes : ProjectChanges) (project : Project) : Option Project :=
  let edited := { project with
    name := changes.name.getD project.name
    description := changes.description.getD project.description
    status := changes.status.getD project.status
    tags := changes.tags.getD project.tags
    metadata := match changes.metadata with
      | some metadata => if metadata.canon = project.metadata.canon then project.metadata else metadata
      | none => project.metadata
    pinnedAssetIds := changes.pinnedAssetIds.getD project.pinnedAssetIds }
  if edited = project then none else some { edited with updatedAt := now }

/-- `add_job`. -/
def addJobEdit (now : ℕ) (job : JobId) (project : Project) : Option Project :=
  if job ∈ project.jobIds then none
  else some { project with jobIds := project.jobIds ++ [job], updatedAt := now }

/-- `remove_job`. -/
def removeJobEdit (now : ℕ) (job : JobId) (project : Project) : Option Project :=
  if job ∈ project.jobIds then some { project with jobIds := project.jobIds.erase job, updatedAt := now }
  else none

end CreativeStudio.Projects
