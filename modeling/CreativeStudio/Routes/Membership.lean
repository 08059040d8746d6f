import CreativeStudio.Projects.Placement
import CreativeStudio.Routes.Projects

/-!
# Membership over every request

What each route does to the placement of jobs, and that the three places agree after every
request that does not take a job out of its project before it knows the next one.
-/

namespace CreativeStudio.Routes
open Data Jobs Assets Projects Story
open Batches (Library)

namespace Studio
variable {lib : Library} {s : Studio}

/-- The document of a project lists a job. -/
def Lists (s : Studio) (id : ProjectId) (job : JobId) : Prop :=
  ∃ project, s.project? id = some project ∧ job ∈ project.jobIds

/-- What the documents, the rows and the assets say. -/
def placement (s : Studio) : Placement ProjectId JobId AssetId where
  lists := s.Lists
  row id := (s.job? id).map JobRecord.projectId
  asset id := (s.asset? id).map fun asset => (asset.jobId, asset.projectId)

/-- Every file is kept under its own id, every asset has its job, and nothing stands in the
way of reading it. -/
structure Sound (lib : Library) (s : Studio) : Prop where
  project : ∀ {id project}, s.project? id = some project →
    project.id = id ∧ id ≠ "" ∧ project.jobIds.Nodup
  row : ∀ {id entry}, s.stage.shelves.jobs.lookup id = some entry →
    ∃ job : JobRecord, entry = .record job ∧ job.id = id
  asset : ∀ {id asset}, s.asset? id = some asset →
    asset.id = id ∧ s.HasRow asset.jobId ∧ Readable lib (fileReuse asset.metadata)

theorem job?_eq_some_iff {id : JobId} {job : JobRecord} :
    s.job? id = some job ↔ s.stage.shelves.jobs.lookup id = some (.record job) := job?_eq_some

theorem Sound.job? (h : Sound lib s) {id : JobId} (hrow : s.HasRow id) :
    ∃ job, s.job? id = some job ∧ job.id = id := by
  obtain ⟨entry, hentry⟩ := Option.isSome_iff_exists.mp hrow
  obtain ⟨job, rfl, hid⟩ := h.row hentry
  exact ⟨job, job?_eq_some_iff.mpr hentry, hid⟩

theorem hasRow_of_job? {id : JobId} {job : JobRecord} (h : s.job? id = some job) : s.HasRow id := by
  rw [HasRow, job?_eq_some_iff.mp h]
  rfl

theorem job?_eq_none {id : JobId} (h : ¬ s.HasRow id) : s.job? id = none := by
  cases hjob : s.job? id with
  | none => rfl
  | some job => exact absurd (hasRow_of_job? hjob) h

/-! ## Projects -/

section Projects
variable {id : ProjectId} {edit : Project → Option Project}

@[simp] theorem stage_editProject : (s.editProject id edit).stage = s.stage := by
  unfold editProject
  split <;> rfl

theorem project?_editProject (h : Sound lib s) (hid : ∀ project edited, edit project = some edited → edited.id = project.id)
    (other : ProjectId) : (s.editProject id edit).project? other =
      if other = id then (s.project? id).map fun project => ((edit project).map Project.saved).getD project
      else s.project? other := by
  by_cases hother : other = id
  · rw [if_pos hother, hother]
    unfold editProject
    cases hproject : s.project? id with
    | none => simpa using hproject
    | some project =>
      cases hedit : edit project with
      | none => simpa [hedit] using hproject
      | some edited =>
        have hkey : edited.id = id := (hid project edited hedit).trans (h.project hproject).1
        simp only [Option.bind_some, hedit, saveProject, Studio.project?, hkey, Option.map_some, Option.getD_some]
        exact AList.lookup_insert s.projects
  · rw [if_neg hother]
    unfold editProject
    split
    next edited hedited =>
      obtain ⟨project, hproject, hedit⟩ := Option.bind_eq_some_iff.mp hedited
      have hkey : edited.id = id := (hid project edited hedit).trans (h.project hproject).1
      simp only [saveProject, Studio.project?, hkey]
      exact AList.lookup_insert_ne hother
    · rfl

/-- A change of the jobs of one project. -/
theorem Sound.editProject (h : Sound lib s) (hedit : ∀ project edited, edit project = some edited →
    edited.id = project.id ∧ (project.jobIds.Nodup → edited.jobIds.Nodup)) : Sound lib (s.editProject id edit) where
  project {other project} hproject := by
    rw [project?_editProject h fun project edited hsome => (hedit project edited hsome).1] at hproject
    split at hproject
    next hother =>
      rw [Option.map_eq_some_iff] at hproject
      obtain ⟨old, hold, rfl⟩ := hproject
      obtain ⟨hkey, hne, hnodup⟩ := h.project hold
      cases hsome : edit old with
      | none => exact ⟨hkey.trans hother.symm, hother ▸ hne, hnodup⟩
      | some edited =>
        obtain ⟨hid, hkeeps⟩ := hedit old edited hsome
        exact ⟨(hid.trans hkey).trans hother.symm, hother ▸ hne, hkeeps hnodup⟩
    · exact h.project hproject
  row {other entry} hentry := h.row (by simpa using hentry)
  asset {other asset} hasset := by
    have hstage : (s.editProject id edit).stage = s.stage := stage_editProject
    simp only [asset?, HasRow, hstage] at hasset ⊢
    exact h.asset hasset

theorem addJobEdit_spec {now : ℕ} {job : JobId} (project edited : Project)
    (h : addJobEdit now job project = some edited) :
    edited.id = project.id ∧ (project.jobIds.Nodup → edited.jobIds.Nodup) := by
  unfold addJobEdit at h
  split at h
  · cases h
  next hmem =>
    cases h
    exact ⟨rfl, fun hnodup => List.concat_eq_append ▸ hnodup.concat hmem⟩

theorem removeJobEdit_spec {now : ℕ} {job : JobId} (project edited : Project)
    (h : removeJobEdit now job project = some edited) :
    edited.id = project.id ∧ (project.jobIds.Nodup → edited.jobIds.Nodup) := by
  unfold removeJobEdit at h
  split at h
  · cases h
    exact ⟨rfl, fun hnodup => hnodup.erase job⟩
  · cases h

theorem updateEdit_spec {now : ℕ} {changes : ProjectChanges} (project edited : Project)
    (h : updateEdit now changes project = some edited) :
    edited.id = project.id ∧ edited.jobIds = project.jobIds := by
  simp only [updateEdit, Option.ite_none_left_eq_some, Option.some_inj] at h
  obtain ⟨-, rfl⟩ := h
  exact ⟨rfl, rfl⟩

/-- The placement after a change of the jobs of one project. -/
theorem lists_editProject (h : Sound lib s)
    (hid : ∀ project edited, edit project = some edited → edited.id = project.id) (other : ProjectId) (job : JobId) :
    (s.editProject id edit).Lists other job ↔
      if other = id then ∃ project, s.project? id = some project ∧ job ∈ ((edit project).getD project).jobIds
      else s.Lists other job := by
  simp only [Lists, project?_editProject h hid]
  split
  · simp only [Option.map_eq_some_iff]
    constructor
    · rintro ⟨_, ⟨project, hproject, rfl⟩, hmem⟩
      refine ⟨project, hproject, ?_⟩
      cases hsome : edit project <;> simpa [hsome, Project.saved] using hmem
    · rintro ⟨project, hproject, hmem⟩
      refine ⟨_, ⟨project, hproject, rfl⟩, ?_⟩
      cases hsome : edit project <;> simpa [hsome, Project.saved] using hmem
  · rfl

theorem Sound.addJob (h : Sound lib s) (id : ProjectId) (job : JobId) : Sound lib (s.addJob id job) :=
  h.editProject addJobEdit_spec

theorem Sound.removeJob (h : Sound lib s) (id : ProjectId) (job : JobId) : Sound lib (s.removeJob id job) :=
  h.editProject removeJobEdit_spec

theorem placement_editProject {lists : ProjectId → JobId → Prop}
    (h : ∀ other job, (s.editProject id edit).Lists other job ↔ lists other job) :
    (s.editProject id edit).placement = { s.placement with lists } := by
  refine Placement.ext ?_ ?_ ?_
  · funext other job
    exact propext (h other job)
  · simp only [placement, Studio.job?, stage_editProject]
  · simp only [placement, asset?, stage_editProject]

theorem placement_addJob (h : Sound lib s) {id : ProjectId} (hproject : (s.project? id).isSome) (job : JobId) :
    (s.addJob id job).placement = s.placement.enlist id job := by
  obtain ⟨project, hproject⟩ := Option.isSome_iff_exists.mp hproject
  refine placement_editProject fun other k => ?_
  rw [lists_editProject h fun _ _ hsome => (addJobEdit_spec _ _ hsome).1]
  simp only [placement, hproject, Option.some_inj, exists_eq_left']
  by_cases hother : other = id
  · subst hother
    simp only [if_true, Lists, hproject, Option.some_inj, exists_eq_left', true_and]
    unfold addJobEdit
    split
    next hmem =>
      simp only [Option.getD_none]
      exact ⟨.inl, fun h => h.elim id (· ▸ hmem)⟩
    · simp
  · simp [hother]

theorem placement_removeJob (h : Sound lib s) (id : ProjectId) (job : JobId) :
    (s.removeJob id job).placement = s.placement.strike id job := by
  refine placement_editProject fun other k => ?_
  rw [lists_editProject h fun _ _ hsome => (removeJobEdit_spec _ _ hsome).1]
  simp only [placement, Lists]
  by_cases hother : other = id
  · subst hother
    simp only [if_true, true_and]
    cases hproject : s.project? other with
    | none => simp
    | some project =>
      simp only [Option.some_inj, exists_eq_left']
      unfold removeJobEdit
      split
      next hmem =>
        simp only [Option.getD_some]
        rw [(h.project hproject).2.2.mem_erase_iff, and_comm]
      next hmem =>
        simp only [Option.getD_none]
        exact ⟨fun hk => ⟨hk, fun heq => hmem (heq ▸ hk)⟩, And.left⟩
  · simp [hother]

theorem placement_updateEdit (h : Sound lib s) (id : ProjectId) (now : ℕ) (changes : ProjectChanges) :
    (s.editProject id (updateEdit now changes)).placement = s.placement := by
  refine placement_editProject fun other k => ?_
  rw [lists_editProject h fun _ _ hsome => (updateEdit_spec _ _ hsome).1]
  simp only [Lists]
  split
  next hother =>
    rw [hother]
    refine exists_congr fun project => and_congr_right fun _ => ?_
    cases hsome : updateEdit now changes project with
    | none => rfl
    | some edited => rw [Option.getD_some, (updateEdit_spec _ _ hsome).2]
  · rfl

theorem Sound.deleteProject (h : Sound lib s) (id : ProjectId) : Sound lib (s.deleteProject id) where
  project {other project} hproject := by
    simp only [Studio.deleteProject, Studio.project?] at hproject
    by_cases hother : other = id
    · rw [hother, AList.lookup_erase] at hproject
      cases hproject
    · rw [AList.lookup_erase_ne hother] at hproject
      exact h.project hproject
  row := h.row
  asset := h.asset

theorem placement_deleteProject (s : Studio) (id : ProjectId) :
    (s.deleteProject id).placement = s.placement.close id := by
  refine Placement.ext ?_ rfl rfl
  funext other job
  simp only [placement, Lists, Placement.close, eq_iff_iff, Studio.deleteProject, Studio.project?]
  by_cases hother : other = id
  · subst hother
    simp [AList.lookup_erase]
  · simp [hother, AList.lookup_erase_ne hother]

end Projects

/-! ## Rows -/

section Rows
variable {id : JobId} {job : JobRecord}

theorem job?_setRow (other : JobId) :
    (s.setRow id job).job? other = if other = id then some job else s.job? other := by
  by_cases hother : other = id
  · rw [if_pos hother, hother, job?_eq_some_iff]
    exact AList.lookup_insert _
  · rw [if_neg hother]
    simp only [Studio.job?, Shelves.job?, setRow, Shelves.setRow, AList.lookup_insert_ne hother]

theorem hasRow_setRow (other : JobId) : (s.setRow id job).HasRow other ↔ other = id ∨ s.HasRow other := by
  by_cases hother : other = id
  · subst hother
    simp [HasRow, setRow, Shelves.setRow]
  · simp [hother, HasRow, setRow, Shelves.setRow, AList.lookup_insert_ne hother]

theorem Sound.setRow (h : Sound lib s) (hid : job.id = id) : Sound lib (s.setRow id job) where
  project := h.project
  row {other entry} hentry := by
    by_cases hother : other = id
    · subst hother
      simp only [Studio.setRow, Shelves.setRow, AList.lookup_insert, Option.some_inj] at hentry
      exact ⟨job, hentry.symm, hid⟩
    · simp only [Studio.setRow, Shelves.setRow, AList.lookup_insert_ne hother] at hentry
      exact h.row hentry
  asset hasset := by
    obtain ⟨hkey, hrow, hreuse⟩ := h.asset hasset
    exact ⟨hkey, (hasRow_setRow _).mpr (.inr hrow), hreuse⟩

theorem Sound.updateProject (h : Sound lib s) (id : JobId) (project : Option ProjectId) :
    Sound lib (s.updateProject id project) := by
  unfold Studio.updateProject
  split
  next job hjob =>
    obtain ⟨job', hjob', hid⟩ := h.job? (hasRow_of_job? hjob)
    obtain rfl : job = job' := Option.some.inj (hjob.symm.trans hjob')
    exact h.setRow hid
  · exact h

theorem placement_assign (s : Studio) (id : JobId) (project : Option ProjectId) :
    (s.updateProject id project).placement = s.placement.assign id project := by
  unfold Studio.updateProject
  refine Placement.ext ?_ ?_ ?_
  · split <;> rfl
  · funext other
    simp only [placement, Placement.assign]
    split
    next job hjob =>
      rw [job?_setRow]
      split
      next hother => simp [hother, hjob]
      · rfl
    next hjob =>
      split
      next hother => simp [hother, hjob]
      · rfl
  · split <;> rfl

theorem placement_setRow (s : Studio) (id : JobId) (job : JobRecord) :
    (s.setRow id job).placement = s.placement.enter id job.projectId := by
  refine Placement.ext rfl ?_ rfl
  funext other
  simp only [placement, Placement.enter, job?_setRow]
  split <;> rfl

/-- A row that keeps its project can be replaced. -/
theorem placement_setRow_of_same {current : JobRecord} (hcurrent : s.job? id = some current)
    (hproject : job.projectId = current.projectId) : (s.setRow id job).placement = s.placement := by
  rw [placement_setRow]
  refine Placement.ext rfl ?_ rfl
  funext other
  simp only [Placement.enter, placement]
  split
  next hother => rw [hother, hcurrent, Option.map_some, hproject]
  · rfl

end Rows

/-! ## Assets -/

section Assets
variable {asset : Asset}

theorem asset?_saveAsset (other : AssetId) : (s.saveAsset asset).asset? other =
    if other = asset.id then some { asset with updatedAt := s.now }.saved else s.asset? other := by
  have hkey : ({ asset with updatedAt := s.now }.saved).id = asset.id := rfl
  simp only [asset?, saveAsset, hkey]
  split
  next hother => rw [hother]; exact AList.lookup_insert _
  next hother => exact AList.lookup_insert_ne hother

theorem Sound.saveAsset (h : Sound lib s) (hrow : s.HasRow asset.jobId)
    (hreuse : Readable lib (fileReuse asset.metadata)) : Sound lib (s.saveAsset asset) where
  project := h.project
  row := h.row
  asset {id file} hfile := by
    rw [asset?_saveAsset] at hfile
    split at hfile
    next hid =>
      cases hfile
      exact ⟨hid.symm, hrow, readable_fileReuse_canon.mpr hreuse⟩
    · exact h.asset hfile

theorem placement_saveAsset (s : Studio) (asset : Asset) : (s.saveAsset asset).placement =
    { s.placement with
      asset := fun id => if id = asset.id then some (asset.jobId, asset.projectId) else s.placement.asset id } := by
  refine Placement.ext rfl rfl ?_
  funext id
  simp only [placement, asset?_saveAsset]
  split <;> rfl

theorem mem_listAssets (h : Sound lib s) {asset : Asset} :
    asset ∈ s.stage.shelves.listAssets ↔ s.asset? asset.id = some asset := by
  rw [Shelves.listAssets, List.mem_insertionSort, List.mem_map]
  constructor
  · rintro ⟨⟨id, file⟩, hmem, rfl⟩
    have hfile : s.asset? id = some file := AList.mem_lookup_iff.mpr hmem
    rw [(h.asset hfile).1]
    exact hfile
  · intro hfile
    exact ⟨⟨asset.id, asset⟩, AList.mem_lookup_iff.mp hfile, rfl⟩

theorem Sound.rebindAsset (h : Sound lib s) (project : Option ProjectId) (hrow : s.HasRow asset.jobId)
    (hreuse : Readable lib (fileReuse asset.metadata)) : Sound lib (rebindAsset project s asset) := by
  unfold Studio.rebindAsset bindProjectEdit
  split
  next edited hedited =>
    split at hedited
    · cases hedited
    · cases hedited
      exact h.saveAsset hrow hreuse
  · exact h

/-- Whatever an asset says its project is, it says the new one now. -/
theorem placement_rebindAsset {project : Option ProjectId}
    (hasset : s.placement.asset asset.id = some (asset.jobId, asset.projectId) ∨
      s.placement.asset asset.id = some (asset.jobId, project)) :
    (rebindAsset project s asset).placement = { s.placement with
      asset := fun id => if id = asset.id then some (asset.jobId, project) else s.placement.asset id } := by
  unfold rebindAsset bindProjectEdit
  by_cases hsame : asset.projectId = project
  · rw [if_pos hsame]
    refine Placement.ext rfl rfl ?_
    funext id
    dsimp only
    split
    next hid =>
      rw [hid]
      rcases hasset with hasset | hasset
      · rw [hasset, hsame]
      · exact hasset
    · rfl
  · rw [if_neg hsame]
    exact placement_saveAsset s _

theorem stage_rebindAsset_jobs (project : Option ProjectId) (s : Studio) (asset : Asset) :
    (rebindAsset project s asset).stage.shelves.jobs = s.stage.shelves.jobs := by
  unfold rebindAsset
  split <;> rfl

/-- The loop of `bind_job_assets`. -/
theorem foldl_rebindAsset (project : Option ProjectId) (job : JobId) (assets : List Asset) (h : Sound lib s)
    (hassets : ∀ asset ∈ assets, asset.jobId = job ∧ s.HasRow job ∧ Readable lib (fileReuse asset.metadata) ∧
      (s.placement.asset asset.id = some (job, asset.projectId) ∨
        s.placement.asset asset.id = some (job, project))) :
    Sound lib (assets.foldl (rebindAsset project) s) ∧
      (assets.foldl (rebindAsset project) s).placement = { s.placement with
        asset := fun id => if id ∈ assets.map Asset.id then some (job, project) else s.placement.asset id } := by
  induction assets generalizing s with
  | nil => exact ⟨h, by simp⟩
  | cons asset rest ih =>
    rw [List.forall_mem_cons] at hassets
    obtain ⟨⟨rfl, hrow, hreuse, hasset⟩, hrest⟩ := hassets
    have hplaced := placement_rebindAsset hasset
    obtain ⟨hsound, hplacement⟩ := ih (h.rebindAsset project hrow hreuse) fun other hother => by
      obtain ⟨hjob, hrow', hreuse', hother'⟩ := hrest other hother
      refine ⟨hjob, ?_, hreuse', ?_⟩
      · rw [HasRow, stage_rebindAsset_jobs]
        exact hrow'
      · rw [hplaced]
        dsimp only
        split
        · exact .inr rfl
        · exact hother'
    refine ⟨hsound, ?_⟩
    rw [List.foldl_cons, hplacement, hplaced]
    refine Placement.ext rfl rfl ?_
    funext id
    simp only [List.map_cons, List.mem_cons]
    by_cases hid : id = asset.id <;> simp [hid]

/-- `bind_job_assets` makes all assets of a job say the same. -/
theorem bindJobAssets_spec (h : Sound lib s) (job : JobId) (project : Option ProjectId) :
    Sound lib (s.bindJobAssets job project) ∧
      (s.bindJobAssets job project).placement = s.placement.rebind job project := by
  have hmem : ∀ asset, asset ∈ s.stage.shelves.listAssets.filter (fun asset => asset.jobId = job) ↔
      s.asset? asset.id = some asset ∧ asset.jobId = job := by
    intro asset
    rw [List.mem_filter, mem_listAssets h, decide_eq_true_iff]
  obtain ⟨hsound, hplacement⟩ := foldl_rebindAsset project job
    (s.stage.shelves.listAssets.filter fun asset => asset.jobId = job) h fun asset hasset => by
      obtain ⟨hfile, hjob⟩ := (hmem asset).mp hasset
      obtain ⟨-, hrow, hreuse⟩ := h.asset hfile
      exact ⟨hjob, hjob ▸ hrow, hreuse, .inl (by simp [placement, hfile, hjob])⟩
  refine ⟨hsound, ?_⟩
  rw [bindJobAssets, hplacement]
  refine Placement.ext rfl rfl ?_
  funext id
  have hids : id ∈ (s.stage.shelves.listAssets.filter fun asset => asset.jobId = job).map Asset.id ↔
      ∃ asset, s.asset? id = some asset ∧ asset.jobId = job := by
    rw [List.mem_map]
    constructor
    · rintro ⟨asset, hasset, rfl⟩
      exact ⟨asset, (hmem asset).mp hasset⟩
    · rintro ⟨asset, hfile, hjob⟩
      have hid := (h.asset hfile).1
      exact ⟨asset, (hmem asset).mpr ⟨hid ▸ hfile, hjob⟩, hid⟩
  simp only [Placement.rebind, placement]
  cases hfile : s.asset? id with
  | none => rw [if_neg (by simp [hids, hfile]), Option.map_none, Option.map_none]
  | some asset =>
    by_cases hjob : asset.jobId = job
    · rw [if_pos (hids.mpr ⟨asset, hfile, hjob⟩)]
      simp [hjob]
    · rw [if_neg (by simp [hids, hfile, hjob])]
      simp [hjob]

/-- Binding an asset to the project that it names already does nothing. -/
theorem bindProject_of_same {id : AssetId} {project : Option ProjectId}
    (h : ∀ entry ∈ s.placement.asset id, entry.2 = project) : s.bindProject id project = s := by
  unfold bindProject
  cases hasset : s.asset? id with
  | none => rfl
  | some asset =>
    have hsame : asset.projectId = project := h (asset.jobId, asset.projectId) (by simp [placement, hasset])
    simp [rebindAsset, bindProjectEdit, hsame]

/-- A reuse count goes up, and nothing moves. -/
theorem markReused_spec (h : Sound lib s) (id : AssetId) (action : String) (derivedJobId : JobId) :
    ∃ s', s.markReused lib id action derivedJobId = (.ok (), s') ∧ Sound lib s' ∧ s'.placement = s.placement := by
  unfold markReused
  cases hasset : s.asset? id with
  | none => exact ⟨s, rfl, h, rfl⟩
  | some asset =>
    obtain ⟨hid, hrow, n, hn⟩ := h.asset hasset
    simp only [fileReuse] at hn
    simp only [markReusedEdit, Bind.bind, Except.bind, hn, pure, Except.pure]
    refine ⟨_, rfl, h.saveAsset hrow ⟨n + 1, ?_⟩, ?_⟩
    · simp [fileReuse, Dict.get?_set, toInt]
    · rw [placement_saveAsset]
      refine Placement.ext rfl rfl ?_
      funext other
      dsimp only
      split
      next hother => simp [placement, hother, hid, hasset]
      · rfl

end Assets

/-! ## Moving a job -/

/-- Sound stores whose three places agree. -/
structure Kept (lib : Library) (s : Studio) : Prop where
  sound : Sound lib s
  consistent : s.placement.Consistent

section Move
variable {job : JobId} {record : JobRecord}

theorem row_placement (h : s.job? job = some record) : s.placement.row job = some record.projectId := by
  simp [placement, h]

/-- The project that a row names has a document. -/
theorem Kept.project? (h : Kept lib s) (hjob : s.job? job = some record) {p : ProjectId}
    (hproject : record.projectId = some p) : ∃ project, s.project? p = some project ∧ job ∈ project.jobIds :=
  (h.consistent.listed (row_placement hjob) p).mp hproject

theorem Kept.ne_empty (h : Kept lib s) (hjob : s.job? job = some record) :
    record.projectId ≠ some "" := by
  intro hproject
  obtain ⟨project, hlookup, -⟩ := h.project? hjob hproject
  exact (h.sound.project hlookup).2.1 rfl

theorem isSome_project?_removeJob (h : Sound lib s) (id other : ProjectId) (job : JobId) :
    ((s.removeJob id job).project? other).isSome = (s.project? other).isSome := by
  rw [removeJob, project?_editProject h fun _ _ hsome => (removeJobEdit_spec _ _ hsome).1]
  split
  next hother => rw [hother, Option.isSome_map]
  · rfl

/-- What leaving comes to. -/
theorem leave_spec (h : Kept lib s) (hjob : s.job? job = some record) (next : Option ProjectId) :
    Sound lib (s.leave job record.projectId next) ∧
      (∀ p, ((s.leave job record.projectId next).project? p).isSome = (s.project? p).isSome) ∧
      (s.leave job record.projectId next = s ∧ (record.projectId = none ∨ record.projectId = next) ∨
        ∃ q, record.projectId = some q ∧
          (s.leave job record.projectId next).placement = s.placement.strike q job) := by
  have hne := h.ne_empty hjob
  cases hcurrent : record.projectId with
  | none => exact ⟨h.sound, fun _ => rfl, .inl ⟨rfl, .inl rfl⟩⟩
  | some current =>
    by_cases hnext : some current = next
    · have hstays : s.leave job (some current) next = s := by simp [leave, hnext]
      rw [hstays]
      exact ⟨h.sound, fun _ => rfl, .inl ⟨rfl, .inr hnext⟩⟩
    · have hleaves : s.leave job (some current) next = s.removeJob current job := by
        refine if_pos ⟨?_, hnext⟩
        rintro rfl
        exact hne hcurrent
      rw [hleaves]
      exact ⟨h.sound.removeJob current job, fun p => isSome_project?_removeJob h.sound current p job,
        .inr ⟨current, rfl, placement_removeJob h.sound current job⟩⟩

/-- Joining a project after leaving the current one moves the job. -/
theorem Kept.join (h : Kept lib s) (hjob : s.job? job = some record) {left : Studio} (hleft : Sound lib left)
    {id : ProjectId} (hproject : (left.project? id).isSome)
    (hstruck : left.placement = s.placement ∧ (record.projectId = none ∨ record.projectId = some id) ∨
      ∃ q, record.projectId = some q ∧ left.placement = s.placement.strike q job) :
    Kept lib (((left.addJob id job).updateProject job (some id)).bindJobAssets job (some id)) ∧
      (((left.addJob id job).updateProject job (some id)).bindJobAssets job (some id)).placement =
        s.placement.move job (some id) := by
  obtain ⟨hsound, hplacement⟩ := bindJobAssets_spec ((hleft.addJob id job).updateProject job (some id)) job (some id)
  have hmove := Placement.move_eq_of_struck h.consistent (row_placement hjob) hstruck
  rw [← placement_addJob hleft hproject, ← placement_assign, ← hplacement] at hmove
  exact ⟨⟨hsound, hmove ▸ h.consistent.move job (some id)⟩, hmove⟩

/-- Leaving the current project for good moves the job too. -/
theorem Kept.quit (h : Kept lib s) (hjob : s.job? job = some record) {left : Studio} (hleft : Sound lib left)
    (hstruck : left.placement = s.placement ∧ record.projectId = none ∨
      ∃ q, record.projectId = some q ∧ left.placement = s.placement.strike q job) :
    Kept lib ((left.updateProject job none).bindJobAssets job none) ∧
      ((left.updateProject job none).bindJobAssets job none).placement = s.placement.move job none := by
  obtain ⟨hsound, hplacement⟩ := bindJobAssets_spec (hleft.updateProject job none) job none
  have hmove := Placement.move_none_eq_of_struck h.consistent (row_placement hjob) hstruck
  rw [← placement_assign, ← hplacement] at hmove
  exact ⟨⟨hsound, hmove ▸ h.consistent.move job none⟩, hmove⟩

end Move

end Studio

end CreativeStudio.Routes
