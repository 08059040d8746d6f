import CreativeStudio.Routes.Membership

/-!
# Requests that leave membership consistent

Every request, with what is assumed of the ids that the server draws for it. A request that
takes a job out of its project before it looks for the next one has to name a project that
is there, and a child row of a batch has to be listed by its project when the request is
over. In a run of such requests the three places agree at any time, and an error leaves no
trace.
-/

namespace CreativeStudio.Routes
open Data Jobs Assets Projects Story
open Batches (Library)

namespace Studio
variable {lib : Library} {checks : Checks} {s : Studio}

/-- No row has the id, and no project lists it. -/
def Unused (s : Studio) (id : JobId) : Prop := ¬ s.HasRow id ∧ ∀ p, ¬ s.Lists p id

theorem lists_iff_exists_entry {p : ProjectId} {id : JobId} : s.Lists p id ↔
    ∃ entry ∈ s.projects.entries, entry.1 = p ∧ id ∈ entry.2.jobIds := by
  constructor
  · rintro ⟨project, hproject, hmem⟩
    exact ⟨⟨p, project⟩, AList.mem_lookup_iff.mp hproject, rfl, hmem⟩
  · rintro ⟨⟨_, project⟩, hentry, rfl, hmem⟩
    exact ⟨project, AList.mem_lookup_iff.mpr hentry, hmem⟩

instance (s : Studio) (id : JobId) : Decidable (s.Unused id) :=
  decidable_of_iff (¬ s.HasRow id ∧ ∀ entry ∈ s.projects.entries, id ∉ entry.2.jobIds) <| by
    refine and_congr_right fun _ => ?_
    simp only [lists_iff_exists_entry]
    exact ⟨fun h p ⟨entry, hentry, _, hmem⟩ => h entry hentry hmem,
      fun h entry hentry hmem => h entry.1 ⟨entry, hentry, rfl, hmem⟩⟩

/-- The ids that are drawn for a request are new, and the batch service creates rows for
the items of its record, with the project of the spec. -/
def Admissible (s : Studio) : Request → Prop
  | .createProject id _ => s.project? id = none ∧ id ≠ ""
  | .reuse _ id _ _ => s.Unused id
  | .rerun _ id _ => s.Unused id
  | .generate id _ _ => s.Unused id
  | .createBatch project call => ∀ p, project = .ok p →
    (∀ child ∈ call.children, child.projectId = p ∧ s.Unused child.id) ∧
      match call.ending with
      | .record itemJobs | .unconfirmed _ itemJobs =>
        (∀ id ∈ itemJobs, s.Unused id) ∧ ∀ child ∈ call.children, child.id ∈ itemJobs
      | _ => True
  | .work (.create job) => s.Unused job.id ∧ job.projectId = none
  | _ => True


/-- What a request has to look at before it changes anything. -/
def Clean (s : Studio) : Request → Prop
  | .addJobToProject id job => ∀ record, s.job? job = some record → record.projectId ≠ none →
    (s.project? id).isSome
  | .bindAsset asset project => ∀ file, s.asset? asset = some file → ∀ record,
    s.job? file.jobId = some record → project ≠ some "" ∧
      ∀ id, project = some id → record.projectId ≠ none → (s.project? id).isSome
  | .createBatch _ call => match call.ending with
    | .record _ | .unconfirmed _ _ => True
    | _ => call.children = []
  | .advanceBatch call => match call.ending with
    | .record _ => ∀ child ∈ call.children, ∀ p, child.projectId = some p ↔ s.Lists p child.id
    | _ => call.children = []
  | _ => True

/-- The stores after a request are consistent, and are as they were if it ends in an
error. -/
structure Settles (lib : Library) (s : Studio) (reply : Reply) : Prop where
  kept : Kept lib reply.2
  unchanged : ∀ e, reply.1 = .error e → reply.2 = s

theorem Settles.error (h : Kept lib s) (e : RouteError) : Settles lib s (.error e, s) := ⟨h, fun _ _ => rfl⟩

theorem Settles.ok {s' : Studio} (h : Kept lib s') (response : Response) : Settles lib s (.ok response, s') where
  kept := h
  unchanged _ heq := by cases heq

/-! ## Projects -/

theorem placement_saveProject_new {project : Project} (hnew : s.project? project.id = none)
    (hjobs : project.jobIds = []) : (s.saveProject project).placement = s.placement := by
  refine Placement.ext ?_ rfl rfl
  funext id job
  simp only [placement, Lists, eq_iff_iff, project?, saveProject]
  by_cases hid : id = project.id
  · subst hid
    have hold : s.projects.lookup project.id = none := hnew
    simp [hold, Project.saved, hjobs]
  · rw [AList.lookup_insert_ne hid]

theorem Sound.saveProject_new (h : Sound lib s) {project : Project} (hne : project.id ≠ "")
    (hjobs : project.jobIds = []) : Sound lib (s.saveProject project) where
  project {other file} hfile := by
    simp only [project?, saveProject] at hfile
    by_cases hother : other = project.id
    · subst hother
      rw [AList.lookup_insert] at hfile
      cases hfile
      exact ⟨rfl, hne, by simp [Project.saved, hjobs]⟩
    · rw [AList.lookup_insert_ne hother] at hfile
      exact h.project hfile
  row := h.row
  asset := h.asset

theorem createProject_settles (h : Kept lib s) {id : ProjectId} (hnew : s.project? id = none) (hne : id ≠ "")
    (request : CreateProjectRequest) : Settles lib s (createProject id request s) := by
  refine .ok ⟨h.sound.saveProject_new hne rfl, ?_⟩ _
  rw [placement_saveProject_new (by exact hnew) rfl]
  exact h.consistent

theorem updateProject_settles (h : Kept lib s) (id : ProjectId) (changes : ProjectChanges) :
    Settles lib s (Routes.updateProject id changes s) := by
  unfold Routes.updateProject
  split
  · exact .error h _
  · refine .ok ⟨h.sound.editProject fun project edited hsome => ?_, ?_⟩ _
    · obtain ⟨hid, hjobs⟩ := updateEdit_spec project edited hsome
      exact ⟨hid, fun hnodup => hjobs ▸ hnodup⟩
    · rw [placement_updateEdit h.sound]
      exact h.consistent

theorem addJobToProject_settles (h : Kept lib s) (id : ProjectId) (job : JobId)
    (hclean : s.Clean (.addJobToProject id job)) : Settles lib s (addJobToProject id job s) := by
  unfold addJobToProject
  cases hjob : s.job? job with
  | none => exact .error h _
  | some record =>
    obtain ⟨hsound, hprojects, hstruck⟩ := leave_spec h hjob (some id)
    simp only
    cases hproject : (s.leave job record.projectId (some id)).project? id with
    | none =>
      -- the job stays where it is, or the next project would be known
      rcases hstruck with ⟨hstays, -⟩ | ⟨q, hq, -⟩
      · rw [hstays]
        exact .error h _
      · have hknown := hclean record hjob (by simp [hq])
        rw [← hprojects, hproject] at hknown
        cases hknown
    | some project =>
      have hid : project.id = id := (hsound.project hproject).1
      simp only [hid]
      refine .ok (h.join hjob hsound (by simp [hproject]) ?_).1 _
      exact hstruck.imp_left fun ⟨hstays, hcurrent⟩ => ⟨by rw [hstays], hcurrent⟩

theorem removeJobFromProject_settles (h : Kept lib s) (id : ProjectId) (job : JobId) :
    Settles lib s (removeJobFromProject id job s) := by
  unfold removeJobFromProject
  split
  · exact .error h _
  next project hproject =>
    split
    · exact .error h _
    next record hjob =>
      split
      · exact .error h _
      next hin =>
        push Not at hin
        have hcurrent : record.projectId = some id := by rw [hin.1, (h.sound.project hproject).1]
        refine .ok (h.quit hjob (h.sound.removeJob id job) (.inr ⟨id, hcurrent, ?_⟩)).1 _
        exact placement_removeJob h.sound id job

@[simp] theorem projects_updateProject (s : Studio) (id : JobId) (project : Option ProjectId) :
    (s.updateProject id project).projects = s.projects := by
  unfold Studio.updateProject
  split <;> rfl

@[simp] theorem projects_bindJobAssets (s : Studio) (job : JobId) (project : Option ProjectId) :
    (s.bindJobAssets job project).projects = s.projects := by
  unfold bindJobAssets
  generalize s.stage.shelves.listAssets.filter (fun asset => asset.jobId = job) = assets
  induction assets generalizing s with
  | nil => rfl
  | cons asset rest ih =>
    rw [List.foldl_cons, ih]
    unfold rebindAsset
    split <;> rfl

theorem isSome_project?_addJob (h : Sound lib s) (id other : ProjectId) (job : JobId) :
    ((s.addJob id job).project? other).isSome = (s.project? other).isSome := by
  rw [addJob, project?_editProject h fun _ _ hsome => (addJobEdit_spec _ _ hsome).1]
  split
  next hother => rw [hother, Option.isSome_map]
  · rfl

/-- The asset of a job is in the project of the job. -/
theorem Kept.job?_of_asset (h : Kept lib s) {id : AssetId} {asset : Asset} (hasset : s.asset? id = some asset) :
    ∃ record, s.job? asset.jobId = some record ∧ record.projectId = asset.projectId := by
  have hentry : s.placement.asset id = some (asset.jobId, asset.projectId) := by simp [placement, hasset]
  simpa [placement] using h.consistent.carried hentry

theorem leavePrevious_eq (h : Kept lib s) {job : JobId} {record : JobRecord} (hjob : s.job? job = some record)
    (next : ProjectId) : s.leavePrevious job record.projectId next = s.leave job record.projectId (some next) := by
  cases hcurrent : record.projectId with
  | none => rfl
  | some current =>
    obtain ⟨previous, hprevious, -⟩ := h.project? hjob hcurrent
    simp [leavePrevious, leave, hprevious, (h.sound.project hprevious).1]

theorem addAssetToProject_settles (h : Kept lib s) (id : ProjectId) (assetId : AssetId) :
    Settles lib s (addAssetToProject id assetId s) := by
  unfold addAssetToProject
  cases hproject : s.project? id with
  | none => exact .error h _
  | some project =>
    cases hasset : s.asset? assetId with
    | none => exact .error h _
    | some asset =>
      obtain ⟨record, hjob, hcurrent⟩ := h.job?_of_asset hasset
      simp only [← hcurrent, leavePrevious_eq h hjob]
      obtain ⟨hsound, hprojects, hstruck⟩ := leave_spec h hjob (some id)
      have hknown : ((s.leave asset.jobId record.projectId (some id)).project? id).isSome := by
        rw [hprojects, hproject]
        rfl
      obtain ⟨hkept, hplacement⟩ := h.join hjob hsound hknown
        (hstruck.imp_left fun ⟨hstays, hcurrent⟩ => ⟨by rw [hstays], hcurrent⟩)
      -- the asset is one of the assets of the job, which have just been bound
      rw [bindProject_of_same]
      swap
      · rw [hplacement]
        simp [Placement.move, Placement.rebind, placement, hasset]
      have hstill : (((((s.leave asset.jobId record.projectId (some id)).addJob id asset.jobId).updateProject
          asset.jobId (some id)).bindJobAssets asset.jobId (some id)).project? id).isSome := by
        rw [project?, projects_bindJobAssets, projects_updateProject]
        exact (isSome_project?_addJob hsound id id asset.jobId).trans hknown
      obtain ⟨project', hproject'⟩ := Option.isSome_iff_exists.mp hstill
      rw [hproject']
      exact .ok hkept _

/-- The loop of `delete_project`. -/
theorem foldl_release (h : Sound lib s) (jobs : List JobId) :
    Sound lib (jobs.foldl (fun s job => (s.updateProject job none).bindJobAssets job none) s) ∧
      (jobs.foldl (fun s job => (s.updateProject job none).bindJobAssets job none) s).placement =
        jobs.foldl (fun m job => (m.assign job none).rebind job none) s.placement := by
  induction jobs generalizing s with
  | nil => exact ⟨h, rfl⟩
  | cons job rest ih =>
    obtain ⟨hsound, hplacement⟩ := bindJobAssets_spec (h.updateProject job none) job none
    rw [placement_assign] at hplacement
    rw [List.foldl_cons, List.foldl_cons, ← hplacement]
    exact ih hsound

theorem deleteProject_settles (h : Kept lib s) (id : ProjectId) : Settles lib s (Routes.deleteProject id s) := by
  unfold Routes.deleteProject
  cases hproject : s.project? id with
  | none => exact .error h _
  | some project =>
    obtain ⟨hsound, hplacement⟩ := foldl_release h.sound project.jobIds
    refine .ok ⟨hsound.deleteProject id, ?_⟩ _
    rw [placement_deleteProject, hplacement, Placement.dissolve_eq_close]
    refine h.consistent.dissolve fun job => ?_
    simp [placement, Lists, hproject]

/-! ## The gallery -/

theorem addJob_of_lists {id : ProjectId} {job : JobId} (h : s.Lists id job) : s.addJob id job = s := by
  obtain ⟨project, hproject, hmem⟩ := h
  simp [addJob, editProject, hproject, addJobEdit, hmem]

/-- Rebinding moves the job, or does nothing when it can tell before it begins. -/
theorem rebindSourceJobProject_spec (h : Kept lib s) {job : JobId} {record : JobRecord}
    (hjob : s.job? job = some record) {project : Option ProjectId} (hne : project ≠ some "")
    (hknown : ∀ id, project = some id → record.projectId ≠ none → (s.project? id).isSome) :
    (∃ e, rebindSourceJobProject job project s = (.error e, s)) ∨
      ∃ s', rebindSourceJobProject job project s = (.ok (), s') ∧ Kept lib s' ∧
        s'.placement = s.placement.move job project := by
  obtain ⟨hsound, hprojects, hstruck⟩ := leave_spec h hjob project
  simp only [rebindSourceJobProject, hjob]
  cases project with
  | none =>
    refine .inr ⟨_, rfl, h.quit hjob hsound (hstruck.imp_left fun hkeeps => ⟨by rw [hkeeps.1], ?_⟩)⟩
    exact hkeeps.2.elim id id
  | some id =>
    have hid : id ≠ "" := by simpa using hne
    by_cases hsame : record.projectId = some id
    · -- the job is there already
      have hlists : s.Lists id job := h.project? hjob hsame
      have hstays : s.leave job record.projectId (some id) = s := by simp [leave, hsame]
      have hdoc : (s.project? id).isSome := by
        obtain ⟨project, hproject, -⟩ := hlists
        simp [hproject]
      have hjoin := h.join hjob h.sound hdoc (.inl ⟨rfl, .inr hsame⟩)
      rw [addJob_of_lists hlists] at hjoin
      refine .inr ⟨_, ?_, hjoin⟩
      rw [hstays]
      simp [hsame]
    · have hasks : id ≠ "" ∧ some id ≠ record.projectId := ⟨hid, fun heq => hsame heq.symm⟩
      simp only [if_pos hasks]
      cases hproject : (s.leave job record.projectId (some id)).project? id with
      | none =>
        have hnone : record.projectId = none := by
          by_contra hsome
          have hfound := hknown id rfl hsome
          rw [← hprojects, hproject] at hfound
          cases hfound
        refine .inl ⟨.http 404 "Project not found", ?_⟩
        simp only [hnone, leave]
      | some found =>
        refine .inr ⟨_, rfl, h.join hjob hsound (by simp [hproject]) ?_⟩
        exact hstruck.imp_left fun hkeeps => ⟨by rw [hkeeps.1], hkeeps.2⟩

theorem bindAsset_settles (h : Kept lib s) (assetId : AssetId) (project : Option ProjectId)
    (hclean : s.Clean (.bindAsset assetId project)) :
    Settles lib s (bindGalleryAssetToProject lib assetId project s) := by
  unfold bindGalleryAssetToProject
  cases hasset : s.asset? assetId with
  | none => exact .error h _
  | some asset =>
    obtain ⟨record, hjob, -⟩ := h.job?_of_asset hasset
    obtain ⟨hne, hknown⟩ := hclean asset hasset record hjob
    rcases rebindSourceJobProject_spec h hjob hne hknown with ⟨e, hrebind⟩ | ⟨s', hrebind, hkept, hplacement⟩
    · simp only [hrebind]
      exact .error h _
    · have hmoved : s'.placement.asset assetId = some (asset.jobId, project) := by
        rw [hplacement]
        simp [Placement.move, Placement.rebind, placement, hasset]
      have hsame : s'.bindProject assetId project = s' := by
        refine bindProject_of_same fun entry hentry => ?_
        rw [hmoved, Option.mem_some_iff] at hentry
        rw [← hentry]
      obtain ⟨rebound, hrebound, -⟩ := Option.map_eq_some_iff.mp hmoved
      obtain ⟨record', hjob', -⟩ := hkept.job?_of_asset hrebound
      obtain ⟨-, -, n, hn⟩ := hkept.sound.asset hrebound
      simp only [fileReuse] at hn
      simp only [hrebind, hsame, hrebound, serializeGalleryDetail, hjob', hn]
      exact .ok hkept _

/-! ## One new job -/

theorem isSome_resolveProjectId {detail : String} {project resolved : Option ProjectId}
    (h : resolveProjectId detail project s = .ok resolved) : ∀ p, resolved = some p → (s.project? p).isSome := by
  unfold resolveProjectId at h
  rintro p rfl
  split at h
  · cases h
  · split at h
    · cases h
      assumption
    · cases h

/-- A new job gets a row and a place in the project that it is created for, or nothing
happens. -/
theorem createBoundJob_spec (checks : Checks) (h : Kept lib s) {id : JobId} (hunused : s.Unused id) (request : GenerationRequest)
    {project : Option ProjectId} (hproject : ∀ p, project = some p → (s.project? p).isSome) :
    (∃ e, createBoundJob checks id request project s = (.error e, s)) ∨
      ∃ s', createBoundJob checks id request project s = (.ok (), s') ∧ Kept lib s' := by
  have hrow : s.placement.row id = none := by simp [placement, job?_eq_none hunused.1]
  unfold createBoundJob createJob
  cases checks.validateReferences s request project with
  | error e => exact .inl ⟨_, rfl⟩
  | ok _ =>
    refine .inr ?_
    simp only [if_neg hunused.1]
    refine ⟨_, rfl, ?_⟩
    cases project with
    | none =>
      refine ⟨h.sound.setRow rfl, ?_⟩
      simp only [Option.elim_none, placement_setRow]
      refine h.consistent.enter hrow fun p => ⟨fun heq => ?_, fun hlists => absurd hlists (hunused.2 p)⟩
      cases heq
    | some p =>
      simp only [Option.elim_some]
      have hsound : Sound lib (s.setRow id {
          id, projectId := some p, mediaType := request.mediaType, status := .queued, request,
          createdAt := s.now, updatedAt := s.now }) := h.sound.setRow rfl
      refine ⟨hsound.addJob p id, ?_⟩
      rw [placement_addJob hsound (hproject p rfl), placement_setRow]
      -- the project may as well have listed the job first
      have hlisted : (s.placement.enlist p id).Consistent :=
        h.consistent.enlist (.inl hrow) fun q hq => absurd hq (hunused.2 q)
      refine hlisted.enter hrow fun q => ?_
      simp only [Placement.enlist, Option.some_inj]
      constructor
      · rintro rfl
        exact .inr ⟨rfl, trivial⟩
      · rintro (hq | ⟨rfl, -⟩)
        · exact absurd hq (hunused.2 q)
        · rfl

theorem enqueueGeneration_settles (h : Kept lib s) {id : JobId} (hunused : s.Unused id)
    (request : GenerationRequest) (project : Option ProjectId) :
    Settles lib s (enqueueGeneration checks id request project s) := by
  unfold enqueueGeneration
  cases hresolve : resolveProjectId "Project not found" project s with
  | error e => exact .error h _
  | ok resolved =>
    rcases createBoundJob_spec checks h hunused request (isSome_resolveProjectId hresolve) with
      ⟨e, he⟩ | ⟨s', hs', hkept⟩
    · simp only [he]
      exact .error h _
    · simp only [hs']
      exact .ok hkept _

theorem rerunJob_settles (h : Kept lib s) (source : JobId) {id : JobId} (hunused : s.Unused id)
    (request : RerunJobRequest) : Settles lib s (rerunJob checks source id request s) := by
  unfold rerunJob
  split
  · exact .error h _
  next sourceJob _ =>
    cases hresolve : resolveProjectId "Project not found." (request.projectId.orElse fun _ => sourceJob.projectId) s with
    | error e => exact .error h _
    | ok resolved =>
      rcases createBoundJob_spec checks h hunused (rerunRequest sourceJob.request request)
        (isSome_resolveProjectId hresolve) with ⟨e, he⟩ | ⟨s', hs', hkept⟩
      · simp only [he]
        exact .error h _
      · simp only [hs']
        exact .ok hkept _

theorem isSome_buildReuseRequest {asset : Asset} {drawn : ℤ} {request : ReuseAssetRequest}
    {generation : GenerationRequest} {project : Option ProjectId}
    (h : buildReuseRequest checks asset drawn request s = .ok (generation, project)) :
    ∀ p, project = some p → (s.project? p).isSome := by
  simp only [buildReuseRequest] at h
  split at h
  · cases h
  obtain ⟨resolved, hresolve, h⟩ := ok_of_bind h
  have heq : resolved = project := by
    split at h
    · obtain ⟨_, -, h⟩ := ok_of_bind h
      cases h
      rfl
    · cases h
      rfl
  rw [← heq]
  exact isSome_resolveProjectId hresolve

theorem reuseGalleryAsset_settles (h : Kept checks.lib s) (assetId : AssetId) {id : JobId} (hunused : s.Unused id)
    (drawn : ℤ) (request : ReuseAssetRequest) :
    Settles checks.lib s (reuseGalleryAsset checks assetId id drawn request s) := by
  unfold reuseGalleryAsset
  split
  · exact .error h _
  next asset _ =>
    cases hbuild : buildReuseRequest checks asset drawn request s with
    | error e => exact .error h _
    | ok built =>
      obtain ⟨generation, project⟩ := built
      rcases createBoundJob_spec checks h hunused generation (isSome_buildReuseRequest hbuild) with
        ⟨e, he⟩ | ⟨s', hs', hkept⟩
      · simp only [he]
        exact .error h _
      · obtain ⟨s'', hmarked, hsound, hplacement⟩ := markReused_spec hkept.sound assetId request.action.text id
        simp only [hs', hmarked]
        exact .ok ⟨hsound, hplacement ▸ hkept.consistent⟩ _

/-! ## Batches -/

theorem createChild_spec (h : Sound lib s) (job : JobRecord) : Sound lib (s.createChild job) ∧
    (s.createChild job).placement = s.placement.enroll job.id job.projectId ∧
    (s.createChild job).projects = s.projects := by
  unfold createChild Placement.enroll
  by_cases hrow : s.HasRow job.id
  · obtain ⟨record, hrecord, -⟩ := h.job? hrow
    rw [if_pos hrow, if_pos (by simp [placement, hrecord])]
    exact ⟨h, rfl, rfl⟩
  · rw [if_neg hrow, if_neg (by simp [placement, job?_eq_none hrow])]
    exact ⟨h.setRow rfl, placement_setRow s job.id job, rfl⟩

/-- The rows of the children, one after the other. -/
theorem foldl_createChild (h : Sound lib s) (children : List JobRecord) :
    Sound lib (children.foldl createChild s) ∧
      (children.foldl createChild s).placement =
        (children.map fun job => (job.id, job.projectId)).foldl (fun m entry => m.enroll entry.1 entry.2) s.placement ∧
      (children.foldl createChild s).projects = s.projects := by
  induction children generalizing s with
  | nil => exact ⟨h, rfl, rfl⟩
  | cons job rest ih =>
    obtain ⟨hsound, hplacement, hprojects⟩ := createChild_spec h job
    rw [List.foldl_cons, List.map_cons, List.foldl_cons, ← hplacement, ← hprojects]
    exact ih hsound

theorem foldl_addJob (h : Sound lib s) {p : ProjectId} (hproject : (s.project? p).isSome) (jobs : List JobId) :
    Sound lib (jobs.foldl (fun s job => s.addJob p job) s) ∧
      (jobs.foldl (fun s job => s.addJob p job) s).placement =
        jobs.foldl (fun m job => m.enlist p job) s.placement := by
  induction jobs generalizing s with
  | nil => exact ⟨h, rfl⟩
  | cons job rest ih =>
    rw [List.foldl_cons, List.foldl_cons, ← placement_addJob h hproject]
    exact ih (h.addJob p job) ((isSome_project?_addJob h p p job).trans hproject)

/-- Children that the projects list already can be created. -/
theorem Kept.children (h : Kept lib s) {children : List JobRecord}
    (hlisted : ∀ child ∈ children, ∀ p, child.projectId = some p ↔ s.Lists p child.id) :
    Kept lib (children.foldl createChild s) := by
  obtain ⟨hsound, hplacement, -⟩ := foldl_createChild h.sound children
  refine ⟨hsound, ?_⟩
  rw [hplacement]
  refine h.consistent.enrollAll ?_
  rintro entry hentry
  obtain ⟨child, hchild, rfl⟩ := List.mem_map.mp hentry
  exact hlisted child hchild

/-- The children of a new batch go into its project with all the items of the batch. -/
theorem Kept.bindItems (h : Kept lib s) {children : List JobRecord} {project : Option ProjectId}
    {itemJobs : List JobId} (hproject : ∀ p, project = some p → (s.project? p).isSome)
    (hchildren : ∀ child ∈ children, child.projectId = project ∧ s.Unused child.id)
    (hitems : ∀ id ∈ itemJobs, s.Unused id) (hmem : ∀ child ∈ children, child.id ∈ itemJobs) :
    Kept lib (bindItems project itemJobs (children.foldl createChild s)) := by
  cases project with
  | none =>
    refine h.children fun child hchild p => ?_
    obtain ⟨hnone, hunused⟩ := hchildren child hchild
    rw [hnone]
    exact ⟨fun heq => by simp at heq, fun hlists => absurd hlists (hunused.2 p)⟩
  | some p =>
    obtain ⟨hsound, hplacement, hprojects⟩ := foldl_createChild h.sound children
    obtain ⟨hsound', hplacement'⟩ := foldl_addJob hsound
      (by rw [Studio.project?, hprojects]; exact hproject p rfl) itemJobs
    refine ⟨hsound', ?_⟩
    have hnew : ∀ id ∈ itemJobs, s.placement.row id = none ∧ ∀ q, s.placement.lists q id → q = p :=
      fun id hid => ⟨by simp [placement, job?_eq_none (hitems id hid).1],
        fun q hq => absurd hq ((hitems id hid).2 q)⟩
    rw [Routes.bindItems, Option.elim_some, hplacement', hplacement, Placement.enlistAll_enrollAll]
    refine (h.consistent.enlistAll hnew).enrollAll ?_
    rintro entry hentry q
    obtain ⟨child, hchild, rfl⟩ := List.mem_map.mp hentry
    obtain ⟨heq, hunused⟩ := hchildren child hchild
    rw [heq, Placement.lists_enlistAll, Option.some_inj]
    constructor
    · rintro rfl
      exact .inr ⟨rfl, hmem child hchild⟩
    · rintro (hq | ⟨rfl, -⟩)
      · exact absurd hq (hunused.2 q)
      · rfl

theorem createBatch_settles (h : Kept lib s) (project : Except RouteError (Option ProjectId)) (call : BatchCall)
    (hadmissible : s.Admissible (.createBatch project call)) (hclean : s.Clean (.createBatch project call)) :
    Settles lib s (Routes.createBatch project call s) := by
  unfold Routes.createBatch
  cases project with
  | error e => exact .error h _
  | ok project =>
    obtain ⟨hchildren, hending⟩ := hadmissible project rfl
    simp only [Clean] at hclean
    dsimp only
    split
    · exact .error h _
    next hknown =>
      have hproject : ∀ p, project = some p → (s.project? p).isSome := by
        rintro p rfl
        simpa [Option.isSome_iff_ne_none] using hknown
      cases hend : call.ending with
      | record itemJobs =>
        rw [hend] at hending
        exact .ok (h.bindItems hproject hchildren hending.1 hending.2) _
      | unconfirmed batch itemJobs =>
        rw [hend] at hending
        exact .ok (h.bindItems hproject hchildren hending.1 hending.2) _
      | raised e committed =>
        rw [hend] at hclean
        simp only [hclean, List.foldl_nil]
        cases e <;> exact .error h _
      | missing =>
        rw [hend] at hclean
        simp only [hclean, List.foldl_nil]
        exact .error h _

theorem advanceBatch_settles (h : Kept lib s) (call : BatchCall) (hclean : s.Clean (.advanceBatch call)) :
    Settles lib s (Routes.advanceBatch call s) := by
  unfold Routes.advanceBatch
  simp only [Clean] at hclean
  cases hend : call.ending with
  | record itemJobs =>
    rw [hend] at hclean
    exact .ok (h.children hclean) _
  | unconfirmed batch itemJobs =>
    rw [hend] at hclean
    simp only [hclean, List.foldl_nil]
    exact .error h _
  | raised e committed =>
    rw [hend] at hclean
    simp only [hclean, List.foldl_nil]
    exact .error h _
  | missing =>
    rw [hend] at hclean
    simp only [hclean, List.foldl_nil]
    exact .error h _

/-- Stores with the same projects and rows, whose assets are as they were or say what the row
of their job says. -/
theorem Kept.congr (h : Kept lib s) {s' : Studio} (hprojects : s'.projects = s.projects)
    (hjobs : s'.stage.shelves.jobs = s.stage.shelves.jobs)
    (hfiles : ∀ id asset, s'.asset? id = some asset → s.asset? id = some asset ∨
      asset.id = id ∧ Readable lib (fileReuse asset.metadata) ∧
        ∃ record, s.job? asset.jobId = some record ∧ asset.projectId = record.projectId) : Kept lib s' := by
  have hjob : s'.job? = s.job? := by
    funext id
    simp only [Studio.job?, Shelves.job?, hjobs]
  refine ⟨⟨fun hproject => h.sound.project ?_, fun hrow => h.sound.row ?_, fun {id asset} hfile => ?_⟩,
    ⟨fun {job project} hrow p => ?_, fun hp hq => ?_, fun {id job project} hentry => ?_⟩⟩
  · rwa [Studio.project?, hprojects] at hproject
  · rwa [hjobs] at hrow
  · have hrow : s'.HasRow asset.jobId ↔ s.HasRow asset.jobId := by rw [HasRow, HasRow, hjobs]
    rw [hrow]
    rcases hfiles id asset hfile with hold | ⟨hid, hreuse, record, hrecord, -⟩
    · exact h.sound.asset hold
    · exact ⟨hid, hasRow_of_job? hrecord, hreuse⟩
  · simp only [placement, hjob, Lists, Studio.project?, hprojects] at hrow ⊢
    exact h.consistent.listed hrow p
  · simp only [placement, Lists, Studio.project?, hprojects] at hp hq
    exact h.consistent.unique hp hq
  · simp only [placement, hjob, Option.map_eq_some_iff] at hentry ⊢
    obtain ⟨asset, hfile, hentry⟩ := hentry
    cases hentry
    rcases hfiles id asset hfile with hold | ⟨-, -, record, hrecord, hcarries⟩
    · obtain ⟨record, hrecord, hcarries⟩ := h.job?_of_asset hold
      exact ⟨record, hrecord, hcarries⟩
    · exact ⟨record, hrecord, hcarries.symm⟩

theorem submitFeedback_settles (h : Kept lib s) (feedback : Feedback) :
    Settles lib s (Routes.submitFeedback feedback s) := by
  unfold Routes.submitFeedback
  split
  · exact .error h _
  split
  · exact .error h _
  split
  · exact .error h _
  · have hkept : Kept lib { s with feedback := s.feedback ++ [feedback] } :=
      h.congr rfl rfl fun _ _ hfile => .inl hfile
    exact .ok hkept _

/-! ## The workers -/

/-- An asset that synchronising a job has written carries the project of the job. -/
theorem syncOutputs_files {job : JobRecord} {source : SyncSource} {paths : List String} {index : ℕ}
    {shelves : Shelves} {id : AssetId} {asset : Asset}
    (h : (syncOutputs lib job source index paths shelves).2.assets.lookup id = some asset) :
    shelves.assets.lookup id = some asset ∨ asset.id = id ∧ Readable lib (fileReuse asset.metadata) ∧
      asset.jobId = job.id ∧ asset.projectId = job.projectId := by
  induction paths generalizing index shelves with
  | nil => exact .inl h
  | cons path rest ih =>
    rw [syncOutputs] at h
    split at h
    · exact .inl h
    · exact ih h
    next written hwritten =>
      rcases ih h with hold | hnew
      · obtain ⟨computed, hcomputed, hsome⟩ := ok_of_bind hwritten
        by_cases hkey : id = written.id
        · have hsame : computed = written := by
            simp only [pure, Except.pure, Except.ok.injEq, Option.ite_none_left_eq_some, Option.some_inj] at hsome
            exact hsome.2
          obtain ⟨-, -, hjob, hproject, hreuse⟩ := syncedAsset_spec (hsame ▸ hcomputed)
          subst hkey
          have hself := (AList.lookup_insert shelves.assets).symm.trans hold
          cases hself
          exact .inr ⟨rfl, readable_fileReuse_canon.mpr hreuse, hjob, hproject⟩
        · exact .inl ((AList.lookup_insert_ne hkey).symm.trans hold)
      · exact .inr hnew

theorem syncJob_files {job : JobRecord} {shelves : Shelves} {id : AssetId} {asset : Asset}
    (h : (syncJob lib job shelves).2.assets.lookup id = some asset) :
    shelves.assets.lookup id = some asset ∨ asset.id = id ∧ Readable lib (fileReuse asset.metadata) ∧
      asset.jobId = job.id ∧ asset.projectId = job.projectId := by
  unfold syncJob at h
  split at h
  · split at h
    · exact syncOutputs_files h
    · exact .inl h
  · exact .inl h

/-- A row may change as long as it keeps its id and its project. -/
theorem Kept.setRow (h : Kept lib s) {id : JobId} {job current : JobRecord} (hcurrent : s.job? id = some current)
    (hid : job.id = current.id) (hproject : job.projectId = current.projectId) : Kept lib (s.setRow id job) := by
  obtain ⟨record, hrecord, hkey⟩ := h.sound.job? (hasRow_of_job? hcurrent)
  obtain rfl : current = record := Option.some.inj (hcurrent.symm.trans hrecord)
  refine ⟨h.sound.setRow (hid.trans hkey), ?_⟩
  rw [placement_setRow_of_same hcurrent hproject]
  exact h.consistent

theorem Kept.sync (h : Kept lib s) {id : JobId} {job : JobRecord} (hjob : s.job? id = some job) :
    Kept lib { s with stage := { s.stage with shelves := (syncJob lib job s.stage.shelves).2 } } := by
  obtain ⟨record, hrecord, hkey⟩ := h.sound.job? (hasRow_of_job? hjob)
  obtain rfl : job = record := Option.some.inj (hjob.symm.trans hrecord)
  refine h.congr rfl (syncJob_writes lib job s.stage.shelves).jobs fun other asset hfile => ?_
  rcases syncJob_files hfile with hold | ⟨hid, hreuse, hsource, hproject⟩
  · exact .inl hold
  · exact .inr ⟨hid, hreuse, job, by rw [hsource, hkey]; exact hjob, hproject⟩

theorem jobs_convergeSceneBinding (job : JobRecord) (index : Option SceneCandidateIndex) (shelves : Shelves) :
    (convergeSceneBinding job index shelves).2.jobs = shelves.jobs ∧
      (convergeSceneBinding job index shelves).2.assets = shelves.assets := by
  unfold convergeSceneBinding
  split
  · exact ⟨rfl, rfl⟩
  split
  · exact ⟨rfl, rfl⟩
  · exact ⟨rfl, rfl⟩
  split
  · exact ⟨rfl, rfl⟩
  split
  · exact ⟨jobs_bindJob .., assets_bindJob ..⟩
  split
  · exact ⟨rfl, rfl⟩
  simp only
  split
  · exact ⟨rfl, rfl⟩
  split
  · exact ⟨rfl, rfl⟩
  · have hjobs := jobs_bindJob true job.id shelves
    have hassets := assets_bindJob true job.id shelves
    split <;> next hbind =>
      rw [hbind] at hjobs hassets
      exact ⟨hjobs, hassets⟩

/-- The stores with other shelves. -/
def withShelves (s : Studio) (shelves : Shelves) : Studio := { s with stage := { s.stage with shelves } }

theorem Kept.withStories (h : Kept lib s) {shelves : Shelves} (hjobs : shelves.jobs = s.stage.shelves.jobs)
    (hassets : shelves.assets = s.stage.shelves.assets) : Kept lib (s.withShelves shelves) := by
  refine h.congr rfl hjobs fun id asset hfile => .inl ?_
  have hfile' : shelves.assets.lookup id = some asset := hfile
  rw [hassets] at hfile'
  exact hfile'

theorem Kept.converge (h : Kept lib s) (id : JobId) (index : Option SceneCandidateIndex) (retryable : Bool) :
    Kept lib (s.withShelves (convergeJob lib id index retryable s.stage.shelves).2) := by
  have hsame : Kept lib (s.withShelves s.stage.shelves) := h.withStories rfl rfl
  unfold convergeJob
  split
  · exact hsame
  · exact hsame
  next job hrow =>
    have hjob : s.job? id = some job := job?_eq_some_iff.mpr hrow
    have hkey : job.id = id := by
      obtain ⟨record, hrecord, hkey⟩ := h.sound.job? (hasRow_of_job? hjob)
      rwa [Option.some.inj (hjob.symm.trans hrecord)]
    -- marking the completion keeps the project
    have hmark : ∀ shelves : Shelves, Kept lib (s.withShelves shelves) → shelves.jobs = s.stage.shelves.jobs →
        Kept lib (s.withShelves (shelves.markDone job)) := by
      intro shelves hkept hjobs
      have hjob' : (s.withShelves shelves).job? id = some job := by
        rw [job?_eq_some_iff, ← hrow, ← hjobs]
        rfl
      have hset : Kept lib ((s.withShelves shelves).setRow id { job with completionState := .done }) :=
        hkept.setRow hjob' rfl rfl
      rw [← hkey] at hset
      exact hset
    split
    · exact hsame
    split
    · exact hsame
    split
    · split
      · exact hsame
      · exact hmark _ hsame rfl
    · have hsync := h.sync hjob
      have hjobs := (syncJob_writes lib job s.stage.shelves).jobs
      have hconverge := jobs_convergeSceneBinding job index (syncJob lib job s.stage.shelves).2
      have hbound : Kept lib (s.withShelves
          (convergeSceneBinding job index (syncJob lib job s.stage.shelves).2).2) :=
        hsync.withStories hconverge.1 hconverge.2
      split
      next heq => rw [heq] at hsync; exact hsync
      next heq =>
        rw [heq] at hbound hconverge hjobs
        split
        next heq' => rw [heq'] at hbound; exact hbound
        next heq' => rw [heq'] at hbound; exact hbound
        next heq' =>
          rw [heq'] at hbound hconverge
          split
          · exact hbound
          · exact hmark _ hbound (hconverge.1.trans hjobs)

theorem Kept.work (h : Kept lib s) (event : Event)
    (hnew : ∀ job, event = .create job → s.Unused job.id ∧ job.projectId = none) :
    Kept lib { s with stage := s.stage.step lib event } := by
  have hsame : Kept lib { s with stage := s.stage } := h
  cases event with
  | create job =>
    obtain ⟨hunused, hnone⟩ := hnew job rfl
    simp only [Stage.step]
    split
    · have hsound : Sound lib (s.setRow job.id job) := h.sound.setRow rfl
      refine ⟨hsound, ?_⟩
      have hrow : s.placement.row job.id = none := by simp [placement, job?_eq_none hunused.1]
      have hentered : (s.placement.enter job.id job.projectId).Consistent := by
        refine h.consistent.enter hrow fun p => ⟨fun heq => ?_, fun hlists => absurd hlists (hunused.2 p)⟩
        rw [hnone] at heq
        cases heq
      rw [← placement_setRow s job.id job] at hentered
      exact hentered
    · exact hsame
  | advance id status =>
    simp only [Stage.step]
    split
    next job hjob =>
      split
      · have hset : Kept lib (s.setRow id { job with status }) := h.setRow hjob rfl rfl
        exact hset
      · exact hsame
    · exact hsame
  | succeed id result =>
    simp only [Stage.step]
    split
    next job hjob =>
      split
      · have hset : Kept lib (s.setRow id (succeededRow job result)) := h.setRow hjob rfl rfl
        exact hset
      · exact hsame
    · exact hsame
  | sync id =>
    simp only [Stage.step]
    split
    next job hjob => exact h.sync hjob
    · exact hsame
  | bind id => exact h.withStories (jobs_bindJob ..) (assets_bindJob ..)
  | snapshot =>
    have hkept : Kept lib { s with stage := { s.stage with index := buildSceneCandidateIndex s.stage.shelves } } :=
      h.congr rfl rfl fun _ _ hfile => .inl hfile
    exact hkept
  | converge id shared retryable => exact h.converge id _ retryable

/-! ## Every run -/

/-- Every clean request settles. -/
theorem serve_settles (checks : Checks) (h : Kept checks.lib s) (request : Request)
    (hadmissible : s.Admissible request) (hclean : s.Clean request) :
    Settles checks.lib s (s.serve checks request) := by
  cases request with
  | createProject id request => exact createProject_settles h hadmissible.1 hadmissible.2 request
  | updateProject id changes => exact updateProject_settles h id changes
  | deleteProject id => exact deleteProject_settles h id
  | addJobToProject id job => exact addJobToProject_settles h id job hclean
  | removeJobFromProject id job => exact removeJobFromProject_settles h id job
  | addAssetToProject id asset => exact addAssetToProject_settles h id asset
  | bindAsset asset project => exact bindAsset_settles h asset project hclean
  | reuse asset id drawn request => exact reuseGalleryAsset_settles h asset hadmissible drawn request
  | rerun source id request => exact rerunJob_settles h source hadmissible request
  | generate id request project => exact enqueueGeneration_settles h hadmissible request project
  | createBatch project call => exact createBatch_settles h project call hadmissible hclean
  | advanceBatch call => exact advanceBatch_settles h call hclean
  | submitFeedback feedback => exact submitFeedback_settles h feedback
  | work event =>
    refine .ok (h.work event ?_) _
    rintro job rfl
    exact hadmissible

/-- A property of the stores and the request holds at every request of a run. -/
def Along (checks : Checks) (P : Studio → Request → Prop) (s : Studio) : List Request → Prop
  | [] => True
  | request :: rest => P s request ∧ Along checks P (s.serve checks request).2 rest

theorem kept_fresh (lib : Library) (stories : Stories) : Kept lib (fresh stories) where
  sound := ⟨fun h => (by cases h), fun h => (by cases h), fun h => (by cases h)⟩
  consistent := by
    have hlists : ∀ p job, ¬ (fresh stories).Lists p job := by
      rintro p job ⟨project, hproject, -⟩
      cases hproject
    exact ⟨fun hrow => (by cases hrow), fun hp _ => absurd hp (hlists _ _), fun hasset => (by cases hasset)⟩

theorem settles_along (h : Kept checks.lib s) {requests : List Request}
    (hadmissible : Along checks Admissible s requests) (hclean : Along checks Clean s requests) :
    Kept checks.lib (s.serveAll checks requests) ∧
      Along checks (fun s request => s.placement.Consistent ∧
        ∀ e, (s.serve checks request).1 = .error e → (s.serve checks request).2 = s) s requests := by
  induction requests generalizing s with
  | nil => exact ⟨h, trivial⟩
  | cons request rest ih =>
    have hsettles := serve_settles checks h request hadmissible.1 hclean.1
    obtain ⟨hkept, hrest⟩ := ih hsettles.kept hadmissible.2 hclean.2
    exact ⟨hkept, ⟨h.consistent, hsettles.unchanged⟩, hrest⟩

end Studio

/-- A server that finds nothing wrong with any request. -/
def plainChecks : Checks where
  lib := Library.plain
  validateReferences _ _ _ := .ok ()
  validateMelodyReuse _ _ _ := .ok ()
  validateRequest _ := none

/-- A picture. -/
def pictureRequest : GenerationRequest where
  mediaType := .image
  taskType := none
  prompt := "A lighthouse"
  negativePrompt := none
  modelId := ""
  seed := none
  outputFormat := none
  params := []
  references := []

/-- A project with one job. -/
def filmRequests : List Request := [.createProject "film" { name := "A film" }, .generate 1 pictureRequest (some "film")]

/-- No stories. -/
def noStories : Stories := Stories.empty

/-- The project with its job. -/
def filmStudio : Studio := (Studio.fresh noStories).serveAll plainChecks filmRequests

/-- The job is sent to another project, its old project is deleted, and taking the job out of
that one is refused. -/
def movedRequests : List Request := filmRequests ++ [.createProject "trailer" { name := "A trailer" },
  .addJobToProject "trailer" 1, .deleteProject "film", .removeJobFromProject "film" 1]

end CreativeStudio.Routes
