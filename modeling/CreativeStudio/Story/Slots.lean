import CreativeStudio.Story.Replay
import Mathlib.Data.Prod.Lex

/-!
# What one call does to a slot

Each call of the binder, of the asset repository and of the converger, with what it changes:
`sync_job` writes assets of its job only, a live binding puts the job's primary asset into
the slot, and a convergence fills the slot, gives up, or asks to be tried again.
-/

namespace CreativeStudio.Story
open Data Jobs Assets Batches Storage

/-! ## Synchronising a job -/

section Sync
variable {lib : Library} {job : JobRecord} {source : SyncSource} {s : Shelves}

/-- `int(value)` succeeds. -/
def Readable (lib : Library) (value : Json) : Prop := ∃ n, toInt lib value = .ok n

theorem toInt_canon (lib : Library) (value : Json) : toInt lib value.canon = toInt lib value := by
  cases value <;> simp [JsonOf.canon, toInt]

/-- The reuse count of a file. -/
def fileReuse (metadata : Obj) : Json := (Dict.get? metadata "reuse_count").getD (.int 0)

theorem readable_fileReuse_canon {metadata : Obj} :
    Readable lib (fileReuse (Obj.canon metadata)) ↔ Readable lib (fileReuse metadata) := by
  unfold fileReuse
  rw [Obj.get?_canon]
  cases Dict.get? metadata "reuse_count" with
  | none => rfl
  | some value => simp [Readable, toInt_canon]

/-- The metadata that the reuse count of an output is read off. -/
def mergedMetadata (source : SyncSource) (index : ℕ) (path : String) (existing : Option Asset) : Obj :=
  Dict.update (Dict.update (existing.elim [] Asset.metadata) source.metadata)
    (variationMetadataForOutput source.variations path index)

/-- The asset of one output can be computed over what its file holds. -/
def Computes (lib : Library) (source : SyncSource) (index : ℕ) (path : String)
    (existing : Option Asset) : Prop :=
  Readable lib (fileReuse (mergedMetadata source index path existing))

/-- An output that computes over one file computes over every file with a reuse count. -/
theorem Computes.over {index : ℕ} {path : String} {existing existing' : Option Asset}
    (h : Computes lib source index path existing)
    (hexisting : ∀ asset ∈ existing', Readable lib (fileReuse asset.metadata)) :
    Computes lib source index path existing' := by
  unfold Computes mergedMetadata fileReuse at h ⊢
  rw [Dict.get?_update, Dict.get?_update] at h ⊢
  cases hvariation : Dict.get? (variationMetadataForOutput source.variations path index) "reuse_count" with
  | some value => simpa [hvariation] using h
  | none =>
    cases hsource : Dict.get? source.metadata "reuse_count" with
    | some value => simpa [hvariation, hsource] using h
    | none =>
      cases existing' with
      | none => exact ⟨0, rfl⟩
      | some asset => simpa [fileReuse] using hexisting asset rfl

/-- An asset that was computed belongs to the job and its project, and its reuse count can
be read. -/
theorem syncedAsset_spec {index : ℕ} {path : String} {existing : Option Asset} {asset : Asset}
    (h : syncedAsset lib job source index path existing = .ok asset) :
    Computes lib source index path existing ∧ asset.id = stableAssetId job.id path ∧
      asset.jobId = job.id ∧ asset.projectId = job.projectId ∧ Readable lib (fileReuse asset.metadata) := by
  simp only [syncedAsset, Bind.bind, Except.bind, Dict.get?_set] at h
  split at h
  · cases h
  next n hn =>
  cases h
  refine ⟨⟨n, by simpa [fileReuse, mergedMetadata] using hn⟩, rfl, rfl, rfl, n, ?_⟩
  simp [fileReuse, Dict.get?_set, toInt]

theorem Computes.syncedAsset (job : JobRecord) {index : ℕ} {path : String} {existing : Option Asset}
    (h : Computes lib source index path existing) :
    ∃ asset, syncedAsset lib job source index path existing = .ok asset := by
  obtain ⟨n, hn⟩ := h
  simp only [Assets.syncedAsset, Bind.bind, Except.bind, Dict.get?_set]
  simp only [fileReuse, mergedMetadata] at hn
  simp [hn, pure, Except.pure]

/-- Nothing but assets of the job was written. -/
structure SyncWrites (job : JobId) (s s' : Shelves) : Prop where
  jobs : s'.jobs = s.jobs
  stories : s'.stories = s.stories
  files : ∀ id, s'.assets.lookup id = s.assets.lookup id ∨
    ∃ path asset, id = stableAssetId job path ∧ s'.assets.lookup id = some asset ∧
      asset.id = id ∧ asset.jobId = job

theorem SyncWrites.refl (job : JobId) (s : Shelves) : SyncWrites job s s where
  jobs := rfl
  stories := rfl
  files _ := .inl rfl

theorem SyncWrites.trans {job : JobId} {s s' s'' : Shelves} (h : SyncWrites job s s')
    (h' : SyncWrites job s' s'') : SyncWrites job s s'' where
  jobs := h'.jobs.trans h.jobs
  stories := h'.stories.trans h.stories
  files id := by
    rcases h'.files id with heq | hwritten
    · rw [heq]
      exact h.files id
    · exact .inr hwritten

/-- The asset of an output is filed, and can be synchronised again. -/
def Filed (lib : Library) (job : JobId) (s : Shelves) (path : String) : Prop :=
  ∃ asset, s.assets.lookup (stableAssetId job path) = some asset ∧ asset.jobId = job ∧
    Readable lib (fileReuse asset.metadata)

/-- One turn of the loop. -/
theorem syncOutputs_cons (lib : Library) (job : JobRecord) (source : SyncSource) (index : ℕ) (path : String)
    (rest : List String) (s : Shelves) :
    (∃ e, syncOutputs lib job source index (path :: rest) s = (.error e, s) ∧
      ¬ Computes lib source index path (s.assets.lookup (stableAssetId job.id path))) ∨
    ∃ s', syncOutputs lib job source index (path :: rest) s =
        syncOutputs lib job source (index + 1) rest s' ∧
      Computes lib source index path (s.assets.lookup (stableAssetId job.id path)) ∧
      SyncWrites job.id s s' ∧ Filed lib job.id s' path ∧
      ∀ id, id ≠ stableAssetId job.id path → s'.assets.lookup id = s.assets.lookup id := by
  rw [syncOutputs]
  cases hasset : syncedAsset lib job source index path (s.assets.lookup (stableAssetId job.id path)) with
  | error e =>
    refine .inl ⟨e, by simp [syncEdit, hasset, Bind.bind, Except.bind], fun hcomputes => ?_⟩
    obtain ⟨asset, hok⟩ := hcomputes.syncedAsset job
    simp [hok] at hasset
  | ok asset =>
    obtain ⟨hcomputes, hid, hjob, -, hreuse⟩ := syncedAsset_spec hasset
    refine .inr ?_
    by_cases hsame : ∃ old, s.assets.lookup (stableAssetId job.id path) = some old ∧ old.state = asset.state
    · -- the file already says so
      obtain ⟨old, hold, hstate⟩ := hsame
      have hedit : syncEdit lib job source index path (s.assets.lookup (stableAssetId job.id path)) =
          .ok none := by
        have hany : (s.assets.lookup (stableAssetId job.id path)).any
            (fun old => decide (old.state = asset.state)) = true := by
          simp [hold, hstate]
        simp [syncEdit, hasset, Bind.bind, Except.bind, pure, Except.pure, hany]
      refine ⟨s, by simp only [hedit], hcomputes, .refl _ _, ⟨old, hold, ?_, ?_⟩, fun _ _ => rfl⟩
      · have hstateJob := congrArg Asset.jobId hstate
        exact hstateJob.trans hjob
      · have hmetadata : Obj.canon old.metadata = Obj.canon asset.metadata :=
          congrArg Asset.metadata hstate
        rwa [← readable_fileReuse_canon, hmetadata, readable_fileReuse_canon]
    · have hedit : syncEdit lib job source index path (s.assets.lookup (stableAssetId job.id path)) =
          .ok (some asset) := by
        have hany : (s.assets.lookup (stableAssetId job.id path)).any
            (fun old => decide (old.state = asset.state)) = false := by
          simpa [Option.any_eq_false] using hsame
        simp [syncEdit, hasset, Bind.bind, Except.bind, pure, Except.pure, hany]
      generalize hwritten : { asset with updatedAt := s.clock }.saved = written
      have hreuse' : Readable lib (fileReuse written.metadata) := by
        rw [← hwritten]
        exact readable_fileReuse_canon.mpr hreuse
      have hid' : written.id = stableAssetId job.id path := by rw [← hwritten]; exact hid
      have hjob' : written.jobId = job.id := by rw [← hwritten]; exact hjob
      have hself : (s.assets.insert written.id written).lookup (stableAssetId job.id path) = some written := by
        rw [← hid']
        exact AList.lookup_insert _
      have hother (id : AssetId) (h : id ≠ stableAssetId job.id path) :
          (s.assets.insert written.id written).lookup id = s.assets.lookup id :=
        AList.lookup_insert_ne (hid' ▸ h)
      refine ⟨{ s with assets := s.assets.insert written.id written, clock := s.clock + 1 },
        by simp only [hedit, hwritten], hcomputes, ⟨rfl, rfl, fun id => ?_⟩,
        ⟨written, hself, hjob', hreuse'⟩, hother⟩
      by_cases hkey : id = stableAssetId job.id path
      · subst hkey
        exact .inr ⟨path, written, rfl, hself, hid', hjob'⟩
      · exact .inl (hother id hkey)

theorem Filed.of_step {job : JobId} {s s' : Shelves} {path other : String} (h : Filed lib job s other)
    (hfiled : Filed lib job s' path)
    (hkeeps : ∀ id, id ≠ stableAssetId job path → s'.assets.lookup id = s.assets.lookup id) :
    Filed lib job s' other := by
  by_cases hkey : stableAssetId job other = stableAssetId job path
  · obtain ⟨-, rfl⟩ := stableAssetId_inj.mp hkey
    exact hfiled
  · obtain ⟨old, hold, hrest⟩ := h
    exact ⟨old, (hkeeps _ hkey).trans hold, hrest⟩

theorem syncOutputs_writes (job : JobRecord) (source : SyncSource) (paths : List String) (index : ℕ)
    (s : Shelves) : SyncWrites job.id s (syncOutputs lib job source index paths s).2 := by
  induction paths generalizing index s with
  | nil => exact .refl _ _
  | cons path rest ih =>
    rcases syncOutputs_cons lib job source index path rest s with ⟨e, heq, -⟩ | ⟨s', heq, -, hwrites, -⟩
    · rw [heq]
      exact .refl _ _
    · rw [heq]
      exact hwrites.trans (ih (index + 1) s')

/-- A loop that raised nothing has filed every output. -/
theorem filed_of_syncOutputs_ok {paths : List String} {index : ℕ} {s : Shelves}
    (h : (syncOutputs lib job source index paths s).1 = .ok ()) :
    (∀ path ∈ paths, Filed lib job.id (syncOutputs lib job source index paths s).2 path) ∧
      ∀ other, Filed lib job.id s other →
        Filed lib job.id (syncOutputs lib job source index paths s).2 other := by
  induction paths generalizing index s with
  | nil => exact ⟨by simp, fun _ h => h⟩
  | cons path rest ih =>
    rcases syncOutputs_cons lib job source index path rest s with
      ⟨e, heq, -⟩ | ⟨s', heq, -, -, hfiled, hkeeps⟩
    · rw [heq] at h
      cases h
    · rw [heq] at h ⊢
      obtain ⟨hpaths, hothers⟩ := ih h
      refine ⟨?_, fun other hother => hothers other (hother.of_step hfiled hkeeps)⟩
      rw [List.forall_mem_cons]
      exact ⟨hothers path hfiled, hpaths⟩

/-- A loop that raises nothing raises nothing later either, over files that are as they
were or have a reuse count. -/
theorem syncOutputs_ok_of_ok {paths : List String} {index : ℕ} {s t : Shelves}
    (h : (syncOutputs lib job source index paths s).1 = .ok ())
    (hfiles : ∀ path ∈ paths,
      t.assets.lookup (stableAssetId job.id path) = s.assets.lookup (stableAssetId job.id path) ∨
      ∀ asset ∈ t.assets.lookup (stableAssetId job.id path), Readable lib (fileReuse asset.metadata)) :
    (syncOutputs lib job source index paths t).1 = .ok () := by
  induction paths generalizing index s t with
  | nil => rfl
  | cons path rest ih =>
    rw [List.forall_mem_cons] at hfiles
    rcases syncOutputs_cons lib job source index path rest s with
      ⟨e, heq, -⟩ | ⟨s', heq, hcomputes, -, -, hkeeps⟩
    · rw [heq] at h
      cases h
    rcases syncOutputs_cons lib job source index path rest t with
      ⟨e, -, hnot⟩ | ⟨t', heq', -, -, ⟨filed, hlookup, -, hreuse⟩, hkeeps'⟩
    · refine absurd ?_ hnot
      rcases hfiles.1 with hsame | hreadable
      · rwa [hsame]
      · exact hcomputes.over hreadable
    rw [heq] at h
    rw [heq']
    refine ih h fun other hother => ?_
    by_cases hkey : stableAssetId job.id other = stableAssetId job.id path
    · -- the turn of this path has just filed it
      right
      intro asset hasset
      rw [hkey, hlookup] at hasset
      cases hasset
      exact hreuse
    · rw [hkeeps _ hkey, hkeeps' _ hkey]
      exact hfiles.2 other hother

theorem syncJob_writes (lib : Library) (job : JobRecord) (s : Shelves) : SyncWrites job.id s (syncJob lib job s).2 := by
  unfold syncJob
  split
  · split
    · exact syncOutputs_writes ..
    · exact .refl _ _
  · exact .refl _ _

/-- A succeeded job with an output has an asset once it has been synchronised. -/
theorem filed_of_syncJob_ok (hstatus : job.status = .succeeded) (houtput : HasOutput job)
    (h : (syncJob lib job s).1 = .ok ()) : ∃ path, Filed lib job.id (syncJob lib job s).2 path := by
  obtain ⟨result, hresult, path, hpath, hne⟩ := houtput
  simp only [syncJob, hresult, hstatus, if_true] at h ⊢
  refine ⟨path, (filed_of_syncOutputs_ok h).1 path ?_⟩
  simpa [syncSource] using ⟨hpath, hne⟩

/-- Synchronising twice raises nothing that synchronising once does not. -/
theorem syncJob_ok_again (h : (syncJob lib job s).1 = .ok ()) :
    (syncJob lib job (syncJob lib job s).2).1 = .ok () := by
  unfold syncJob at h ⊢
  split
  next result hresult =>
    rw [hresult] at h
    split
    next hstatus =>
      simp only [hstatus, if_true] at h ⊢
      refine syncOutputs_ok_of_ok h fun path hpath => .inr fun asset hasset => ?_
      obtain ⟨filed, hlookup, -, hreuse⟩ := (filed_of_syncOutputs_ok h).1 path hpath
      rw [hlookup] at hasset
      cases hasset
      exact hreuse
    · rfl
  · rfl

/-- Another job's assets make no difference. -/
theorem syncJob_ok_of_files {t : Shelves} (h : (syncJob lib job s).1 = .ok ())
    (hfiles : ∀ path, t.assets.lookup (stableAssetId job.id path) =
      s.assets.lookup (stableAssetId job.id path)) :
    (syncJob lib job t).1 = .ok () := by
  unfold syncJob at h ⊢
  split
  next result hresult =>
    rw [hresult] at h
    split
    next hstatus =>
      simp only [hstatus, if_true] at h
      exact syncOutputs_ok_of_ok h fun path _ => .inl (hfiles path)
    · rfl
  · rfl

/-- Marking the completion is nothing to `sync_job`. -/
theorem syncJob_completion (job : JobRecord) (state : CompletionState) (s : Shelves) :
    syncJob lib { job with completionState := state } s = syncJob lib job s := by
  have houtputs (source : SyncSource) (index : ℕ) (paths : List String) (s : Shelves) :
      syncOutputs lib { job with completionState := state } source index paths s =
        syncOutputs lib job source index paths s := by
    induction paths generalizing index s with
    | nil => rfl
    | cons path rest ih =>
      simp only [syncOutputs, ih]
      rfl
  unfold syncJob
  simp only [houtputs]

end Sync

/-! ## The primary asset of a job -/

/-- The primary asset of a job is one of its files. -/
theorem filed_of_primaryByJob {s : Shelves} {job : JobId} {asset : Asset}
    (h : s.primaryByJob job = some asset) :
    (∃ id, s.assets.lookup id = some asset) ∧ asset.jobId = job := by
  obtain ⟨hjob, hmem⟩ := And.intro (List.find?_some h) (List.mem_of_find?_eq_some h)
  refine ⟨?_, by simpa using hjob⟩
  rw [Shelves.listAssets, List.mem_insertionSort, List.mem_map] at hmem
  obtain ⟨⟨id, asset'⟩, hentry, rfl⟩ := hmem
  exact ⟨id, AList.mem_lookup_iff.mpr hentry⟩

theorem isSome_primaryByJob {s : Shelves} {job : JobId} :
    (s.primaryByJob job).isSome ↔ ∃ id asset, s.assets.lookup id = some asset ∧ asset.jobId = job := by
  constructor
  · intro h
    obtain ⟨asset, hasset⟩ := Option.isSome_iff_exists.mp h
    obtain ⟨⟨id, hid⟩, hjob⟩ := filed_of_primaryByJob hasset
    exact ⟨id, asset, hid, hjob⟩
  · rintro ⟨id, asset, hlookup, hjob⟩
    rw [Shelves.primaryByJob, List.find?_isSome]
    refine ⟨asset, ?_, by simpa using hjob⟩
    rw [Shelves.listAssets, List.mem_insertionSort, List.mem_map]
    exact ⟨⟨id, asset⟩, AList.mem_lookup_iff.mp hlookup, rfl⟩

/-! ## Binding -/

section Binding
variable {target : Target} {stories : Stories} {s : Shelves}

/-- The slot of the target, in every scene that goes by its id. -/
def SlotIs (target : Target) (stories : Stories) (slot : Option AssetId) : Prop :=
  ∃ story, stories.get? target.story = some story ∧
    (∃ scene ∈ story.scenes, scene.id = target.scene) ∧
    ∀ scene ∈ story.scenes, scene.id = target.scene → scene.slot target.role = slot

/-- A scene of the target remembers the job. -/
def Remembers (target : Target) (stories : Stories) (job : JobId) : Prop :=
  ∃ story, stories.get? target.story = some story ∧
    ∃ scene ∈ story.scenes, scene.id = target.scene ∧ job ∈ scene.jobIds

theorem SlotIs.inj {slot slot' : Option AssetId} (h : SlotIs target stories slot)
    (h' : SlotIs target stories slot') : slot = slot' := by
  obtain ⟨story, hstory, ⟨scene, hscene, hid⟩, hslot⟩ := h
  obtain ⟨story', hstory', -, hslot'⟩ := h'
  obtain rfl : story = story' := Option.some.inj (hstory.symm.trans hstory')
  exact (hslot scene hscene hid).symm.trans (hslot' scene hscene hid)

/-- The story that `mutate` leaves behind when `fn` has answered. -/
theorem mutate_some (now : ℕ) {id : StoryId} {fn : StoryDocument → Option StoryDocument}
    {story updated : StoryDocument} (hstory : stories.get? id = some story) (hfn : fn story = some updated)
    (hid : updated.id = story.id) :
    ∃ story', mutate stories now id fn = (some story', (mutate stories now id fn).2) ∧
      (mutate stories now id fn).2.get? id = some story' ∧ story'.scenes = updated.scenes := by
  simp only [mutate, hstory, hfn]
  split
  next heq => exact ⟨story, rfl, hstory, heq ▸ rfl⟩
  · refine ⟨_, rfl, Stories.get?_save ?_, rfl⟩
    exact hid.trans (Stories.id_of_get? hstory)

/-- What a binding leaves in the slot. -/
structure BoundTo (target : Target) (stories stories' : Stories) (job : JobId) (asset : AssetId) : Prop where
  slot : SlotIs target stories' (some asset)
  remembers : ∀ other, Remembers target stories' other ↔ Remembers target stories other ∨ other = job

theorem boundTo_mutate (now : ℕ) {replay : Bool} {job : JobId} (asset : AssetId) {slot : Option AssetId}
    (hslot : SlotIs target stories slot)
    (hopen : replay = true → slot = none ∧ ¬ Remembers target stories job) :
    (mutate stories now target.story (applyBinding replay target job asset)).1.isSome ∧
      BoundTo target stories
        (mutate stories now target.story (applyBinding replay target job asset)).2 job asset := by
  obtain ⟨story, hstory, hexists, hslots⟩ := hslot
  have hmatched : ¬ ∀ scene ∈ story.scenes, scene.id ≠ target.scene := by push Not; exact hexists
  have hskipped : ¬ (replay = true ∧ ∃ scene ∈ story.scenes, scene.id = target.scene ∧
      scene.Resolved target.role job) := by
    rintro ⟨hreplay, scene, hscene, hid, hresolved⟩
    obtain ⟨rfl, hforgot⟩ := hopen hreplay
    rcases hresolved with hmem | ⟨asset, hasset, -⟩
    · exact hforgot ⟨story, hstory, scene, hscene, hid, hmem⟩
    · rw [hslots scene hscene hid] at hasset
      cases hasset
  have hfn : applyBinding replay target job asset story = some { story with
      scenes := story.scenes.map fun scene =>
        if scene.id = target.scene then scene.bind target.role asset job else scene } := by
    rw [applyBinding, if_neg hmatched, if_neg hskipped]
  obtain ⟨story', hsome, hget, hscenes⟩ := mutate_some now hstory hfn rfl
  simp only at hscenes
  refine ⟨by rw [hsome]; rfl, ⟨story', hget, ?_, ?_⟩, fun other => ⟨?_, ?_⟩⟩
  · obtain ⟨scene, hscene, hid⟩ := hexists
    rw [hscenes]
    exact ⟨_, List.mem_map_of_mem hscene, by rw [if_pos hid]; exact hid⟩
  · intro scene' hscene' hid'
    rw [hscenes, List.mem_map] at hscene'
    obtain ⟨scene, hscene, rfl⟩ := hscene'
    by_cases hid : scene.id = target.scene
    · simp [hid, Scene.slot, Scene.bind]
    · rw [if_neg hid] at hid'
      exact absurd hid' hid
  · rintro ⟨story'', hstory'', scene', hscene', hid', hmem⟩
    obtain rfl : story' = story'' := Option.some.inj (hget.symm.trans hstory'')
    rw [hscenes, List.mem_map] at hscene'
    obtain ⟨scene, hscene, rfl⟩ := hscene'
    by_cases hid : scene.id = target.scene
    · rw [if_pos hid] at hmem
      have hmem' : other ∈ scene.jobIds ∨ other = job := by
        simp only [Scene.bind] at hmem
        split at hmem
        · exact .inl hmem
        · simpa using hmem
      exact hmem'.imp_left fun h => ⟨story, hstory, scene, hscene, hid, h⟩
    · rw [if_neg hid] at hid'
      exact absurd hid' hid
  · intro hother
    have hscene : ∃ scene ∈ story.scenes, scene.id = target.scene ∧ (other ∈ scene.jobIds ∨ other = job) := by
      rcases hother with ⟨story'', hstory'', scene, hscene, hid, hmem⟩ | rfl
      · obtain rfl : story = story'' := Option.some.inj (hstory.symm.trans hstory'')
        exact ⟨scene, hscene, hid, .inl hmem⟩
      · obtain ⟨scene, hscene, hid⟩ := hexists
        exact ⟨scene, hscene, hid, .inr rfl⟩
    obtain ⟨scene, hscene, hid, hmem⟩ := hscene
    refine ⟨story', hget, scene.bind target.role asset job, ?_, hid, ?_⟩
    · rw [hscenes, List.mem_map]
      exact ⟨scene, hscene, if_pos hid⟩
    · simp only [Scene.bind]
      split
      next hin => exact hmem.elim (fun h => h) fun h => h ▸ hin
      · simpa using hmem

/-- A replay leaves a slot alone that is taken, or a scene that remembers the job. -/
theorem mutate_resolved {now : ℕ} {job : JobId} {asset : AssetId} {slot : Option AssetId}
    (hslot : SlotIs target stories slot)
    (h : (∃ held, slot = some held ∧ held ≠ "") ∨ Remembers target stories job) :
    mutate stories now target.story (applyBinding true target job asset) = (none, stories) := by
  obtain ⟨story, hstory, ⟨scene, hscene, hid⟩, hslots⟩ := hslot
  have hresolved : ∃ scene ∈ story.scenes, scene.id = target.scene ∧ scene.Resolved target.role job := by
    rcases h with ⟨held, rfl, hne⟩ | ⟨story', hstory', scene', hscene', hid', hmem⟩
    · exact ⟨scene, hscene, hid, .inr ⟨held, hslots scene hscene hid, hne⟩⟩
    · obtain rfl : story = story' := Option.some.inj (hstory.symm.trans hstory')
      exact ⟨scene', hscene', hid', .inl hmem⟩
  have hfn : applyBinding true target job asset story = none := by
    rw [applyBinding, if_neg (by push Not; exact ⟨scene, hscene, hid⟩), if_pos ⟨rfl, hresolved⟩]
  simp only [mutate, hstory, hfn]

@[simp] theorem jobs_bindJob (replay : Bool) (id : JobId) (s : Shelves) :
    (bindJob replay id s).2.jobs = s.jobs := rfl

@[simp] theorem assets_bindJob (replay : Bool) (id : JobId) (s : Shelves) :
    (bindJob replay id s).2.assets = s.assets := rfl

/-- The row of a succeeded job for the slot. -/
structure Entry (target : Target) (s : Shelves) (id : JobId) (job : JobRecord) : Prop where
  row : s.job? id = some job
  status : job.status = .succeeded
  target : selectSceneBoundParams job.request.params = some target

theorem Entry.bindJob_eq (replay : Bool) {id : JobId} {job : JobRecord} {asset : Asset}
    (h : Entry target s id job) (hid : job.id = id) (hasset : s.primaryByJob id = some asset) :
    ((bindJob replay id s).1, (bindJob replay id s).2.stories) =
      mutate s.stories s.clock target.story (applyBinding replay target id asset.id) := by
  simp [bindJob, Story.bind, h.row, h.status, h.target, hasset, hid]

/-- A job with an asset is bound, live or onto a slot that is still empty. -/
theorem Entry.bound (replay : Bool) {id : JobId} {job : JobRecord} {asset : Asset}
    {slot : Option AssetId} (h : Entry target s id job) (hid : job.id = id)
    (hasset : s.primaryByJob id = some asset) (hslot : SlotIs target s.stories slot)
    (hopen : replay = true → slot = none ∧ ¬ Remembers target s.stories id) :
    (bindJob replay id s).1.isSome ∧
      BoundTo target s.stories (bindJob replay id s).2.stories id asset.id := by
  have heq := h.bindJob_eq replay hid hasset
  have hbound := boundTo_mutate s.clock asset.id hslot hopen
  rw [← heq] at hbound
  exact hbound

/-- Without an asset nothing is bound. -/
theorem bindJob_of_primaryByJob_eq_none {replay : Bool} {id : JobId} (h : s.primaryByJob id = none) :
    (bindJob replay id s).1 = none ∧ (bindJob replay id s).2.stories = s.stories := by
  simp only [bindJob, Story.bind, h, Option.map_none]
  split
  · exact ⟨rfl, rfl⟩
  · split
    · exact ⟨rfl, rfl⟩
    · split
      next hnone => cases hnone
      · exact ⟨rfl, rfl⟩

/-- A replay that finds the slot taken, or its job remembered, changes no story. -/
theorem Entry.resolved {id : JobId} {job : JobRecord} {slot : Option AssetId}
    (h : Entry target s id job) (hid : job.id = id) (hslot : SlotIs target s.stories slot)
    (hresolved : (∃ held, slot = some held ∧ held ≠ "") ∨ Remembers target s.stories id) :
    (bindJob true id s).1 = none ∧ (bindJob true id s).2.stories = s.stories := by
  cases hasset : s.primaryByJob id with
  | none => exact bindJob_of_primaryByJob_eq_none hasset
  | some asset =>
    have heq := h.bindJob_eq true hid hasset
    rw [mutate_resolved hslot hresolved] at heq
    exact Prod.mk.inj heq

end Binding

/-! ## The winner -/

/-- The order in which candidates are ranked: by `(created_at, id)`. -/
def rank (job : JobRecord) : ℕ ×ₗ ℕ := toLex (job.createdAt, job.id)

theorem newer_iff {a b : JobRecord} : Newer a b ↔ rank b < rank a := by
  rw [rank, rank, Prod.Lex.toLex_lt_toLex, Newer]
  simp only [eq_comm]

theorem selectWinner_spec (first : JobRecord) (rest : List JobRecord) :
    selectWinner first rest ∈ first :: rest ∧
      ∀ job ∈ first :: rest, rank job ≤ rank (selectWinner first rest) := by
  induction rest generalizing first with
  | nil => simp [selectWinner]
  | cons job rest ih =>
    obtain ⟨hmem, hmax⟩ := ih (if Newer job first then job else first)
    have heq : selectWinner first (job :: rest) =
        selectWinner (if Newer job first then job else first) rest := rfl
    rw [heq]
    have hbest : rank first ≤ rank (if Newer job first then job else first) ∧
        rank job ≤ rank (if Newer job first then job else first) := by
      split
      next hnewer => exact ⟨(newer_iff.mp hnewer).le, le_rfl⟩
      next hnewer => exact ⟨le_rfl, not_lt.mp fun hlt => hnewer (newer_iff.mpr hlt)⟩
    have hhead := hmax _ List.mem_cons_self
    refine ⟨?_, ?_⟩
    · rcases List.mem_cons.mp hmem with hmem | hmem
      · rw [hmem]
        split <;> simp
      · exact List.mem_cons_of_mem _ (List.mem_cons_of_mem _ hmem)
    · intro other hother
      rcases List.mem_cons.mp hother with rfl | hother
      · exact hbest.1.trans hhead
      rcases List.mem_cons.mp hother with rfl | hother
      · exact hbest.2.trans hhead
      · exact hmax other (List.mem_cons_of_mem _ hother)

/-- A usable candidate is the winner when none ranks above it. -/
theorem id_chooseWinner_eq_iff (job : JobRecord) (usable : List JobRecord)
    (hmem : ∃ candidate ∈ usable, candidate.id = job.id)
    (hcreated : ∀ candidate ∈ usable, candidate.id = job.id → candidate.createdAt = job.createdAt) :
    (chooseWinner job usable).id = job.id ↔ ∀ other ∈ usable, rank other ≤ rank job := by
  obtain ⟨candidate, hcandidate, hid⟩ := hmem
  cases usable with
  | nil => cases hcandidate
  | cons first rest =>
    obtain ⟨hwinner, hmax⟩ := selectWinner_spec first rest
    constructor
    · intro h other hother
      have hrank : rank (selectWinner first rest) = rank job := by
        rw [rank, rank, hcreated _ hwinner h, show (selectWinner first rest).id = job.id from h]
      exact hrank ▸ hmax other hother
    · intro h
      have hrank : rank candidate = rank job := by
        rw [rank, rank, hcreated _ hcandidate hid, hid]
      have heq := le_antisymm (h _ hwinner) (hrank ▸ hmax _ hcandidate)
      simp only [rank, EmbeddingLike.apply_eq_iff_eq, Prod.mk.injEq] at heq
      exact heq.2

/-! ## The candidate index -/

theorem mem_candidates_build {target : Target} {s : Shelves} {job : JobRecord} :
    job ∈ ((buildSceneCandidateIndex s).forTarget target).1 ↔ ∃ id, Entry target s id job := by
  simp only [SceneCandidateIndex.forTarget, buildSceneCandidateIndex, List.mem_filter,
    List.mem_insertionSort, List.mem_filterMap, decide_eq_true_eq]
  constructor
  · rintro ⟨⟨⟨id, entry⟩, hentry, hjob⟩, htarget⟩
    cases entry with
    | poison raw params => cases hjob
    | record row =>
      simp only at hjob
      split at hjob
      next hcandidate =>
        obtain rfl := Option.some.inj hjob
        exact ⟨id, job?_eq_some.mpr (AList.mem_lookup_iff.mpr hentry), hcandidate.1, htarget⟩
      · cases hjob
  · rintro ⟨id, hrow, hstatus, htarget⟩
    refine ⟨⟨⟨id, .record job⟩, AList.mem_lookup_iff.mp (job?_eq_some.mp hrow), ?_⟩, htarget⟩
    simp [hstatus, htarget]

/-- The row is undecodable, and may be a succeeded job for the slot. -/
def MayTarget (target : Target) : JobEntry → Prop
  | .poison (.known .succeeded) params => ∀ p, params = some p → poisonedKey p = some target
  | _ => False

theorem tainted_build {target : Target} {s : Shelves} :
    ((buildSceneCandidateIndex s).forTarget target).2 = true ↔
      ∃ id entry, s.jobs.lookup id = some entry ∧ MayTarget target entry := by
  simp only [SceneCandidateIndex.forTarget, buildSceneCandidateIndex, Bool.or_eq_true, List.any_eq_true,
    decide_eq_true_eq, List.mem_filterMap]
  constructor
  · rintro (⟨⟨id, entry⟩, hentry, h⟩ | ⟨⟨id, entry⟩, hentry, h⟩)
    · refine ⟨id, entry, AList.mem_lookup_iff.mpr hentry, ?_⟩
      simp only at h
      split at h
      · exact fun p hp => by cases hp
      · cases h
    · refine ⟨id, entry, AList.mem_lookup_iff.mpr hentry, ?_⟩
      simp only at h
      split at h
      · exact fun p hp => by cases hp; exact h
      · cases h
  · rintro ⟨id, entry, hentry, h⟩
    have hmem := AList.mem_lookup_iff.mp hentry
    unfold MayTarget at h
    split at h
    next params =>
      cases params with
      | none => exact .inl ⟨_, hmem, rfl⟩
      | some p => exact .inr ⟨_, hmem, h p rfl⟩
    · cases h

/-! ## Converging the story of a job -/

section Converge
variable {target : Target} {s : Shelves} {job : JobRecord}

/-- The candidates of the slot that could fill it. -/
def usable (index : SceneCandidateIndex) (target : Target) (s : Shelves) : List JobRecord :=
  (index.forTarget target).1.filter fun candidate => HasUsableOutput s candidate

/-- What it takes to fill the slot: it is empty, no scene remembers the job, and among the
usable candidates, none of which is in doubt, the job is the winner. -/
structure Fills (target : Target) (index : SceneCandidateIndex) (s : Shelves) (job : JobRecord) : Prop where
  slot : SlotIs target s.stories none
  forgotten : ¬ Remembers target s.stories job.id
  output : HasUsableOutput s job
  certain : (index.forTarget target).2 = false
  winner : (chooseWinner job (usable index target s)).id = job.id

/-- A job that fills the slot is bound by its convergence; another one changes no story,
and converges unless it has found the slot empty and is without an output, in doubt, or
remembered. -/
theorem convergeSceneBinding_spec (index : Option SceneCandidateIndex) {slot : Option AssetId}
    (h : Entry target s job.id job) (hslot : SlotIs target s.stories slot) (hne : slot ≠ some "")
    (hasset : HasUsableOutput s job → (s.primaryByJob job.id).isSome) :
    (convergeSceneBinding job index s).2.jobs = s.jobs ∧
    (convergeSceneBinding job index s).2.assets = s.assets ∧
    ((Fills target (index.getD (buildSceneCandidateIndex s)) s job ∧
        (convergeSceneBinding job index s).1 = .converged ∧
        ∃ asset, s.primaryByJob job.id = some asset ∧
          BoundTo target s.stories (convergeSceneBinding job index s).2.stories job.id asset.id) ∨
      (¬ Fills target (index.getD (buildSceneCandidateIndex s)) s job ∧
        (convergeSceneBinding job index s).2.stories = s.stories ∧
        ((convergeSceneBinding job index s).1 = .converged ∨ slot = none ∧
          (¬ HasUsableOutput s job ∨
            ((index.getD (buildSceneCandidateIndex s)).forTarget target).2 = true ∨
            Remembers target s.stories job.id ∧
              (chooseWinner job (usable (index.getD (buildSceneCandidateIndex s)) target s)).id =
                job.id)))) := by
  have hslot' := hslot
  obtain ⟨story, hstory, ⟨scene, hscene, hsceneId⟩, hslots⟩ := hslot'
  have hfile := Stories.get?_eq_some.mp hstory
  have hfirst : ∃ scene, story.scene? target.scene = some scene := by
    rw [← Option.isSome_iff_exists, StoryDocument.scene?, List.find?_isSome]
    exact ⟨scene, hscene, by simpa using hsceneId⟩
  clear scene hscene hsceneId
  obtain ⟨scene, hscene?⟩ := hfirst
  have hscene := List.mem_of_find?_eq_some hscene?
  have hsceneId : scene.id = target.scene := by simpa using List.find?_some hscene?
  have hslotEq := hslots scene hscene hsceneId
  simp only [convergeSceneBinding, h.target, hfile, hscene?]
  by_cases htaken : job.id ∈ scene.jobIds ∨ (scene.slot target.role).isSome
  · -- settled already: the replay changes nothing
    rw [if_pos htaken]
    have hresolved : (∃ held, slot = some held ∧ held ≠ "") ∨ Remembers target s.stories job.id := by
      rcases htaken with hmem | hsome
      · exact .inr ⟨story, hstory, scene, hscene, hsceneId, hmem⟩
      · rw [hslotEq] at hsome
        obtain ⟨held, rfl⟩ := Option.isSome_iff_exists.mp hsome
        exact .inl ⟨held, rfl, by simpa using hne⟩
    refine ⟨rfl, rfl, .inr ⟨fun hfills => ?_, (h.resolved rfl hslot hresolved).2, .inl rfl⟩⟩
    rcases hresolved with ⟨held, rfl, -⟩ | hremembers
    · cases hslot.inj hfills.slot
    · exact hfills.forgotten hremembers
  rw [if_neg htaken]
  rw [not_or, Option.not_isSome_iff_eq_none, hslotEq] at htaken
  obtain ⟨-, rfl⟩ := htaken
  by_cases houtput : HasUsableOutput s job
  swap
  · rw [if_pos houtput]
    exact ⟨rfl, rfl, .inr ⟨fun hfills => houtput hfills.output, rfl, .inr ⟨rfl, .inl houtput⟩⟩⟩
  rw [if_neg (not_not.mpr houtput)]
  generalize index.getD (buildSceneCandidateIndex s) = built
  by_cases htainted : (built.forTarget target).2 = true
  · rw [if_pos htainted]
    refine ⟨rfl, rfl, .inr ⟨fun hfills => ?_, rfl, .inr ⟨rfl, .inr (.inl htainted)⟩⟩⟩
    rw [hfills.certain] at htainted
    cases htainted
  rw [if_neg htainted]
  by_cases hwinner : (chooseWinner job (usable built target s)).id = job.id
  swap
  · rw [if_pos (by exact hwinner)]
    exact ⟨rfl, rfl, .inr ⟨fun hfills => hwinner hfills.winner, rfl, .inl rfl⟩⟩
  rw [if_neg (by exact not_not.mpr hwinner)]
  obtain ⟨asset, hprimary⟩ := Option.isSome_iff_exists.mp (hasset houtput)
  by_cases hremembers : Remembers target s.stories job.id
  · -- another scene of that id remembers the job
    obtain ⟨hnone, hstories⟩ := h.resolved rfl hslot (.inr hremembers)
    have hpair : bindJob true job.id s = (none, (bindJob true job.id s).2) := Prod.ext hnone rfl
    rw [hpair]
    refine ⟨rfl, rfl, .inr ⟨fun hfills => hfills.forgotten hremembers, hstories,
      .inr ⟨rfl, .inr (.inr ⟨hremembers, hwinner⟩)⟩⟩⟩
  · obtain ⟨hsome, hbound⟩ := h.bound true rfl hprimary hslot fun _ => ⟨rfl, hremembers⟩
    obtain ⟨bound, hboundEq⟩ := Option.isSome_iff_exists.mp hsome
    have hpair : bindJob true job.id s = (some bound, (bindJob true job.id s).2) := Prod.ext hboundEq rfl
    rw [hpair]
    exact ⟨rfl, rfl, .inl ⟨⟨hslot, hremembers, houtput, by simpa using htainted, hwinner⟩, rfl,
      asset, hprimary, hbound⟩⟩

end Converge

end CreativeStudio.Story
