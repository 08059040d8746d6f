import CreativeStudio.Assets.Repository
import CreativeStudio.Storage.Database

/-!
# The asset directory

`sync_job` writes one asset for each output of a job, and leaves a file alone that says so
already. The other operations change one asset, or the project of all assets of a job. Whatever
writes an asset gives it the time, which is also what the assets are listed by.
-/

namespace CreativeStudio.Assets
open Data Jobs Batches Storage

/-- The asset directory, and the time. A file is named after its asset; one may hold what does not
load. -/
structure AssetRepository where
  files : AList fun _ : AssetId => Column Asset
  clock : ℕ
  named : ∀ id asset, files.lookup id = some (.value asset) → asset.id = id

namespace AssetRepository

/-- `get`. -/
def get? (repo : AssetRepository) (id : AssetId) : Option Asset := (repo.files.lookup id).bind Column.get?

/-- An asset gets the time and is saved. -/
def stamp (repo : AssetRepository) (asset : Asset) : Asset × AssetRepository :=
  ({ asset with updatedAt := repo.clock + 1 }, {
    files := repo.files.insert asset.id (.value { asset with updatedAt := repo.clock + 1 }.saved)
    clock := repo.clock + 1
    named := fun id asset' h => by
      by_cases hid : id = asset.id
      · subst hid
        rw [AList.lookup_insert] at h
        obtain rfl := Column.value.inj (Option.some.inj h)
        rfl
      · rw [AList.lookup_insert_ne hid] at h
        exact repo.named id asset' h })

/-- `list_all`, without its filters. -/
def listAll (repo : AssetRepository) : List Asset :=
  ((repo.files.keys.insertionSort fun a b => a ++ ".json" ≤ b ++ ".json").filterMap repo.get?).insertionSort
    fun a b => b.updatedAt ≤ a.updatedAt

/-- `get_by_job`. -/
def getByJob (repo : AssetRepository) (job : JobId) : List Asset := repo.listAll.filter fun asset => asset.jobId = job

/-- `get_primary_by_job`. -/
def getPrimaryByJob (repo : AssetRepository) (job : JobId) : Option Asset := (repo.getByJob job).head?

/-- The loop of `sync_job`, over the outputs with their places. -/
def syncOutputs (lib : Library) (job : JobRecord) (source : SyncSource) :
    List (String × ℕ) → AssetRepository → Except Exc (List Asset) × AssetRepository
  | [], repo => (.ok [], repo)
  | (path, index) :: rest, repo =>
    let existing := repo.get? (stableAssetId job.id path)
    match syncEdit lib job source index path existing with
    | .error e => (.error e, repo)
    | .ok none =>
      let (synced, repo) := syncOutputs lib job source rest repo
      (synced.map fun assets => existing.toList ++ assets, repo)
    | .ok (some asset) =>
      let (asset, repo) := repo.stamp asset
      let (synced, repo) := syncOutputs lib job source rest repo
      (synced.map fun assets => asset :: assets, repo)

/-- `sync_job`. -/
def syncJob (lib : Library) (job : JobRecord) (repo : AssetRepository) : Except Exc (List Asset) × AssetRepository :=
  match job.result with
  | none => (.ok [], repo)
  | some result =>
    if job.status ≠ .succeeded then (.ok [], repo)
    else syncOutputs lib job (syncSource result) (syncSource result).outputs.zipIdx repo

/-- Change an asset that is there; `none` says that nothing changes. -/
def edit (repo : AssetRepository) (id : AssetId) (change : Asset → Option Asset) : Option Asset × AssetRepository :=
  match repo.get? id with
  | none => (none, repo)
  | some asset =>
    match change asset with
    | none => (some asset, repo)
    | some edited => ((repo.stamp edited).1, (repo.stamp edited).2)

/-- `bind_project`. -/
def bindProject (repo : AssetRepository) (id : AssetId) (projectId : Option String) : Option Asset × AssetRepository :=
  repo.edit id (bindProjectEdit projectId)

/-- The loop of `bind_job_assets`, over the assets as they were listed. -/
def bindAssets (projectId : Option String) : List Asset → AssetRepository → List Asset × AssetRepository
  | [], repo => ([], repo)
  | asset :: rest, repo =>
    match bindProjectEdit projectId asset with
    | none => (asset :: (bindAssets projectId rest repo).1, (bindAssets projectId rest repo).2)
    | some bound =>
      let (bound, repo) := repo.stamp bound
      (bound :: (bindAssets projectId rest repo).1, (bindAssets projectId rest repo).2)

/-- `bind_job_assets`. -/
def bindJobAssets (repo : AssetRepository) (job : JobId) (projectId : Option String) : List Asset × AssetRepository :=
  bindAssets projectId (repo.getByJob job) repo

/-- `mark_reused`. -/
def markReused (lib : Library) (repo : AssetRepository) (id : AssetId) (action : String)
    (derivedJobId : Option String) :
    Except Exc (Option Asset) × AssetRepository :=
  match repo.get? id with
  | none => (.ok none, repo)
  | some asset =>
    match markReusedEdit lib action derivedJobId asset with
    | .error e => (.error e, repo)
    | .ok none => (.ok (some asset), repo)
    | .ok (some edited) => (.ok (repo.stamp edited).1, (repo.stamp edited).2)

/-- `record_export`. -/
def recordExport (repo : AssetRepository) (id : AssetId) (exportPath : String) : Option Asset × AssetRepository :=
  repo.edit id (recordExportEdit exportPath)

end AssetRepository

/-- A call on the asset repository. -/
inductive AssetAction
  | syncJob (job : JobRecord)
  | bindProject (id : AssetId) (projectId : Option String)
  | bindJobAssets (job : JobId) (projectId : Option String)
  | markReused (id : AssetId) (action : String) (derivedJobId : Option String)
  | recordExport (id : AssetId) (exportPath : String)

namespace AssetRepository
variable (lib : Library)

/-- What a call leaves behind, whether it returns or raises. -/
def apply (repo : AssetRepository) : AssetAction → AssetRepository
  | .syncJob job => (repo.syncJob lib job).2
  | .bindProject id projectId => (repo.bindProject id projectId).2
  | .bindJobAssets job projectId => (repo.bindJobAssets job projectId).2
  | .markReused id action derivedJobId => (repo.markReused lib id action derivedJobId).2
  | .recordExport id exportPath => (repo.recordExport id exportPath).2

/-- One call after the other. -/
def applyAll (repo : AssetRepository) (actions : List AssetAction) : AssetRepository := actions.foldl (apply lib) repo

/-! ## What a write leaves alone -/

variable {lib} {repo : AssetRepository} {id : AssetId} {asset : Asset}

theorem get?_eq_some : repo.get? id = some asset ↔ repo.files.lookup id = some (.value asset) := by
  unfold get?
  rcases repo.files.lookup id with _ | (asset' | _) <;> simp [Column.get?]

theorem id_of_get? (h : repo.get? id = some asset) : asset.id = id := repo.named id asset (get?_eq_some.mp h)

theorem get?_stamp (repo : AssetRepository) (asset : Asset) (id : AssetId) :
    (repo.stamp asset).2.get? id =
      if id = asset.id then some { asset with updatedAt := repo.clock + 1 }.saved else repo.get? id := by
  unfold get? stamp
  split
  next h =>
    subst h
    simp [Column.get?]
  next h => rw [AList.lookup_insert_ne h]

/-- What is listed is what the files hold. -/
theorem mem_listAll : asset ∈ repo.listAll ↔ repo.get? asset.id = some asset := by
  unfold listAll
  rw [List.mem_insertionSort, List.mem_filterMap]
  constructor
  · rintro ⟨id, -, h⟩
    rwa [id_of_get? h]
  · intro h
    refine ⟨asset.id, ?_, h⟩
    rw [List.mem_insertionSort, ← AList.mem_keys, ← AList.lookup_isSome, get?_eq_some.mp h]
    rfl

theorem mem_getByJob {job : JobId} :
    asset ∈ repo.getByJob job ↔ repo.get? asset.id = some asset ∧ asset.jobId = job := by
  rw [getByJob, List.mem_filter, mem_listAll, decide_eq_true_eq]

/-- What has been written is listed. -/
theorem mem_getByJob_stamp (repo : AssetRepository) {job : JobId} (hjob : asset.jobId = job) :
    (repo.stamp asset).1.saved ∈ (repo.stamp asset).2.getByJob job := by
  refine mem_getByJob.mpr ⟨?_, hjob⟩
  have hself := get?_stamp repo asset asset.id
  rwa [if_pos rfl] at hself

/-! ## What a call writes -/

/-- The second directory comes from the first one by writing assets with a property. -/
inductive Written (P : Asset → Prop) (repo : AssetRepository) : AssetRepository → Prop
  | refl : Written P repo repo
  | stamp {repo' : AssetRepository} {asset : Asset} (h : Written P repo repo') (hasset : P asset) :
      Written P repo (repo'.stamp asset).2

variable {P Q : Asset → Prop} {repo' : AssetRepository}

theorem Written.single (hasset : P asset) : Written P repo (repo.stamp asset).2 := .stamp .refl hasset

theorem Written.trans {repo'' : AssetRepository} (h : Written P repo repo') (h' : Written P repo' repo'') :
    Written P repo repo'' := by
  induction h' with
  | refl => exact h
  | stamp _ hasset ih => exact ih.stamp hasset

theorem Written.mono (h : Written P repo repo') (himp : ∀ asset, P asset → Q asset) : Written Q repo repo' := by
  induction h with
  | refl => exact .refl
  | stamp _ hasset ih => exact ih.stamp (himp _ hasset)

/-- No file goes away. -/
theorem Written.isSome (h : Written P repo repo') (hsome : (repo.get? id).isSome) : (repo'.get? id).isSome := by
  induction h with
  | refl => exact hsome
  | stamp _ _ ih =>
    rw [get?_stamp]
    split
    · rfl
    · exact ih

/-- What is true of the names and jobs in the directory stays true when it is true of those
written. -/
theorem Written.all {R : AssetId → JobId → Prop} (h : Written (fun asset => R asset.id asset.jobId) repo repo')
    (hall : ∀ id asset, repo.get? id = some asset → R id asset.jobId) :
    ∀ id asset, repo'.get? id = some asset → R id asset.jobId := by
  induction h with
  | refl => exact hall
  | stamp _ hasset ih =>
    intro id asset hget
    rw [get?_stamp] at hget
    split at hget
    next hid =>
      obtain rfl := Option.some.inj hget
      rw [hid]
      exact hasset
    next => exact ih id asset hget

/-- No asset of a job is newer than the time. -/
theorem Written.updatedAt_le {job : JobId} (h : Written P repo repo')
    (hold : ∀ id asset, repo.get? id = some asset → asset.jobId = job → asset.updatedAt ≤ repo.clock) :
    ∀ id asset, repo'.get? id = some asset → asset.jobId = job → asset.updatedAt ≤ repo'.clock := by
  induction h with
  | refl => exact hold
  | @stamp repo' _ _ _ ih =>
    intro id asset hget hjob
    rw [get?_stamp] at hget
    split at hget
    · obtain rfl := Option.some.inj hget
      exact le_refl _
    · exact (ih id asset hget hjob).trans (Nat.le_succ _)

/-- A change leaves the directory alone, or writes the changed asset. -/
theorem edit_cases (repo : AssetRepository) (id : AssetId) (change : Asset → Option Asset) :
    (repo.edit id change).2 = repo ∨ ∃ asset edited, repo.get? id = some asset ∧ change asset = some edited ∧
      (repo.edit id change).2 = (repo.stamp edited).2 := by
  unfold edit
  cases repo.get? id with
  | none => exact .inl rfl
  | some asset =>
    cases hedited : change asset with
    | none => exact .inl (by simp only [hedited])
    | some edited => exact .inr ⟨asset, edited, rfl, hedited, by simp only [hedited]⟩

theorem markReused_cases (repo : AssetRepository) (id : AssetId) (action : String) (derivedJobId : Option String) :
    (repo.markReused lib id action derivedJobId).2 = repo ∨ ∃ asset edited, repo.get? id = some asset ∧
      markReusedEdit lib action derivedJobId asset = .ok (some edited) ∧
      (repo.markReused lib id action derivedJobId).2 = (repo.stamp edited).2 := by
  unfold markReused
  cases repo.get? id with
  | none => exact .inl rfl
  | some asset =>
    rcases hedited : markReusedEdit lib action derivedJobId asset with _ | _ | edited
    · exact .inl (by simp only [hedited])
    · exact .inl (by simp only [hedited])
    · exact .inr ⟨asset, edited, rfl, hedited, by simp only [hedited]⟩

theorem written_edit (id : AssetId) {change : Asset → Option Asset}
    (hchange : ∀ asset edited, change asset = some edited → edited.id = asset.id ∧ edited.jobId = asset.jobId) :
    Written (fun asset => ∃ old, repo.get? asset.id = some old ∧ asset.jobId = old.jobId) repo
      (repo.edit id change).2 := by
  rcases repo.edit_cases id change with hsame | ⟨old, edited, hget, hedited, hwritten⟩
  · rw [hsame]
    exact .refl
  · obtain ⟨hid, hjob⟩ := hchange old edited hedited
    rw [hwritten]
    exact .single ⟨old, by rwa [hid, id_of_get? hget], hjob⟩

theorem bindProjectEdit_eq_some {projectId : Option String} {edited : Asset}
    (h : bindProjectEdit projectId asset = some edited) : edited.id = asset.id ∧ edited.jobId = asset.jobId := by
  unfold bindProjectEdit at h
  split at h
  · cases h
  · obtain rfl := Option.some.inj h
    exact ⟨rfl, rfl⟩

theorem recordExportEdit_eq_some {exportPath : String} {edited : Asset}
    (h : recordExportEdit exportPath asset = some edited) : edited.id = asset.id ∧ edited.jobId = asset.jobId := by
  unfold recordExportEdit at h
  generalize (if exportPath ∈ asset.exportPaths then asset.exportPaths
    else asset.exportPaths ++ [exportPath]) = exportPaths at h
  dsimp only at h
  split at h
  · cases h
  · obtain rfl := Option.some.inj h
    exact ⟨rfl, rfl⟩

theorem written_bindAssets (projectId : Option String) (assets : List Asset) :
    Written (fun asset => ∃ old ∈ assets, asset.id = old.id ∧ asset.jobId = old.jobId) repo
      (bindAssets projectId assets repo).2 := by
  induction assets generalizing repo with
  | nil => exact .refl
  | cons first rest ih =>
    have hrest (repo : AssetRepository) := (@ih repo).mono fun asset hasset => by
      obtain ⟨old, hold, hsame⟩ := hasset
      exact (⟨old, List.mem_cons_of_mem _ hold, hsame⟩ :
        ∃ old ∈ first :: rest, asset.id = old.id ∧ asset.jobId = old.jobId)
    rw [bindAssets]
    cases hbound : bindProjectEdit projectId first with
    | none => exact hrest repo
    | some bound =>
      exact (Written.single ⟨first, List.mem_cons_self, bindProjectEdit_eq_some hbound⟩).trans (hrest _)

theorem written_markReused (id : AssetId) (action : String) (derivedJobId : Option String) :
    Written (fun asset => ∃ old, repo.get? asset.id = some old ∧ asset.jobId = old.jobId) repo
      (repo.markReused lib id action derivedJobId).2 := by
  rcases repo.markReused_cases id action derivedJobId with hsame | ⟨old, edited, hget, hedited, hwritten⟩
  · rw [hsame]
    exact .refl
  · obtain ⟨reuseCount, -, hedited⟩ := bind_eq_ok.mp hedited
    obtain rfl := Option.some.inj (Except.ok.inj hedited)
    rw [hwritten]
    exact .single ⟨old, by rwa [← id_of_get? hget] at hget, rfl⟩

theorem syncedAsset_eq_ok {job : JobRecord} {source : SyncSource} {index : ℕ} {path : String} {existing : Option Asset}
    (h : syncedAsset lib job source index path existing = .ok asset) :
    asset.id = stableAssetId job.id path ∧ asset.jobId = job.id := by
  obtain ⟨reuseCount, -, h⟩ := bind_eq_ok.mp h
  obtain rfl := Except.ok.inj h
  exact ⟨rfl, rfl⟩

/-- What `sync_job` does about one output: it leaves the asset as it is, or writes one. -/
theorem syncEdit_eq_ok {job : JobRecord} {source : SyncSource} {index : ℕ} {path : String} {existing : Option Asset}
    {edit : Option Asset} (h : syncEdit lib job source index path existing = .ok edit) :
    ∃ asset, syncedAsset lib job source index path existing = .ok asset ∧
      ((edit = none ∧ ∃ old, existing = some old ∧ old.state = asset.state) ∨ edit = some asset) := by
  obtain ⟨asset, hasset, h⟩ := bind_eq_ok.mp h
  refine ⟨asset, hasset, ?_⟩
  split at h
  next hsame =>
    obtain ⟨old, hold, hstate⟩ := (Option.any_eq_true _ _).mp hsame
    exact .inl ⟨(Except.ok.inj h).symm, old, hold, of_decide_eq_true hstate⟩
  next => exact .inr (Except.ok.inj h).symm

theorem written_syncOutputs (job : JobRecord) (source : SyncSource) (outputs : List (String × ℕ)) :
    Written (fun asset => ∃ output ∈ outputs, asset.id = stableAssetId job.id output.1 ∧ asset.jobId = job.id) repo
      (syncOutputs lib job source outputs repo).2 := by
  induction outputs generalizing repo with
  | nil => exact .refl
  | cons output rest ih =>
    have hrest (repo : AssetRepository) := (@ih repo).mono fun asset hasset => by
      obtain ⟨old, hold, hsame⟩ := hasset
      exact (⟨old, List.mem_cons_of_mem _ hold, hsame⟩ : ∃ o ∈ output :: rest,
        asset.id = stableAssetId job.id o.1 ∧ asset.jobId = job.id)
    obtain ⟨path, index⟩ := output
    simp only [syncOutputs]
    cases hedit : syncEdit lib job source index path (repo.get? (stableAssetId job.id path)) with
    | error e => exact .refl
    | ok edit =>
      obtain ⟨asset, hasset, ⟨rfl, -⟩ | rfl⟩ := syncEdit_eq_ok hedit
      · exact hrest repo
      · exact (Written.single ⟨_, List.mem_cons_self, syncedAsset_eq_ok hasset⟩).trans (hrest _)

/-- The first turn of a loop that returns: the asset is there as it should be, or is written. -/
theorem syncOutputs_cons_eq_ok {job : JobRecord} {source : SyncSource} {path : String} {index : ℕ}
    {rest : List (String × ℕ)} {assets : List Asset}
    (h : syncOutputs lib job source ((path, index) :: rest) repo = (.ok assets, repo')) :
    ∃ asset first tail middle, assets = first :: tail ∧
      syncedAsset lib job source index path (repo.get? (stableAssetId job.id path)) = .ok asset ∧
      syncOutputs lib job source rest middle = (.ok tail, repo') ∧
      ((repo.get? (stableAssetId job.id path) = some first ∧ first.state = asset.state ∧ middle = repo) ∨
        (first = (repo.stamp asset).1 ∧ middle = (repo.stamp asset).2)) := by
  simp only [syncOutputs] at h
  cases hedit : syncEdit lib job source index path (repo.get? (stableAssetId job.id path)) with
  | error e =>
    rw [hedit] at h
    cases (Prod.mk.inj h).1
  | ok edit =>
    obtain ⟨asset, hasset, ⟨rfl, old, hold, hstate⟩ | rfl⟩ := syncEdit_eq_ok hedit
    · rw [hedit, hold] at h
      obtain ⟨hassets, hrepo⟩ := Prod.mk.inj h
      obtain ⟨tail, htail, rfl⟩ := ok_of_map hassets
      exact ⟨asset, old, tail, repo, rfl, hasset, Prod.ext htail hrepo, .inl ⟨hold, hstate, rfl⟩⟩
    · rw [hedit] at h
      obtain ⟨hassets, hrepo⟩ := Prod.mk.inj h
      obtain ⟨tail, htail, rfl⟩ := ok_of_map hassets
      exact ⟨asset, _, tail, _, rfl, hasset, Prod.ext htail hrepo, .inr ⟨rfl, rfl⟩⟩

/-- After a call of `sync_job` that returns, every output has its file. -/
theorem isSome_syncOutputs {job : JobRecord} {source : SyncSource} {outputs : List (String × ℕ)} {assets : List Asset}
    (h : syncOutputs lib job source outputs repo = (.ok assets, repo')) :
    ∀ output ∈ outputs, (repo'.get? (stableAssetId job.id output.1)).isSome := by
  induction outputs generalizing repo assets with
  | nil => exact fun output houtput => absurd houtput List.not_mem_nil
  | cons output rest ih =>
    obtain ⟨path, index⟩ := output
    obtain ⟨asset, first, tail, middle, rfl, hasset, hrest, hfirst⟩ := syncOutputs_cons_eq_ok h
    refine List.forall_mem_cons.mpr ⟨?_, ih hrest⟩
    have hwritten : Written _ middle (syncOutputs lib job source rest middle).2 := written_syncOutputs job source rest
    rw [hrest] at hwritten
    refine hwritten.isSome ?_
    rcases hfirst with ⟨hget, -, rfl⟩ | ⟨-, rfl⟩
    · rw [hget]
      rfl
    · rw [get?_stamp, if_pos (syncedAsset_eq_ok hasset).1.symm]
      rfl

end AssetRepository

end CreativeStudio.Assets
