import CreativeStudio.Assets.Sync

/-!
# The primary asset of a job

The asset that a scene is bound to is the first of its job in the list of all assets, which is
sorted by the time of their last change. So it is the one of the first output as long as there
is no other to be changed.
-/

namespace CreativeStudio.Assets
open Data Jobs Batches

/-- The outputs that `sync_job` makes assets of. -/
def outputsOf (job : JobRecord) : List String := job.result.elim [] fun result => (syncSource result).outputs

/-- Nothing of a job is in the directory. -/
def AssetRepository.FreshFor (repo : AssetRepository) (job : JobId) : Prop :=
  ∀ id asset, repo.get? id = some asset → asset.jobId ≠ job ∧ ∀ path, id ≠ stableAssetId job path

/-- A record of the job that is synchronised again names the same outputs. -/
def AssetAction.Agrees (job : JobRecord) : AssetAction → Prop
  | .syncJob record => record.id = job.id → outputsOf record = outputsOf job
  | _ => True

namespace AssetRepository
variable {lib : Library} {job : JobRecord} {repo repo' : AssetRepository} {path : String} {rest : List String}
  {assets : List Asset}

/-- Whatever is called after it, the primary asset is that of an output. -/
def PrimaryStays (lib : Library) (repo : AssetRepository) (job : JobRecord) (path : String) : Prop :=
  ∀ actions : List AssetAction, (∀ action ∈ actions, action.Agrees job) →
    ∃ asset, (repo.applyAll lib actions).getPrimaryByJob job.id = some asset ∧ asset.id = stableAssetId job.id path

/-! ## The list -/

theorem mem_of_getPrimaryByJob {id : JobId} {asset : Asset} (h : repo.getPrimaryByJob id = some asset) :
    asset ∈ repo.getByJob id :=
  List.mem_of_mem_head? h

theorem exists_getPrimaryByJob {id : JobId} {asset : Asset} (h : asset ∈ repo.getByJob id) :
    ∃ primary, repo.getPrimaryByJob id = some primary := by
  unfold getPrimaryByJob
  cases hassets : repo.getByJob id with
  | nil =>
    rw [hassets] at h
    cases h
  | cons first rest => exact ⟨first, rfl⟩

/-- No asset of the job is newer than the primary one. -/
theorem updatedAt_le_primary {id : JobId} {primary asset : Asset} (hprimary : repo.getPrimaryByJob id = some primary)
    (hasset : asset ∈ repo.getByJob id) : asset.updatedAt ≤ primary.updatedAt := by
  have hsorted : (repo.getByJob id).Pairwise fun a b => b.updatedAt ≤ a.updatedAt :=
    List.Pairwise.sublist List.filter_sublist (List.pairwise_insertionSort _ _)
  unfold getPrimaryByJob at hprimary
  cases hassets : repo.getByJob id with
  | nil =>
    rw [hassets] at hasset
    cases hasset
  | cons first rest =>
    rw [hassets] at hprimary hasset hsorted
    obtain rfl := Option.some.inj hprimary
    rcases List.mem_cons.mp hasset with rfl | hasset
    · exact le_refl _
    · exact (List.pairwise_cons.mp hsorted).1 asset hasset

/-! ## What belongs to the job -/

/-- A file belongs to the job when it has the name of one of the job's outputs. -/
def Owns (job : JobRecord) (id : AssetId) (owner : JobId) : Prop :=
  owner = job.id ↔ ∃ path ∈ outputsOf job, id = stableAssetId job.id path

theorem syncJob_eq (lib : Library) {record : JobRecord} (repo : AssetRepository) :
    (∃ result, record.result = some result ∧
      repo.syncJob lib record = syncOutputs lib record (syncSource result) (outputsOf record).zipIdx repo) ∨
    repo.syncJob lib record = (.ok [], repo) := by
  unfold syncJob outputsOf
  cases record.result with
  | none => exact .inr rfl
  | some result =>
    dsimp only
    split
    · exact .inr rfl
    · exact .inl ⟨result, rfl, rfl⟩

theorem written_syncJob (lib : Library) (record : JobRecord) (repo : AssetRepository) :
    Written (fun asset => ∃ path ∈ outputsOf record, asset.id = stableAssetId record.id path ∧
      asset.jobId = record.id) repo (repo.syncJob lib record).2 := by
  rcases @syncJob_eq lib record repo with ⟨result, -, heq⟩ | heq
  · rw [heq]
    refine (written_syncOutputs record (syncSource result) _).mono ?_
    rintro asset ⟨⟨path, index⟩, houtput, hasset⟩
    exact ⟨path, (List.mem_zipIdx' houtput).2 ▸ List.getElem_mem _, hasset⟩
  · rw [heq]
    exact .refl

/-- No call moves a file to the job, or away from it. -/
theorem owns_apply (howns : ∀ id asset, repo.get? id = some asset → Owns job id asset.jobId) {action : AssetAction}
    (hagrees : action.Agrees job) :
    Written (fun asset => Owns job asset.id asset.jobId) repo (repo.apply lib action) := by
  have hedited (asset : Asset) (h : ∃ old, repo.get? asset.id = some old ∧ asset.jobId = old.jobId) :
      Owns job asset.id asset.jobId := by
    obtain ⟨old, hold, hjob⟩ := h
    rw [hjob]
    exact howns _ _ hold
  cases action with
  | syncJob record =>
    refine (written_syncJob lib record repo).mono ?_
    rintro asset ⟨path, hpath, hid, hjob⟩
    unfold Owns
    rw [hid, hjob]
    constructor
    · intro hsame
      exact ⟨path, hagrees hsame ▸ hpath, by rw [hsame]⟩
    · rintro ⟨path', -, hsame⟩
      exact (stableAssetId_inj.mp hsame).1
  | bindProject id projectId =>
    exact (written_edit id fun _ _ => bindProjectEdit_eq_some).mono hedited
  | bindJobAssets owner projectId =>
    refine (written_bindAssets projectId _).mono ?_
    rintro asset ⟨old, hold, hid, hjob⟩
    exact hedited asset ⟨old, by rw [hid]; exact (mem_getByJob.mp hold).1, hjob⟩
  | markReused id mark derivedJobId => exact (written_markReused id mark derivedJobId).mono hedited
  | recordExport id exportPath => exact (written_edit id fun _ _ => recordExportEdit_eq_some).mono hedited

/-- The same over any number of calls. -/
theorem owns_applyAll (howns : ∀ id asset, repo.get? id = some asset → Owns job id asset.jobId)
    (actions : List AssetAction) (hagrees : ∀ action ∈ actions, action.Agrees job) :
    Written (fun asset => Owns job asset.id asset.jobId) repo (repo.applyAll lib actions) := by
  induction actions generalizing repo with
  | nil => exact .refl
  | cons action actions ih =>
    obtain ⟨haction, hactions⟩ := List.forall_mem_cons.mp hagrees
    have hfirst := @owns_apply lib _ _ howns _ haction
    exact hfirst.trans (ih (hfirst.all howns) hactions)

/-! ## After the first synchronisation -/

/-- The directory after the first call of `sync_job` for a job. -/
structure Synced (repo : AssetRepository) (job : JobRecord) : Prop where
  owns : ∀ id asset, repo.get? id = some asset → Owns job id asset.jobId
  present : ∀ path ∈ outputsOf job, (repo.get? (stableAssetId job.id path)).isSome
  time : ∀ id asset, repo.get? id = some asset → asset.jobId = job.id → asset.updatedAt ≤ repo.clock

theorem synced_of_syncJob (hfresh : repo.FreshFor job.id) (hsucceeded : job.status = .succeeded)
    (hsync : repo.syncJob lib job = (.ok assets, repo')) : Synced repo' job := by
  have hwritten := written_syncJob lib job repo
  rw [hsync] at hwritten
  refine ⟨?_, ?_, ?_⟩
  · have howned : Written (fun asset => Owns job asset.id asset.jobId) repo repo' :=
      hwritten.mono fun asset hasset => by
      obtain ⟨path, hpath, hid, hjob⟩ := hasset
      exact ⟨fun _ => ⟨path, hpath, hid⟩, fun _ => hjob⟩
    refine howned.all fun id asset hget => ?_
    obtain ⟨howner, hname⟩ := hfresh id asset hget
    exact ⟨fun h => absurd h howner, fun ⟨path, _, h⟩ => absurd h (hname path)⟩
  · intro path hpath
    unfold syncJob at hsync
    unfold outputsOf at hpath
    cases hresult : job.result with
    | none =>
      rw [hresult] at hpath
      exact absurd hpath List.not_mem_nil
    | some result =>
      rw [hresult] at hsync hpath
      simp only [hsucceeded, ne_eq, not_true, if_false] at hsync
      obtain ⟨index, hindex, hoccurs⟩ := List.getElem_of_mem hpath
      have houtput : (path, index) ∈ (syncSource result).outputs.zipIdx :=
        List.mk_mem_zipIdx_iff_getElem?.mpr (List.getElem?_eq_some_iff.mpr ⟨hindex, hoccurs⟩)
      exact isSome_syncOutputs hsync _ houtput
  · exact hwritten.updatedAt_le fun id asset hget hjob => absurd hjob (hfresh id asset hget).1

theorem Synced.mem_getByJob (h : Synced repo job) {path : String} (hpath : path ∈ outputsOf job) :
    ∃ asset ∈ repo.getByJob job.id, asset.id = stableAssetId job.id path := by
  obtain ⟨asset, hasset⟩ := Option.isSome_iff_exists.mp (h.present path hpath)
  have hid := id_of_get? hasset
  refine ⟨asset, AssetRepository.mem_getByJob.mpr ⟨by rwa [hid], ?_⟩, hid⟩
  exact (h.owns _ _ hasset).mpr ⟨path, hpath, rfl⟩

/-- An asset that is bound to another project becomes the primary one. -/
theorem Synced.exists_bindProject (h : Synced repo job) {path : String} (hpath : path ∈ outputsOf job) :
    ∃ projectId, ∀ primary,
      (repo.bindProject (stableAssetId job.id path) projectId).2.getPrimaryByJob job.id = some primary →
        primary.id = stableAssetId job.id path := by
  obtain ⟨old, hold, hid⟩ := h.mem_getByJob hpath
  obtain ⟨hget, hjob⟩ := AssetRepository.mem_getByJob.mp hold
  rw [hid] at hget
  obtain ⟨projectId, hne⟩ : ∃ projectId, old.projectId ≠ projectId := by
    cases old.projectId with
    | none => exact ⟨some "", by simp⟩
    | some project => exact ⟨none, by simp⟩
  refine ⟨projectId, fun primary hprimary => ?_⟩
  have hrepo : (repo.bindProject (stableAssetId job.id path) projectId).2 =
      (repo.stamp { old with projectId }).2 := by
    simp only [bindProject, edit, hget, bindProjectEdit, if_neg hne]
  rw [hrepo] at hprimary
  -- the asset that was written is newer than every other one of the job
  have hle := updatedAt_le_primary hprimary (mem_getByJob_stamp repo (by exact hjob))
  change repo.clock + 1 ≤ primary.updatedAt at hle
  obtain ⟨hget', hjob'⟩ := AssetRepository.mem_getByJob.mp (mem_of_getPrimaryByJob hprimary)
  rw [get?_stamp] at hget'
  split at hget'
  next hsame => exact hsame.trans hid
  next hother =>
    have := h.time _ _ hget' hjob'
    omega

/-- The primary asset of a succeeded job is that of its first output whatever is called later, if
and only if it has no other output. -/
theorem primaryStays_iff_single (hfresh : repo.FreshFor job.id) (hsucceeded : job.status = .succeeded)
    (houtputs : outputsOf job = path :: rest) (hsync : repo.syncJob lib job = (.ok assets, repo')) :
    PrimaryStays lib repo' job path ↔ ∀ other ∈ rest, other = path := by
  have hsynced := synced_of_syncJob hfresh hsucceeded hsync
  constructor
  · intro hstays other hother
    obtain ⟨projectId, hlast⟩ := hsynced.exists_bindProject (houtputs ▸ List.mem_cons_of_mem _ hother)
    obtain ⟨asset, hprimary, hid⟩ := hstays [.bindProject (stableAssetId job.id other) projectId] (by
      simp [AssetAction.Agrees])
    have hname := (hlast asset hprimary).symm.trans hid
    exact (stableAssetId_inj.mp hname).2
  · intro hsingle actions hagrees
    have hwritten := @owns_applyAll lib _ _ hsynced.owns actions hagrees
    have hpresent := hwritten.isSome (hsynced.present path (houtputs ▸ List.mem_cons_self))
    have howns := hwritten.all hsynced.owns
    obtain ⟨asset, hasset⟩ := Option.isSome_iff_exists.mp hpresent
    have hjob : asset.jobId = job.id := (howns _ _ hasset).mpr ⟨path, houtputs ▸ List.mem_cons_self, rfl⟩
    rw [← id_of_get? hasset] at hasset
    obtain ⟨primary, hprimary⟩ := exists_getPrimaryByJob (AssetRepository.mem_getByJob.mpr ⟨hasset, hjob⟩)
    refine ⟨primary, hprimary, ?_⟩
    obtain ⟨hget, howner⟩ := AssetRepository.mem_getByJob.mp (mem_of_getPrimaryByJob hprimary)
    obtain ⟨other, hother, hid⟩ := (howns _ _ hget).mp howner
    rw [houtputs] at hother
    rcases List.mem_cons.mp hother with rfl | hother
    · exact hid
    · rw [hid, hsingle other hother]

/-! ## Two jobs -/

/-- A directory without files. -/
def empty : AssetRepository := ⟨∅, 0, fun _ _ h => by simp at h⟩

/-- A picture job with these outputs. -/
def pictureJob (outputs : List String) : JobRecord where
  id := 1
  projectId := none
  mediaType := .image
  status := .succeeded
  request := {
    mediaType := .image
    taskType := none
    prompt := "A lighthouse"
    negativePrompt := none
    modelId := "sdxl"
    seed := none
    outputFormat := none
    params := []
    references := [] }
  result := some { jobId := 1, outputs, previews := [], metadata := [] }
  createdAt := 0
  updatedAt := 0

theorem freshFor_empty (job : JobId) : empty.FreshFor job := fun _ _ h => by simp [get?, empty] at h

theorem primaryStays_oneOutput : ∃ assets repo,
    empty.syncJob Library.plain (pictureJob ["a.png"]) = (.ok assets, repo) ∧
      PrimaryStays Library.plain repo (pictureJob ["a.png"]) "a.png" := by
  have hok : (empty.syncJob Library.plain (pictureJob ["a.png"])).1.toOption.isSome := by decide +kernel
  obtain ⟨assets, hassets⟩ := Option.isSome_iff_exists.mp hok
  have hsync : empty.syncJob Library.plain (pictureJob ["a.png"]) = (.ok assets, _) :=
    Prod.ext (ok_of_toOption hassets) rfl
  exact ⟨assets, _, hsync, (primaryStays_iff_single (freshFor_empty 1) rfl rfl hsync).mpr
    fun _ h => absurd h List.not_mem_nil⟩

/-- Right after the first call the primary asset is that of the second output. -/
theorem not_primaryStays_twoOutputs : ∃ assets repo,
    empty.syncJob Library.plain (pictureJob ["a.png", "b.png"]) = (.ok assets, repo) ∧
      (repo.getPrimaryByJob 1).map Asset.path = some "b.png" ∧
      ¬ PrimaryStays Library.plain repo (pictureJob ["a.png", "b.png"]) "a.png" := by
  have hok : (empty.syncJob Library.plain (pictureJob ["a.png", "b.png"])).1.toOption.isSome := by decide +kernel
  have hprimary : ((empty.syncJob Library.plain (pictureJob ["a.png", "b.png"])).2.getPrimaryByJob 1).map
      (fun asset => (asset.path, asset.id)) = some ("b.png", stableAssetId 1 "b.png") := by decide +kernel
  obtain ⟨assets, hassets⟩ := Option.isSome_iff_exists.mp hok
  refine ⟨assets, _, Prod.ext (ok_of_toOption hassets) rfl, ?_, fun hstays => ?_⟩
  · obtain ⟨asset, hasset, hpath⟩ := Option.map_eq_some_iff.mp hprimary
    rw [hasset, Option.map_some, (Prod.mk.inj hpath).1]
  · obtain ⟨asset, hasset, hid⟩ := hstays [] (fun _ h => absurd h List.not_mem_nil)
    change (empty.syncJob Library.plain (pictureJob ["a.png", "b.png"])).2.getPrimaryByJob 1 = some asset at hasset
    rw [hasset, Option.map_some] at hprimary
    have hsame := hid.symm.trans (Prod.mk.inj (Option.some.inj hprimary)).2
    exact absurd (stableAssetId_inj.mp hsame).2 (by decide)

end AssetRepository
end CreativeStudio.Assets
