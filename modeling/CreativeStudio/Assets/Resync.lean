import CreativeStudio.Assets.Primary

/-!
# Synchronising a job again

The metadata of an asset is merged from what the file holds, the result of the job and the
record of the variation; the counters in it belong to the user. An asset that `sync_job` has
written once is `Settled`: the next call computes the same asset and leaves the file alone, also
after the user has marked it reused or exported it.
-/

namespace CreativeStudio.Assets
open Data Jobs Batches

/-- The members of the metadata that `mark_reused` and `record_export` write. -/
def counterKeys : List String :=
  ["reuse_count", "export_count", "derived_job_ids", "last_reuse_action", "last_export_path"]

/-- The result of a job does not carry the counters. -/
structure NoCounters (source : SyncSource) : Prop where
  metadata : ∀ key ∈ counterKeys, source.metadata.get? key = none
  variations : ∀ variation ∈ source.variations, ∀ key ∈ counterKeys, variation.get? key = none

/-- What the result of a job says of one output. -/
def resultMetadata (source : SyncSource) (path : String) (index : ℕ) : Obj :=
  Dict.update (Dict.update [] source.metadata) (variationMetadataForOutput source.variations path index)

/-- The asset that a request names as its source. -/
def namedParent (job : JobRecord) : Option AssetId :=
  ((job.request.params.get? "source_asset_id").bind JsonOf.str?).filter fun id => id != ""

/-- An asset without what the user or an earlier call has added. -/
def Asset.identity (asset : Asset) : Asset :=
  { asset with
    parentAssetId := none, lineage := [], exportPaths := [], tags := [], metadata := [], createdAt := 0,
    updatedAt := 0 }

/-- What every call computes for one output. -/
def expectedIdentity (lib : Library) (job : JobRecord) (source : SyncSource) (index : ℕ) (path : String) : Asset where
  id := stableAssetId job.id path
  jobId := job.id
  projectId := job.projectId
  mediaType := job.mediaType
  title := summarizePrompt job.request.prompt (mediaTypeText job.mediaType ++ " asset")
  prompt := job.request.prompt
  modelId := job.request.modelId
  path
  previewPath := some (previewPath lib source (variationMetadataForOutput source.variations path index) index path)
  createdAt := 0
  updatedAt := 0

/-- The metadata that every call computes, the counters apart. -/
def expectedMember (job : JobRecord) (source : SyncSource) (index : ℕ) (path key : String) : Option Json :=
  if key = "request_snapshot" then some (effectiveRequestSnapshot job (resultMetadata source path index))
  else (resultMetadata source path index).get? key

/-- The asset says what the job says. -/
structure Settled (lib : Library) (job : JobRecord) (source : SyncSource) (index : ℕ) (path : String) (asset : Asset) :
    Prop where
  identity : asset.identity = expectedIdentity lib job source index path
  parent : ∀ parent ∈ namedParent job, asset.parentAssetId = some parent ∧ parent ∈ asset.lineage
  metadata : ∀ key ∉ counterKeys,
    (asset.metadata.get? key).map JsonOf.canon = (expectedMember job source index path key).map JsonOf.canon
  reuse : ∃ n : ℤ, asset.metadata.get? "reuse_count" = some (.int n)
  exports : asset.metadata.get? "export_count" = some (.int asset.exportPaths.length)

section
variable {lib : Library} {job : JobRecord} {source : SyncSource} {index : ℕ} {path : String} {asset : Asset}

theorem get?_variation (h : NoCounters source) (path : String) (index : ℕ) {key : String} (hkey : key ∈ counterKeys) :
    (variationMetadataForOutput source.variations path index).get? key = none := by
  unfold variationMetadataForOutput
  split
  next record hrecord => exact h.variations record (List.mem_of_find?_eq_some hrecord) key hkey
  next =>
    cases hrecord : source.variations[index]? with
    | none => rfl
    | some record => exact h.variations record (List.mem_of_getElem? hrecord) key hkey

/-- The metadata of a file, updated from the result. -/
theorem get?_merged (existing : Obj) (source : SyncSource) (path : String) (index : ℕ) (key : String) :
    (Dict.update (Dict.update existing source.metadata)
      (variationMetadataForOutput source.variations path index)).get? key =
      ((resultMetadata source path index).get? key).or (existing.get? key) := by
  simp [resultMetadata, Dict.get?_update, Dict.get?, Option.or_assoc]

theorem get?_resultMetadata (h : NoCounters source) {key : String} (hkey : key ∈ counterKeys) :
    (resultMetadata source path index).get? key = none := by
  simp [resultMetadata, Dict.get?_update, Dict.get?, h.metadata key hkey, get?_variation h path index hkey]

/-- The snapshot reads four members of the metadata. -/
theorem effectiveRequestSnapshot_congr {metadata metadata' : Obj}
    (h : ∀ key ∈ ["params", "seed", "model_id", "output_format"], metadata.get? key = metadata'.get? key) :
    effectiveRequestSnapshot job metadata = effectiveRequestSnapshot job metadata' := by
  unfold effectiveRequestSnapshot
  rw [h "params" (by simp), h "seed" (by simp), h "model_id" (by simp), h "output_format" (by simp)]

/-! ## What is computed over an asset that is there -/

/-- The asset that `sync_job` computes over what it finds. -/
structure SyncedFrom (lib : Library) (job : JobRecord) (source : SyncSource) (index : ℕ) (path : String)
    (existing : Option Asset) (asset : Asset) : Prop where
  identity : asset.identity = expectedIdentity lib job source index path
  named : ∀ parent, namedParent job = some parent → asset.parentAssetId = some parent ∧
    asset.lineage = if parent ∈ existing.elim [] Asset.lineage then existing.elim [] Asset.lineage
      else existing.elim [] Asset.lineage ++ [parent]
  unnamed : namedParent job = none → asset.parentAssetId = existing.bind Asset.parentAssetId ∧
    asset.lineage = existing.elim [] Asset.lineage
  exportPaths : asset.exportPaths = existing.elim [] Asset.exportPaths
  tags : asset.tags = existing.elim [] Asset.tags
  createdAt : asset.createdAt = existing.elim job.createdAt Asset.createdAt
  member : ∀ key, key ≠ "request_snapshot" → key ≠ "reuse_count" → key ≠ "export_count" →
    asset.metadata.get? key =
      ((resultMetadata source path index).get? key).or (Dict.get? (existing.elim [] Asset.metadata) key)
  snapshot : asset.metadata.get? "request_snapshot" = some (effectiveRequestSnapshot job
    (Dict.update (Dict.update (existing.elim [] Asset.metadata) source.metadata)
      (variationMetadataForOutput source.variations path index)))
  exports : asset.metadata.get? "export_count" = some (.int (existing.elim [] Asset.exportPaths).length)

theorem syncedFrom_of_reuse (job : JobRecord) (index : ℕ) (path : String) (h : NoCounters source)
    (existing : Option Asset) {n : ℤ}
    (hreuse : toInt lib ((Dict.get? (existing.elim [] Asset.metadata) "reuse_count").getD (.int 0)) = .ok n) :
    ∃ asset, syncedAsset lib job source index path existing = .ok asset ∧
      SyncedFrom lib job source index path existing asset ∧ asset.metadata.get? "reuse_count" = some (.int n) := by
  have hcount : (resultMetadata source path index).get? "reuse_count" = none :=
    get?_resultMetadata h (by simp [counterKeys])
  have hmerged := get?_merged (existing.elim [] Asset.metadata) source path index
  unfold syncedAsset
  simp only [Dict.get?_set_ne _ _ (show "request_snapshot" ≠ "reuse_count" by decide), hmerged, hcount,
    Option.none_or, hreuse]
  refine ⟨_, rfl, ?_, ?_⟩
  · refine ⟨rfl, fun parent hparent => ?_, fun hparent => ?_, rfl, rfl, rfl, fun key h₁ h₂ h₃ => ?_, ?_, ?_⟩
    · unfold namedParent at hparent
      simp only [hparent, and_self]
    · unfold namedParent at hparent
      simp only [hparent, and_self]
    · simp only [Dict.get?_set, if_neg h₁.symm, if_neg h₂.symm, if_neg h₃.symm, hmerged]
    · simp [Dict.get?_set]
    · simp
  · simp [Dict.get?_set]

/-- The first call. -/
theorem settled_of_none (h : NoCounters source) :
    ∃ asset, syncedAsset lib job source index path none = .ok asset ∧ Settled lib job source index path asset := by
  obtain ⟨asset, hasset, hfrom, hreuse⟩ :=
    syncedFrom_of_reuse job index path h none (show toInt lib (.int 0) = .ok 0 from rfl)
  refine ⟨asset, hasset, hfrom.identity, fun parent hparent => ?_, fun key hkey => ?_, ⟨0, hreuse⟩, ?_⟩
  · obtain ⟨hid, hlineage⟩ := hfrom.named parent hparent
    refine ⟨hid, ?_⟩
    rw [hlineage]
    simp
  · simp only [counterKeys, List.mem_cons, List.not_mem_nil, or_false, not_or] at hkey
    unfold expectedMember
    split
    next hsnapshot =>
      rw [hsnapshot, hfrom.snapshot]
      rfl
    next hsnapshot =>
      rw [hfrom.member key hsnapshot hkey.1 hkey.2.1]
      simp [Dict.get?]
  · rw [hfrom.exports, hfrom.exportPaths]

/-- Two assets are in one state when they agree on what the job says and on what is kept. -/
theorem Asset.state_eq {a b : Asset} (hidentity : a.identity = b.identity) (hparent : a.parentAssetId = b.parentAssetId)
    (hlineage : a.lineage = b.lineage) (hexports : a.exportPaths = b.exportPaths) (htags : a.tags = b.tags)
    (hcreated : a.createdAt = b.createdAt) (hmetadata : Obj.canon a.metadata = Obj.canon b.metadata) :
    a.state = b.state := by
  cases a
  cases b
  simp only [Asset.identity, Asset.mk.injEq, Asset.state, Asset.saved] at *
  tauto

/-- The metadata of a settled asset does not change what the result says of a member. -/
theorem Settled.or_eq (h : Settled lib job source index path asset) {key : String} (hkey : key ∉ counterKeys)
    (hsnapshot : key ≠ "request_snapshot") :
    ((resultMetadata source path index).get? key).or (asset.metadata.get? key) =
      (resultMetadata source path index).get? key := by
  have hmember := h.metadata key hkey
  rw [expectedMember, if_neg hsnapshot] at hmember
  cases hresult : (resultMetadata source path index).get? key with
  | some value => rfl
  | none =>
    rw [hresult, Option.map_none, Option.map_eq_none_iff] at hmember
    rw [hmember]
    rfl

/-- A later call computes what the asset says already. -/
theorem Settled.syncEdit (hcounters : NoCounters source) (h : Settled lib job source index path asset) :
    syncEdit lib job source index path (some asset) = .ok none := by
  obtain ⟨n, hn⟩ := h.reuse
  obtain ⟨synced, hsynced, hfrom, hreuse⟩ := syncedFrom_of_reuse job index path hcounters (some asset)
    (show toInt lib ((Dict.get? asset.metadata "reuse_count").getD (.int 0)) = .ok n by rw [hn]; rfl)
  have hmetadata : Obj.canon asset.metadata = Obj.canon synced.metadata := by
    refine Obj.canon_eq_iff.mpr fun key => ?_
    by_cases hsnapshot : key = "request_snapshot"
    · rw [h.metadata key (by subst hsnapshot; decide), hsnapshot, hfrom.snapshot, expectedMember, if_pos rfl]
      refine congrArg (Option.map JsonOf.canon ∘ some) (effectiveRequestSnapshot_congr fun key hkey => ?_)
      rw [get?_merged, Option.elim_some, h.or_eq]
      · simp only [List.mem_cons, List.not_mem_nil, or_false] at hkey
        rcases hkey with rfl | rfl | rfl | rfl <;> decide
      · rintro rfl
        simp at hkey
    by_cases hreused : key = "reuse_count"
    · rw [hreused, hn, hreuse]
    by_cases hexported : key = "export_count"
    · rw [hexported, h.exports, hfrom.exports]
      rfl
    rw [hfrom.member key hsnapshot hreused hexported, Option.elim_some]
    by_cases hcounter : key ∈ counterKeys
    · rw [get?_resultMetadata hcounters hcounter, Option.none_or]
    · rw [h.or_eq hcounter hsnapshot, h.metadata key hcounter, expectedMember, if_neg hsnapshot]
  have hparent : asset.parentAssetId = synced.parentAssetId ∧ asset.lineage = synced.lineage := by
    cases hnamed : namedParent job with
    | none =>
      obtain ⟨hid, hlineage⟩ := hfrom.unnamed hnamed
      exact ⟨hid.symm, hlineage.symm⟩
    | some parent =>
      obtain ⟨hid, hlineage⟩ := hfrom.named parent hnamed
      obtain ⟨hid', hmem⟩ := h.parent parent hnamed
      rw [Option.elim_some, if_pos hmem] at hlineage
      exact ⟨hid'.trans hid.symm, hlineage.symm⟩
  have hstate : asset.state = synced.state := Asset.state_eq (h.identity.trans hfrom.identity.symm) hparent.1
    hparent.2 hfrom.exportPaths.symm hfrom.tags.symm hfrom.createdAt.symm hmetadata
  unfold Assets.syncEdit
  simp only [hsynced, Option.any_some, hstate, decide_true, if_true, bind, Except.bind, pure, Except.pure]

/-! ## What the user does -/

/-- Writing the counters, or the time, leaves an asset settled. -/
theorem Settled.keep {edited : Asset} (h : Settled lib job source index path asset)
    (hidentity : edited.identity = asset.identity)
    (hparent : edited.parentAssetId = asset.parentAssetId) (hlineage : edited.lineage = asset.lineage)
    (hmetadata : ∀ key ∉ counterKeys,
      (edited.metadata.get? key).map JsonOf.canon = (asset.metadata.get? key).map JsonOf.canon)
    (hreuse : ∃ n : ℤ, edited.metadata.get? "reuse_count" = some (.int n))
    (hexports : edited.metadata.get? "export_count" = some (.int edited.exportPaths.length)) :
    Settled lib job source index path edited where
  identity := hidentity.trans h.identity
  parent parent hnamed := by
    rw [hparent, hlineage]
    exact h.parent parent hnamed
  metadata key hkey := (hmetadata key hkey).trans (h.metadata key hkey)
  reuse := hreuse
  exports := hexports

/-- The file of an asset is as settled as the asset. -/
theorem Settled.saved (h : Settled lib job source index path asset) (time : ℕ) :
    Settled lib job source index path { asset with updatedAt := time }.saved := by
  obtain ⟨n, hn⟩ := h.reuse
  refine h.keep rfl rfl rfl (fun key _ => ?_) ⟨n, ?_⟩ ?_
  · simp [Asset.saved, Function.comp_def, JsonOf.canon_canon]
  · simp [Asset.saved, hn, JsonOf.canon]
  · simp [Asset.saved, h.exports, JsonOf.canon]

theorem Settled.markReusedEdit {action : String} {derivedJobId : Option String} {edited : Asset}
    (h : Settled lib job source index path asset)
    (hedit : markReusedEdit lib action derivedJobId asset = .ok (some edited)) :
    Settled lib job source index path edited := by
  obtain ⟨reuseCount, -, hedited⟩ := bind_eq_ok.mp hedit
  obtain rfl := Option.some.inj (Except.ok.inj hedited)
  refine h.keep rfl rfl rfl (fun key hkey => ?_) ⟨reuseCount + 1, ?_⟩ ?_
  · simp only [counterKeys, List.mem_cons, List.not_mem_nil, or_false, not_or] at hkey
    simp only [Dict.get?_set, if_neg (Ne.symm hkey.1), if_neg (Ne.symm hkey.2.2.1), if_neg (Ne.symm hkey.2.2.2.1)]
  · simp [Dict.get?_set]
  · simp [Dict.get?_set, h.exports]

theorem Settled.recordExportEdit {exportPath : String} {edited : Asset}
    (h : Settled lib job source index path asset) (hedit : recordExportEdit exportPath asset = some edited) :
    Settled lib job source index path edited := by
  obtain ⟨n, hn⟩ := h.reuse
  unfold Assets.recordExportEdit at hedit
  generalize (if exportPath ∈ asset.exportPaths then asset.exportPaths
    else asset.exportPaths ++ [exportPath]) = exportPaths at hedit
  dsimp only at hedit
  split at hedit
  · cases hedit
  · obtain rfl := Option.some.inj hedit
    refine h.keep rfl rfl rfl (fun key hkey => ?_) ⟨n, ?_⟩ ?_
    · simp only [counterKeys, List.mem_cons, List.not_mem_nil, or_false, not_or] at hkey
      simp only [Dict.get?_set, if_neg (Ne.symm hkey.2.1), if_neg (Ne.symm hkey.2.2.2.2)]
    · simp [Dict.get?_set, hn]
    · simp [Dict.get?_set]

end

/-! ## The directory -/

/-- What the user does with an asset. -/
def AssetAction.byUser : AssetAction → Prop
  | .markReused .. => True
  | .recordExport .. => True
  | _ => False

namespace AssetRepository
variable {lib : Library} {job : JobRecord} {source : SyncSource} {repo repo' : AssetRepository}

/-- The file of an output says what the job says. -/
def SettledIn (lib : Library) (job : JobRecord) (source : SyncSource) (repo : AssetRepository) (output : String × ℕ) :
    Prop :=
  ∃ asset, repo.get? (stableAssetId job.id output.1) = some asset ∧ Settled lib job source output.2 output.1 asset

/-- The files that a write has to do with an asset leaves the other ones alone. -/
theorem Written.get?_eq {P : Asset → Prop} {id : AssetId} (h : Written P repo repo')
    (hP : ∀ asset, P asset → id ≠ asset.id) :
    repo'.get? id = repo.get? id := by
  induction h with
  | refl => rfl
  | stamp _ hasset ih => rw [get?_stamp, if_neg (hP _ hasset), ih]

theorem SettledIn.stamp {output : String × ℕ} {edited : Asset} (h : SettledIn lib job source repo output)
    (hedited : edited.id = stableAssetId job.id output.1 → Settled lib job source output.2 output.1 edited) :
    SettledIn lib job source (repo.stamp edited).2 output := by
  obtain ⟨asset, hget, hsettled⟩ := h
  by_cases hid : stableAssetId job.id output.1 = edited.id
  · refine ⟨_, ?_, (hedited hid.symm).saved (repo.clock + 1)⟩
    rw [get?_stamp, if_pos hid]
  · refine ⟨asset, ?_, hsettled⟩
    rw [get?_stamp, if_neg hid, hget]

/-- Marking and exporting, of this asset or another one, leave it settled. -/
theorem SettledIn.apply {output : String × ℕ} {action : AssetAction} (h : SettledIn lib job source repo output)
    (huser : action.byUser) : SettledIn lib job source (repo.apply lib action) output := by
  obtain ⟨settled, hfile, hsettled⟩ := h
  cases action with
  | syncJob _ => exact huser.elim
  | bindProject _ _ => exact huser.elim
  | bindJobAssets _ _ => exact huser.elim
  | markReused id action derivedJobId =>
    change SettledIn lib job source (repo.markReused lib id action derivedJobId).2 output
    rcases repo.markReused_cases id action derivedJobId with hsame | ⟨asset, edited, hget, hedited, hwritten⟩
    · rw [hsame]
      exact ⟨settled, hfile, hsettled⟩
    · rw [hwritten]
      refine SettledIn.stamp ⟨settled, hfile, hsettled⟩ fun hid => ?_
      obtain ⟨reuseCount, -, hsame⟩ := bind_eq_ok.mp hedited
      rw [← Option.some.inj (Except.ok.inj hsame), id_of_get? hget] at hid
      rw [hid, hfile] at hget
      obtain rfl := Option.some.inj hget
      exact hsettled.markReusedEdit hedited
  | recordExport id exportPath =>
    change SettledIn lib job source (repo.edit id (recordExportEdit exportPath)).2 output
    rcases repo.edit_cases id (recordExportEdit exportPath) with hsame | ⟨asset, edited, hget, hedited, hwritten⟩
    · rw [hsame]
      exact ⟨settled, hfile, hsettled⟩
    · rw [hwritten]
      refine SettledIn.stamp ⟨settled, hfile, hsettled⟩ fun hid => ?_
      rw [(recordExportEdit_eq_some hedited).1, id_of_get? hget] at hid
      rw [hid, hfile] at hget
      obtain rfl := Option.some.inj hget
      exact hsettled.recordExportEdit hedited

theorem SettledIn.applyAll {output : String × ℕ} {actions : List AssetAction} (h : SettledIn lib job source repo output)
    (huser : ∀ action ∈ actions, action.byUser) : SettledIn lib job source (repo.applyAll lib actions) output := by
  induction actions generalizing repo with
  | nil => exact h
  | cons action rest ih =>
    exact ih (h.apply (huser action List.mem_cons_self)) fun action haction =>
      huser action (List.mem_cons_of_mem _ haction)

/-- The first call: every output gets its file. -/
theorem syncOutputs_of_none (hcounters : NoCounters source) {outputs : List (String × ℕ)}
    (hdistinct : (outputs.map Prod.fst).Nodup)
    (hfresh : ∀ output ∈ outputs, repo.get? (stableAssetId job.id output.1) = none) :
    ∃ assets repo', syncOutputs lib job source outputs repo = (.ok assets, repo') ∧
      (assets.map fun asset => some asset.saved) =
        outputs.map (fun output => repo'.get? (stableAssetId job.id output.1)) ∧
      ∀ output ∈ outputs, SettledIn lib job source repo' output := by
  induction outputs generalizing repo with
  | nil => exact ⟨[], repo, rfl, rfl, fun output houtput => absurd houtput List.not_mem_nil⟩
  | cons output rest ih =>
    obtain ⟨path, index⟩ := output
    obtain ⟨hpath, hdistinct⟩ := List.nodup_cons.mp hdistinct
    have hother : ∀ output ∈ rest, stableAssetId job.id path ≠ stableAssetId job.id output.1 := by
      intro output houtput hid
      have hmem := List.mem_map_of_mem (f := Prod.fst) houtput
      rw [← (stableAssetId_inj.mp hid).2] at hmem
      exact hpath hmem
    obtain ⟨asset, hasset, hsettled⟩ := @settled_of_none lib job source index path hcounters
    have hid := (syncedAsset_eq_ok hasset).1
    have hedit : syncEdit lib job source index path (repo.get? (stableAssetId job.id path)) = .ok (some asset) := by
      rw [hfresh _ List.mem_cons_self]
      unfold Assets.syncEdit
      simp only [hasset, Option.any_none, bind, Except.bind, pure, Except.pure]
      rfl
    obtain ⟨assets, repo', hrest, hassets, hall⟩ := @ih (repo.stamp asset).2 hdistinct fun output houtput => by
      rw [get?_stamp, hid, if_neg (hother output houtput).symm]
      exact hfresh output (List.mem_cons_of_mem _ houtput)
    have hwritten := @written_syncOutputs lib (repo.stamp asset).2 job source rest
    rw [hrest] at hwritten
    have hfirst : repo'.get? (stableAssetId job.id path) = some (repo.stamp asset).1.saved := by
      rw [hwritten.get?_eq, get?_stamp, if_pos hid.symm]
      · rfl
      · rintro other ⟨output, houtput, hsame, -⟩
        rw [hsame]
        exact hother output houtput
    refine ⟨(repo.stamp asset).1 :: assets, repo', ?_, ?_, List.forall_mem_cons.mpr ⟨?_, hall⟩⟩
    · simp only [syncOutputs, hedit, hrest]
      rfl
    · rw [List.map_cons, List.map_cons, hassets, hfirst]
    · exact ⟨_, hfirst, hsettled.saved (repo.clock + 1)⟩

/-- A later call: every output is as it should be. -/
theorem syncOutputs_of_settled (hcounters : NoCounters source) {outputs : List (String × ℕ)}
    (hall : ∀ output ∈ outputs, SettledIn lib job source repo output) :
    ∃ assets, syncOutputs lib job source outputs repo = (.ok assets, repo) ∧
      assets.map some = outputs.map fun output => repo.get? (stableAssetId job.id output.1) := by
  induction outputs with
  | nil => exact ⟨[], rfl, rfl⟩
  | cons output rest ih =>
    obtain ⟨⟨asset, hget, hsettled⟩, hall⟩ := List.forall_mem_cons.mp hall
    obtain ⟨assets, hrest, hassets⟩ := ih hall
    refine ⟨asset :: assets, ?_, ?_⟩
    · simp only [syncOutputs, hget, hsettled.syncEdit hcounters, hrest]
      rfl
    · rw [List.map_cons, List.map_cons, hassets, hget]

theorem syncJob_of_succeeded {result : GenerationResult} (hstatus : job.status = .succeeded)
    (hresult : job.result = some result) (repo : AssetRepository) :
    repo.syncJob lib job = syncOutputs lib job (syncSource result) (syncSource result).outputs.zipIdx repo := by
  simp [syncJob, hresult, hstatus]

/-- The assets that a call returns have the names of the outputs. -/
theorem ids_of_get? {paths : List String} {assets : List Asset}
    (h : assets.map some = paths.map fun path => repo.get? (stableAssetId job.id path)) :
    assets.map Asset.id = paths.map (stableAssetId job.id) := by
  induction paths generalizing assets with
  | nil =>
    rw [List.map_nil, List.map_eq_nil_iff] at h
    rw [h]
    rfl
  | cons path rest ih =>
    obtain ⟨asset, tail, rfl, hget, htail⟩ := List.map_eq_cons_iff.mp h
    rw [List.map_cons, List.map_cons, ih htail, id_of_get? hget.symm]

/-- The first call of `sync_job` writes an asset for each output. From then on, whatever the user
marks and exports, a call writes nothing and returns what the files hold. -/
theorem resync_writes_nothing {result : GenerationResult} (hstatus : job.status = .succeeded)
    (hresult : job.result = some result) (hcounters : NoCounters (syncSource result))
    (hdistinct : (syncSource result).outputs.Nodup)
    (hfresh : ∀ path ∈ (syncSource result).outputs, repo.get? (stableAssetId job.id path) = none) :
    ∃ first repo₁, repo.syncJob lib job = (.ok first, repo₁) ∧
      (first.map fun asset => some asset.saved) =
        (syncSource result).outputs.map (fun path => repo₁.get? (stableAssetId job.id path)) ∧
      ∀ actions : List AssetAction, (∀ action ∈ actions, action.byUser) →
        ∃ assets, (repo₁.applyAll lib actions).syncJob lib job = (.ok assets, repo₁.applyAll lib actions) ∧
          assets.map some =
            (syncSource result).outputs.map
              (fun path => (repo₁.applyAll lib actions).get? (stableAssetId job.id path)) ∧
          assets.map Asset.id = (syncSource result).outputs.map (stableAssetId job.id) ∧
          (assets.map Asset.id).Nodup ∧
          ∀ asset ∈ assets, asset.metadata.get? "export_count" = some (.int asset.exportPaths.length) := by
  have hplaces : (syncSource result).outputs.zipIdx.map Prod.fst = (syncSource result).outputs :=
    List.zipIdx_map_fst 0 _
  have hget (repo : AssetRepository) : ((syncSource result).outputs.zipIdx.map fun output =>
      repo.get? (stableAssetId job.id output.1)) =
      (syncSource result).outputs.map fun path => repo.get? (stableAssetId job.id path) := by
    conv_rhs => rw [← hplaces, List.map_map]
    rfl
  obtain ⟨first, repo₁, hfirst, hassets, hall⟩ := @syncOutputs_of_none lib job (syncSource result) repo hcounters
    (syncSource result).outputs.zipIdx (by rwa [hplaces]) fun output houtput => by
      refine hfresh _ ?_
      rw [← hplaces]
      exact List.mem_map_of_mem houtput
  refine ⟨first, repo₁, ?_, hassets.trans (hget repo₁), fun actions hactions => ?_⟩
  · rw [syncJob_of_succeeded hstatus hresult, hfirst]
  have hstill : ∀ output ∈ (syncSource result).outputs.zipIdx,
      SettledIn lib job (syncSource result) (repo₁.applyAll lib actions) output :=
    fun output houtput => (hall output houtput).applyAll hactions
  obtain ⟨assets, hagain, hsame⟩ := syncOutputs_of_settled hcounters hstill
  rw [hget] at hsame
  refine ⟨assets, ?_, hsame, ids_of_get? hsame, ?_, fun asset hasset => ?_⟩
  · rw [syncJob_of_succeeded hstatus hresult, hagain]
  · rw [ids_of_get? hsame]
    exact hdistinct.map fun path path' h => (stableAssetId_inj.mp h).2
  · have hmem := List.mem_map_of_mem (f := some) hasset
    rw [hsame, ← hget] at hmem
    obtain ⟨output, houtput, hfile⟩ := List.mem_map.mp hmem
    obtain ⟨settled, hsettled, hcount⟩ := hstill output houtput
    rw [Option.some.inj (hfile.symm.trans hsettled)]
    exact hcount.exports

theorem resync_twoPictures : ∃ first repo₁,
    empty.syncJob Library.plain (pictureJob ["a.png", "b.png"]) = (.ok first, repo₁) ∧
      ∀ actions : List AssetAction, (∀ action ∈ actions, action.byUser) →
        ∃ assets, (repo₁.applyAll Library.plain actions).syncJob Library.plain (pictureJob ["a.png", "b.png"]) =
            (.ok assets, repo₁.applyAll Library.plain actions) ∧
          assets.map Asset.id = [stableAssetId 1 "a.png", stableAssetId 1 "b.png"] := by
  obtain ⟨first, repo₁, hfirst, -, hagain⟩ := @resync_writes_nothing Library.plain (pictureJob ["a.png", "b.png"]) empty
    { jobId := 1, outputs := ["a.png", "b.png"], previews := [], metadata := [] } rfl rfl
    ⟨fun _ _ => rfl, fun _ h => absurd h List.not_mem_nil⟩ (by decide) fun _ _ => rfl
  refine ⟨first, repo₁, hfirst, fun actions hactions => ?_⟩
  obtain ⟨assets, hassets, -, hids, -⟩ := hagain actions hactions
  exact ⟨assets, hassets, hids⟩

end AssetRepository
end CreativeStudio.Assets
