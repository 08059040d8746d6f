import CreativeStudio.Generators.Image

/-!
# The model registry and its resolver

The registry reads one manifest for each id. A request names a model by its public id, by an alias or by
the id of its manifest; the resolver looks the first two up in an index of its own, and takes what the
index does not know for the id of a manifest. A name in the index therefore hides a manifest of that id.
-/

namespace CreativeStudio.Models
open Data

/-- The fields of a `ModelManifest` that the registry and the resolver read. -/
structure RegisteredManifest extends Generators.ModelManifest where
  mediaType : String
  taskType : String
  aliases : List String := []
  isDefault : Bool := false
  enabled : Bool := true
  aliases_nodup : aliases.Nodup := by decide
  publicModelId_not_mem : toModelManifest.publicModelId ∉ aliases := by decide

namespace RegisteredManifest

/-- What the index knows the manifest by. -/
def publicNames (manifest : RegisteredManifest) : List String := manifest.publicModelId :: manifest.aliases

end RegisteredManifest

/-- What the registry asks of characters, texts and manifests. -/
structure ManifestLibrary where
  isAlnum : Char → Bool
  /-- `str.upper`. -/
  upper : String → String
  /-- `repr` of a string. -/
  quote : String → String
  /-- `json.dumps(manifest.model_dump(mode="json"), sort_keys=True)`. -/
  dump : RegisteredManifest → String

section
variable (lib : ManifestLibrary)

/-! ## The registry -/

/-- `cloud_provider_env_flag`. -/
def cloudProviderEnvFlag (manifestId : String) : String :=
  "ALLOW_CLOUD_PROVIDER_" ++
    lib.upper (.ofList (manifestId.toList.map fun c => if lib.isAlnum c then c else '_'))

/-- `_is_duplicate_equivalent`. -/
def isDuplicateEquivalent (left right : RegisteredManifest) : Bool := lib.dump left = lib.dump right

/-- One turn of `_check_cloud_provider_flag_collisions`. -/
def checkFlag (seen : Dict String) (manifest : RegisteredManifest) : Except Exc (Dict String) :=
  if manifest.provider ≠ "cloud" then .ok seen
  else
    let flag := cloudProviderEnvFlag lib manifest.id
    match seen.get? flag with
    | some other =>
      if other ≠ manifest.id then
        .error (.value (s!"Cloud provider manifests {lib.quote other} and {lib.quote manifest.id} both normalize to " ++
          s!"the opt-in flag {lib.quote flag}; rename one manifest id so each cloud provider has its own " ++
          "ALLOW_CLOUD_PROVIDER_<ID> switch."))
      else .ok (seen.set flag manifest.id)
    | none => .ok (seen.set flag manifest.id)

/-- `_check_cloud_provider_flag_collisions`. -/
def checkCloudProviderFlagCollisions (manifests : List RegisteredManifest) : Except Exc (Dict String) :=
  manifests.foldlM (checkFlag lib) []

/-- The variables of the loop over the files. -/
structure Loading where
  manifests : Dict RegisteredManifest := []
  sources : Dict String := []

/-- One file, with what `model_validate_json` makes of it. -/
def loadFile (loading : Loading) (file : String × Except Exc RegisteredManifest) : Except Exc Loading := do
  let manifest ← file.2
  match loading.manifests.get? manifest.id with
  | some kept =>
    if isDuplicateEquivalent lib kept manifest then .ok loading
    else
      let original := (loading.sources.get? manifest.id).getD ""
      .error (.value (s!"Duplicate model manifest id: {manifest.id} " ++ s!"({original} vs {file.1})"))
  | none => .ok {
      manifests := loading.manifests.set manifest.id manifest
      sources := loading.sources.set manifest.id file.1 }

/-- `load_all` over the sorted files below the root. -/
def loadAll (files : List (String × Except Exc RegisteredManifest)) : Except Exc (Dict RegisteredManifest) := do
  let loading ← files.foldlM (loadFile lib) {}
  let _ ← checkCloudProviderFlagCollisions lib (loading.manifests.map Prod.snd)
  return loading.manifests

/-- `get`. -/
def getManifest (registry : Dict RegisteredManifest) (modelId : String) : Except Exc RegisteredManifest :=
  match registry.get? modelId with
  | some manifest => .ok manifest
  | none => .error (.lookup s!"Unknown model_id: {modelId}")

/-- `list_all(enabled_only=enabledOnly)`. -/
def listManifests (registry : Dict RegisteredManifest) (enabledOnly : Bool) : List RegisteredManifest :=
  (registry.map Prod.snd).filter fun manifest => !enabledOnly || manifest.enabled

/-- `get_default`. -/
def getDefault (registry : Dict RegisteredManifest) (mediaType : String) (taskType : Option String) :
    Option RegisteredManifest :=
  (((listManifests registry true).filter fun manifest => manifest.mediaType = mediaType).filter fun manifest =>
    taskType.all fun task => manifest.taskType = task).find? RegisteredManifest.isDefault

/-! ## The resolver -/

/-- `_register_mapping`. -/
def registerMapping (index : Dict String) (requestedId manifestId : String) : Except Exc (Dict String) :=
  match index.get? requestedId with
  | some existing =>
    if existing ≠ manifestId then
      .error (.value (s!"Duplicate public model id or alias {lib.quote requestedId} for manifests " ++
        s!"{lib.quote existing} and {lib.quote manifestId}."))
    else .ok (index.set requestedId manifestId)
  | none => .ok (index.set requestedId manifestId)

/-- The public id and the aliases of one manifest. -/
def registerManifest (index : Dict String) (manifest : RegisteredManifest) : Except Exc (Dict String) := do
  let index ← registerMapping lib index manifest.publicModelId manifest.id
  manifest.aliases.foldlM (fun index name => registerMapping lib index name manifest.id) index

/-- `_public_id_index_for_registry`, of a resolver that has not built its index yet. -/
def publicIdIndex (registry : Dict RegisteredManifest) : Except Exc (Dict String) :=
  (listManifests registry false).foldlM (registerManifest lib) []

/-- `resolve_manifest_id`. -/
def resolveManifestId (index : Dict String) (modelId : String) : String := (index.get? modelId).getD modelId

/-- `repr` of a task type that may be missing. -/
def quoteTask (taskType : Option String) : String := (taskType.map lib.quote).getD "None"

/-- `resolve`. -/
def resolveModel (registry : Dict RegisteredManifest) (index : Dict String) (modelId : Option String)
    (mediaType : String) (taskType : Option String) : Except Exc RegisteredManifest := do
  let manifest ← match modelId.filter fun id => id ≠ "" with
    | some id => getManifest registry (resolveManifestId index id)
    | none =>
      match (getDefault registry mediaType taskType).or (taskType.bind fun _ => getDefault registry mediaType none) with
      | some manifest => .ok manifest
      | none => .error (.lookup (s!"No default model for media_type={lib.quote mediaType}, " ++
          s!"task_type={quoteTask lib taskType}."))
  if !manifest.enabled then .error (.lookup s!"Model is disabled: {manifest.id}")
  else if manifest.mediaType ≠ mediaType then
    .error (.lookup s!"Model {lib.quote manifest.id} does not support media_type={lib.quote mediaType}.")
  else if taskType.any fun task => manifest.taskType ≠ task then
    .error (.lookup s!"Model {lib.quote manifest.id} does not support task_type={quoteTask lib taskType}.")
  else .ok manifest

/-! ## What a loaded registry holds -/

variable {lib} {registry : Dict RegisteredManifest} {index index' : Dict String}

/-- Every manifest is there once, under its id. -/
structure Keyed (registry : Dict RegisteredManifest) : Prop where
  id_eq : ∀ entry ∈ registry, entry.2.id = entry.1
  nodup : (registry.map Prod.fst).Nodup

theorem Keyed.loadFile {loading loading' : Loading} (h : Keyed loading.manifests)
    {file : String × Except Exc RegisteredManifest} (hload : loadFile lib loading file = .ok loading') :
    Keyed loading'.manifests := by
  obtain ⟨manifest, -, hload⟩ := bind_eq_ok.mp hload
  cases hkept : loading.manifests.get? manifest.id with
  | some kept =>
    simp only [hkept] at hload
    split at hload
    · cases hload
      exact h
    · cases hload
  | none =>
    simp only [hkept] at hload
    cases hload
    have hnew : manifest.id ∉ loading.manifests.map Prod.fst := by
      rw [Dict.mem_names_iff, hkept]
      decide
    refine ⟨fun entry hentry => ?_, Dict.nodup_set h.nodup _ _⟩
    rw [Dict.set_of_notMem hnew] at hentry
    rcases List.mem_append.mp hentry with hold | hnew
    · exact h.id_eq entry hold
    · rw [List.mem_singleton.mp hnew]

theorem Keyed.foldlM_loadFile {files : List (String × Except Exc RegisteredManifest)} {loading loading' : Loading}
    (h : Keyed loading.manifests) (hload : files.foldlM (Models.loadFile lib) loading = .ok loading') :
    Keyed loading'.manifests := by
  induction files generalizing loading with
  | nil =>
    cases hload
    exact h
  | cons file rest ih =>
    obtain ⟨next, hnext, hrest⟩ := ok_of_bind hload
    exact ih (h.loadFile hnext) hrest

theorem keyed_of_loadAll {files : List (String × Except Exc RegisteredManifest)}
    (hload : loadAll lib files = .ok registry) : Keyed registry := by
  obtain ⟨loading, hfiles, hload⟩ := bind_eq_ok.mp hload
  obtain ⟨seen, -, hload⟩ := bind_eq_ok.mp hload
  cases hload
  have hstart : Keyed ({} : Loading).manifests := ⟨by simp, by simp⟩
  exact hstart.foldlM_loadFile hfiles

theorem Keyed.getManifest (h : Keyed registry) {manifest : RegisteredManifest}
    (hmem : manifest ∈ registry.map Prod.snd) : getManifest registry manifest.id = .ok manifest := by
  obtain ⟨entry, hentry, rfl⟩ := List.mem_map.mp hmem
  have hget := Dict.get?_of_mem h.nodup hentry
  rw [Models.getManifest, h.id_eq entry hentry, hget]

/-! ## What the index holds -/

theorem registerMapping_ok {requestedId manifestId : String} :
    registerMapping lib index requestedId manifestId = .ok index' ↔
      (∀ existing, index.get? requestedId = some existing → existing = manifestId) ∧
        index' = index.set requestedId manifestId := by
  rw [registerMapping]
  cases hexisting : index.get? requestedId with
  | none => simp [eq_comm]
  | some existing =>
    by_cases hsame : existing = manifestId
    · simp [hsame, eq_comm]
    · simp [hsame]

/-- The index after some names of one manifest. -/
theorem get?_of_registerMapping {requestedId manifestId : String}
    (h : registerMapping lib index requestedId manifestId = .ok index') (name id : String) :
    index'.get? name = some id ↔ index.get? name = some id ∨ (name = requestedId ∧ id = manifestId) := by
  obtain ⟨hsame, rfl⟩ := registerMapping_ok.mp h
  rw [Dict.get?_set]
  split
  next heq =>
    subst heq
    constructor
    · intro hid
      exact .inr ⟨rfl, (Option.some.inj hid).symm⟩
    · rintro (hold | ⟨-, rfl⟩)
      · rw [hsame id hold]
      · rfl
  next hne => simp [Ne.symm hne]

theorem get?_of_foldlM_registerMapping {names : List String} {manifestId : String}
    (h : names.foldlM (fun index name => registerMapping lib index name manifestId) index = .ok index')
    (name id : String) :
    index'.get? name = some id ↔ index.get? name = some id ∨ (name ∈ names ∧ id = manifestId) := by
  induction names generalizing index with
  | nil =>
    cases h
    simp
  | cons first rest ih =>
    obtain ⟨next, hnext, hrest⟩ := ok_of_bind h
    rw [ih hrest, get?_of_registerMapping hnext, List.mem_cons, or_assoc, ← or_and_right]

theorem get?_of_registerManifest {manifest : RegisteredManifest}
    (h : registerManifest lib index manifest = .ok index') (name id : String) :
    index'.get? name = some id ↔ index.get? name = some id ∨ (name ∈ manifest.publicNames ∧ id = manifest.id) := by
  obtain ⟨next, hnext, hrest⟩ := bind_eq_ok.mp h
  rw [get?_of_foldlM_registerMapping hrest, get?_of_registerMapping hnext, RegisteredManifest.publicNames,
    List.mem_cons, or_assoc, ← or_and_right]

theorem get?_of_foldlM_registerManifest {manifests : List RegisteredManifest}
    (h : manifests.foldlM (registerManifest lib) index = .ok index') (name id : String) :
    index'.get? name = some id ↔
      index.get? name = some id ∨ ∃ manifest ∈ manifests, name ∈ manifest.publicNames ∧ id = manifest.id := by
  induction manifests generalizing index with
  | nil =>
    cases h
    simp
  | cons first rest ih =>
    obtain ⟨next, hnext, hrest⟩ := ok_of_bind h
    rw [ih hrest, get?_of_registerManifest hnext, List.exists_mem_cons_iff, or_assoc]

/-- The index names every manifest by its public id and its aliases, and nothing else. -/
theorem get?_publicIdIndex (h : publicIdIndex lib registry = .ok index) (name id : String) :
    index.get? name = some id ↔
      ∃ manifest ∈ registry.map Prod.snd, name ∈ manifest.publicNames ∧ id = manifest.id := by
  have hall : listManifests registry false = registry.map Prod.snd := List.filter_true _
  rw [publicIdIndex, hall] at h
  rw [get?_of_foldlM_registerManifest h]
  simp [Dict.get?]

/-- The index hides the manifest of an id that is a public name of another one. -/
theorem resolveManifestId_eq_self_iff (h : publicIdIndex lib registry = .ok index) (modelId : String) :
    resolveManifestId index modelId = modelId ↔
      ∀ manifest ∈ registry.map Prod.snd, modelId ∈ manifest.publicNames → manifest.id = modelId := by
  have hindex := get?_publicIdIndex h modelId
  rw [resolveManifestId]
  constructor
  · intro hself manifest hmem hname
    have hget := (hindex manifest.id).mpr ⟨manifest, hmem, hname, rfl⟩
    rw [hget] at hself
    exact hself
  · intro hall
    cases hget : index.get? modelId with
    | none => rfl
    | some id =>
      obtain ⟨manifest, hmem, hname, rfl⟩ := (hindex id).mp hget
      exact hall manifest hmem hname

theorem resolveManifestId_publicName (h : publicIdIndex lib registry = .ok index) {manifest : RegisteredManifest}
    (hmem : manifest ∈ registry.map Prod.snd) {name : String} (hname : name ∈ manifest.publicNames) :
    resolveManifestId index name = manifest.id := by
  have hget := (get?_publicIdIndex h name manifest.id).mpr ⟨manifest, hmem, hname, rfl⟩
  rw [resolveManifestId, hget]
  rfl

/-- What the names of the manifests stand for. -/
structure Names (registry : Dict RegisteredManifest) (index : Dict String) : Prop where
  /-- A public id or an alias is always its own manifest. -/
  publicName : ∀ manifest ∈ registry.map Prod.snd, ∀ name ∈ manifest.publicNames,
    resolveManifestId index name = manifest.id ∧
      getManifest registry (resolveManifestId index name) = .ok manifest
  /-- An id is its own manifest unless another one has it for a public name. -/
  ownId : ∀ manifest ∈ registry.map Prod.snd, resolveManifestId index manifest.id = manifest.id ↔
    ∀ other ∈ registry.map Prod.snd, manifest.id ∈ other.publicNames → other = manifest
  /-- What is no public name stands for itself. -/
  unnamed : ∀ modelId, (∀ manifest ∈ registry.map Prod.snd, modelId ∉ manifest.publicNames) →
    resolveManifestId index modelId = modelId
  /-- Resolving again changes something only where what was found is a public name of another manifest. -/
  again : ∀ modelId, resolveManifestId index (resolveManifestId index modelId) = resolveManifestId index modelId ↔
    ∀ other ∈ registry.map Prod.snd, resolveManifestId index modelId ∈ other.publicNames →
      other.id = resolveManifestId index modelId

theorem names_of_loadAll {files : List (String × Except Exc RegisteredManifest)}
    (hload : loadAll lib files = .ok registry) (hindex : publicIdIndex lib registry = .ok index) :
    Names registry index := by
  have hkeyed := keyed_of_loadAll hload
  refine ⟨fun manifest hmem name hname => ?_, fun manifest hmem => ?_, fun modelId hnone => ?_, fun modelId => ?_⟩
  · have hname := resolveManifestId_publicName hindex hmem hname
    rw [hname]
    exact ⟨rfl, hkeyed.getManifest hmem⟩
  · rw [resolveManifestId_eq_self_iff hindex]
    constructor
    · intro hall other hother hname
      have hget := hkeyed.getManifest hother
      rw [hall other hother hname, hkeyed.getManifest hmem] at hget
      exact (Except.ok.inj hget).symm
    · intro hall other hother hname
      rw [hall other hother hname]
  · exact (resolveManifestId_eq_self_iff hindex modelId).mpr fun manifest hmem hname =>
      absurd hname (hnone manifest hmem)
  · exact resolveManifestId_eq_self_iff hindex _

end

/-! ## A legacy model whose id has become a public id -/

/-- A library in which no two manifests have the same dump. -/
def plainManifests : ManifestLibrary where
  isAlnum := Char.isAlphanum
  upper := String.toUpper
  quote text := "'" ++ text ++ "'"
  dump manifest := manifest.id

def stableDiffusionXl : RegisteredManifest where
  id := "stable-diffusion-xl"
  publicId := some "sdxl"
  provider := "local"
  mediaType := "image"
  taskType := "text-to-image"
  aliases := ["sdxl-local"]
  isDefault := true

theorem sdxl_ne_empty : "sdxl" ≠ "" := by decide

def legacySdxl : RegisteredManifest where
  id := "sdxl"
  publicId := some "legacy-sdxl"
  provider := "local"
  mediaType := "image"
  taskType := "text-to-image"
  id_ne_empty := sdxl_ne_empty

def sdxlFiles : List (String × Except Exc RegisteredManifest) :=
  [("image/legacy-sdxl.json", .ok legacySdxl), ("image/sdxl-local.json", .ok stableDiffusionXl)]

def sdxlRegistry : Dict RegisteredManifest := [("sdxl", legacySdxl), ("stable-diffusion-xl", stableDiffusionXl)]

def sdxlIndex : Dict String :=
  [("legacy-sdxl", "sdxl"), ("sdxl", "stable-diffusion-xl"), ("sdxl-local", "stable-diffusion-xl")]

theorem loadAll_sdxlFiles : loadAll plainManifests sdxlFiles = .ok sdxlRegistry := by
  rfl

theorem publicIdIndex_sdxlRegistry : publicIdIndex plainManifests sdxlRegistry = .ok sdxlIndex := by
  decide +kernel

theorem names_of_loadAll_sdxlFiles : Names sdxlRegistry sdxlIndex :=
  names_of_loadAll loadAll_sdxlFiles publicIdIndex_sdxlRegistry

/-- The id of the legacy manifest stands for the other one, and its public id does after resolving twice. -/
theorem legacySdxl_hidden : ∃ registry index, loadAll plainManifests sdxlFiles = .ok registry ∧
    publicIdIndex plainManifests registry = .ok index ∧
    ¬(∀ manifest ∈ registry.map Prod.snd, resolveManifestId index manifest.id = manifest.id) ∧
    ¬∀ modelId, resolveManifestId index (resolveManifestId index modelId) = resolveManifestId index modelId := by
  refine ⟨_, _, loadAll_sdxlFiles, publicIdIndex_sdxlRegistry, fun hown => ?_, fun hagain => ?_⟩
  · have hlegacy := hown legacySdxl (by simp [sdxlRegistry])
    have hhidden : resolveManifestId sdxlIndex legacySdxl.id = "stable-diffusion-xl" := by decide +kernel
    rw [hhidden] at hlegacy
    exact absurd hlegacy (by decide)
  · have htwice := hagain "legacy-sdxl"
    have hne : resolveManifestId sdxlIndex (resolveManifestId sdxlIndex "legacy-sdxl") ≠
        resolveManifestId sdxlIndex "legacy-sdxl" := by decide +kernel
    exact hne htwice

end CreativeStudio.Models
