import CreativeStudio.Prompting.Resolution

/-!
# The image generator

Everything a request is checked for before a runtime is used, the seeds of its variations, and
what the result says about each of them. What the runtime itself does is not modelled.
-/

namespace CreativeStudio.Generators
open Data Prompting

/-- The fields of a `ModelManifest` that the generator and the preflight read. -/
structure ModelManifest where
  id : String
  publicId : Option String := none
  displayName : String := ""
  runtime : String := ""
  provider : String := ""
  loader : String := ""
  defaultParams : Obj := []
  referenceCapability : Option ReferenceCapability := none
  id_ne_empty : id ≠ "" := by decide
  publicId_ne_empty : publicId ≠ some "" := by decide

/-- `public_model_id`. -/
def ModelManifest.publicModelId (manifest : ModelManifest) : String := manifest.publicId.getD manifest.id

/-- What ends a generation before its runtime is used. -/
inductive ImageError
  | reference (error : ReferenceError)
  | raised (exception : Exc)
  deriving DecidableEq, Repr

/-- Something is wrong with the references. -/
def ImageError.IsReference : ImageError → Prop
  | .reference _ => True
  | .raised _ => False

/-- What the generator finds outside: the files it can locate and open, the image a runtime
accepts, and the random seed it draws. -/
structure ImageHost where
  /-- `_resolve_optional_path` of a path that is not blank. -/
  locate : String → Option String
  /-- `Image.open` succeeds. -/
  readable : String → Bool
  /-- The pipeline of the runtime accepts a reference image. -/
  acceptsReferenceImage : Bool
  /-- `secrets.randbits(63)`. -/
  randomSeed : ℤ

/-- `float(value)`. -/
def toFloat (lib : PromptLibrary) : Json → Except Exc ℚ
  | .bool b => .ok (if b then 1 else 0)
  | .int n => .ok n
  | .float q => .ok q
  | .str s => match lib.parseFloat s with
    | some q => .ok q
    | none => .error (.value s!"could not convert string to float: {lib.repr s}")
  | _ => .error (.other "float() argument must be a string or a real number")

namespace ImageGenerator

/-- `_SEED_MODULUS`. -/
def seedModulus : ℤ := 2 ^ 63

/-- `_resolve_variation_count`. -/
def resolveVariationCount (params : Obj) : Except Exc ℕ :=
  match (params.get? "variation_count").getD (.int 1) with
  | .int n =>
    if n < 1 ∨ 4 < n then .error (.value "Image parameter 'variation_count' must be between 1 and 4.")
    else .ok n.toNat
  | _ => .error (.value "Image parameter 'variation_count' must be an integer between 1 and 4.")

/-- `_derive_variation_seed`. -/
def deriveVariationSeed (baseSeed : ℤ) (variationIndex : ℕ) : ℤ :=
  if variationIndex = 0 then baseSeed else (baseSeed + variationIndex) % seedModulus

/-- The parameters that only say where a request comes from. -/
def lineageMetadataKeys : List String :=
  ["source_asset_id", "source_job_id", "reference_asset_path", "reuse_action", "review_issue_tags", "review_source"]

/-- `_extract_lineage_metadata`. -/
def extractLineageMetadata (params : Obj) : Obj :=
  lineageMetadataKeys.filterMap fun key =>
    ((params.get? key).filter fun value => value ≠ .null).map fun value => (key, value)

/-- The `params` of a request over those of its model. -/
def effectiveParams (manifest : ModelManifest) (request : GenerationRequest) : Obj :=
  Dict.update manifest.defaultParams request.params

/-- What `resolve_generation_prompt` makes of the request. -/
def resolvePrompt (lib : PromptLibrary) (composer : Option PromptComposer) (manifest : ModelManifest)
    (request : GenerationRequest) : Except ReferenceError (ResolvedPrompt × Obj) :=
  let params := effectiveParams manifest request
  let template := ((params.get? "prompt_template").map lib.format).getD "image"
  resolveGenerationPrompt lib request params composer template

/-- `num_inference_steps`, `steps`, or 30. -/
def rawSteps (params : Obj) : Json :=
  (params.get? "num_inference_steps").getD ((params.get? "steps").getD (.int 30))

/-- The number of steps that is asked for. -/
def inferenceSteps (lib : PromptLibrary) (params : Obj) : Except Exc ℤ :=
  Assets.toInt lib.toLibrary (rawSteps params)

/-- `_resolve_optional_path`. -/
def resolveOptionalPath (lib : PromptLibrary) (host : ImageHost) : Json → Except Exc (Option String)
  | .null => .ok none
  | value =>
    let text := strip (lib.format value)
    if text = "" then .ok none
    else match host.locate text with
      | some path => .ok (some path)
      | none => .error (.other s!"LoRA path does not exist: {text}")

/-! ## The references of a request -/

/-- What `_resolve_references_for_conditioning` returns. -/
structure Conditioning where
  path : Option String := none
  strength : Option ℚ := none
  appliedAssetId : Option String := none
  considered : List ReferenceImageInput := []

/-- The references of the request and of its bible entries, each once. -/
def requestedReferences (request : GenerationRequest) (resolved : List ReferenceImageInput) :
    List ReferenceImageInput :=
  distinct (request.references ++ resolved)

/-- The asset of the one reference that is applied. -/
def resolvePrimary (lib : PromptLibrary) (composer : Option PromptComposer) (projectId : Option String)
    (primary : ReferenceImageInput) : Except ReferenceError Assets.Asset :=
  let named := s!"Reference asset {lib.repr primary.assetId} "
  let project (id : Option String) := match id.filter fun id => id ≠ "" with
    | some id => lib.repr id
    | none => lib.repr "no project"
  match composer.bind PromptComposer.assetRepository with
  | none => .error (.missingAsset (named ++ "was requested but no asset repository is configured to resolve it."))
  | some get =>
    match get primary.assetId with
    | none => .error (.missingAsset (named ++ "could not be resolved (missing or deleted); it may have " ++
        "existed when the prompt was composed but is no longer available."))
    | some asset =>
      if asset.mediaType ≠ .image then
        .error (.missingAsset (named ++ s!"is {lib.repr (Assets.mediaTypeText asset.mediaType)}, not image; " ++
          "reference-image conditioning requires an image asset."))
      else if asset.projectId ≠ projectId then
        .error (.missingAsset (named ++ s!"belongs to project {project asset.projectId}, not " ++
          s!"{project projectId}; a reference must belong to the same project as the job it conditions."))
      else .ok asset

/-- `_resolve_references_for_conditioning`. -/
def resolveReferencesForConditioning (lib : PromptLibrary) (composer : Option PromptComposer)
    (request : GenerationRequest) (resolved : List ReferenceImageInput) (manifest : ModelManifest)
    (projectId : Option String) : Except ReferenceError Conditioning := do
  let references := requestedReferences request resolved
  let effective := selectEffectiveReferences references
  let model := lib.repr manifest.publicModelId
  if effective.isEmpty then return { considered := references }
  else
    validateReferenceInputs lib effective manifest.referenceCapability manifest.publicModelId
    if (manifest.referenceCapability.all fun capability => .img2img ∉ capability.supportedModes) then
      throw (.imageParameter (s!"Model {model} does not advertise img2img in " ++
        "reference_capability.supported_modes, which is the only conditioning mode this path implements."))
    else match effective with
      | [primary] =>
        if primary.preprocessing ≠ .none ∧ primary.preprocessing ≠ .auto then
          throw (.imageParameter (s!"Model {model}: reference preprocessing " ++
            s!"{lib.repr (Assets.preprocessingText primary.preprocessing)} is not implemented by this " ++
            "conditioning path (only 'none'/'auto', a plain resize, are)."))
        else
          let asset ← resolvePrimary lib composer projectId primary
          return {
            path := some asset.path
            strength := some primary.strength
            appliedAssetId := some primary.assetId
            considered := references }
      | _ => throw (.imageParameter (s!"Model {model} was asked to honor {effective.length} reference images " ++
          "at once, but this conditioning path applies exactly one; remove all but one non-zero-strength " ++
          "reference from the request or Bible entries in play."))

/-- The parameters that choose timesteps themselves. -/
def timestepParams : List String := ["denoising_start", "denoising_end", "timesteps", "sigmas"]

/-- `int(num_inference_steps * img2img_strength)`. -/
def denoisingSteps (steps : ℤ) (strength : ℚ) : ℤ :=
  let product := steps * (1 - strength)
  if 0 ≤ product then ⌊product⌋ else ⌈product⌉

/-! ## Before the runtime -/

/-- What `generate` has settled when it starts to use the runtime. -/
structure ImagePlan where
  resolved : ResolvedPrompt
  /-- The `effective_params` that are left for the pipeline. -/
  params : Obj
  variationCount : ℕ
  width : ℤ
  height : ℤ
  steps : ℤ
  guidanceScale : ℚ
  loraPath : Option String
  loraScale : ℚ
  lineage : Obj
  baseSeed : ℤ
  conditioning : Conditioning

def ofRaised (x : Except Exc α) : Except ImageError α := x.mapError .raised

def ofReference (x : Except ReferenceError α) : Except ImageError α := x.mapError .reference

/-- One of the sizes that `validate_capabilities` checks. -/
def validateSize (name : String) (value : ℤ) : Except Exc Unit :=
  if value < 64 ∨ 2048 < value then
    .error (.value s!"{name}={value} is outside this provider's supported range [64, 2048].")
  else if value % 8 ≠ 0 then .error (.value s!"{name}={value} must be a multiple of 8 for this provider.")
  else .ok ()

/-- `validate_request`. -/
def validateRequest (request : GenerationRequest) : Except Exc Unit :=
  if request.mediaType ≠ .image then .error (.value "ImageGenerator only supports image requests.")
  else if strip request.prompt = "" then .error (.value "Image prompt must not be empty.")
  else if (request.outputFormat.filter fun text => text ≠ "").any fun text => text.toLower ≠ "png" then
    .error (.value "ImageGenerator currently supports png output only.")
  else (resolveVariationCount request.params).map fun _ => ()

/-- The keys of `effective_params` that the generator takes for itself. -/
def ownKeys : List String :=
  ["variation_count", "width", "height", "num_inference_steps", "steps", "guidance_scale", "lora_path",
    "lora_scale"]

/-- The reference image is opened, in a size that the provider has. -/
def openReferenceImage (lib : PromptLibrary) (host : ImageHost) (width height : ℤ) :
    Option String → Except ImageError Unit
  | none => .ok ()
  | some path => do
    ofRaised (validateSize "width" width)
    ofRaised (validateSize "height" height)
    if host.readable path then .ok ()
    else .error (.raised (.other s!"cannot identify image file {lib.repr path}"))

/-- The part of `generate` before the lease. -/
def preflight (lib : PromptLibrary) (host : ImageHost) (composer : Option PromptComposer)
    (manifest : ModelManifest) (request : GenerationRequest) (projectId : Option String) :
    Except ImageError ImagePlan := do
  ofRaised (validateRequest request)
  let (resolved, params) ← ofReference (resolvePrompt lib composer manifest request)
  let variationCount ← ofRaised (resolveVariationCount params)
  let width ← ofRaised (Assets.toInt lib.toLibrary ((params.get? "width").getD (.int 1024)))
  let height ← ofRaised (Assets.toInt lib.toLibrary ((params.get? "height").getD (.int 1024)))
  let steps ← ofRaised (inferenceSteps lib params)
  let guidanceScale ← ofRaised (toFloat lib ((params.get? "guidance_scale").getD (.float (15 / 2))))
  let scale ← ofRaised (toFloat lib ((params.get? "lora_scale").getD (.float 1)))
  let named := (params.get? "lora_path").filter JsonOf.truthy
  let bibleLora := if named.isSome then none else resolved.lora.filter fun lora => !lora.isEmpty
  let loraScale ← ofRaised (toFloat lib ((bibleLora.bind fun lora => lora.get? "scale").getD (.float scale)))
  let loraPath ← ofRaised (resolveOptionalPath lib host
    ((bibleLora.elim (params.get? "lora_path") fun lora => lora.get? "path").getD .null))
  let baseSeed := resolved.seed.getD host.randomSeed
  let conditioning ← ofReference (resolveReferencesForConditioning lib composer request
    resolved.resolvedReferences manifest projectId)
  openReferenceImage lib host width height conditioning.path
  let lineage := extractLineageMetadata params
  return {
    resolved, variationCount, width, height, steps, guidanceScale, loraPath, loraScale, lineage, baseSeed,
    conditioning
    params := eraseAll (lineage.map Prod.fst) (eraseAll ownKeys params) }

/-- The checks of the lease that only look at the runtime. -/
def inspect (lib : PromptLibrary) (host : ImageHost) (manifest : ModelManifest) (plan : ImagePlan) :
    Except ImageError Unit := do
  let model := lib.repr manifest.publicModelId
  match plan.conditioning.strength with
  | none =>
    ofRaised (validateSize "width" plan.width)
    ofRaised (validateSize "height" plan.height)
  | some strength =>
    if !host.acceptsReferenceImage then
      throw (.raised (.value "reference_image_path is not supported by this provider."))
    else match timestepParams.find? fun key => (plan.params.get? key).isSome with
      | some key => throw (.reference (.imageParameter (s!"Model {model}: {lib.repr key} cannot be combined " ++
          "with reference-image conditioning -- diffusers img2img's timestep selection from " ++
          "denoising_start/denoising_end/timesteps/sigmas does not compose with the computed 'strength', so the " ++
          s!"reference's lock strength would not be honored. Remove {lib.repr key} from params or drop the reference.")))
      | none =>
        ofRaised (validateSize "width" plan.width)
        ofRaised (validateSize "height" plan.height)
        if denoisingSteps plan.steps strength < 1 then
          throw (.reference (.imageParameter (s!"Model {model}: the requested reference lock strength " ++
            s!"{lib.format (.float strength)} combined with {plan.steps} inference step(s) would leave diffusers with " ++
            "zero denoising steps to actually run. Increase num_inference_steps or reduce the reference strength.")))

/-- What `generate` checks before it changes anything of the runtime. -/
def start (lib : PromptLibrary) (host : ImageHost) (composer : Option PromptComposer)
    (manifest : ModelManifest) (request : GenerationRequest) (projectId : Option String) :
    Except ImageError ImagePlan := do
  let plan ← preflight lib host composer manifest request projectId
  inspect lib host manifest plan
  return plan

/-! ## The reference that is applied -/

section
variable {α β : Type} {lib : PromptLibrary} {host : ImageHost} {composer : Option PromptComposer}
  {manifest : ModelManifest} {request : GenerationRequest} {projectId : Option String}

@[simp] theorem ofRaised_ok {x : Except Exc α} {a : α} : ofRaised x = .ok a ↔ x = .ok a := by
  cases x <;> simp [ofRaised, Except.mapError]

@[simp] theorem ofReference_ok {x : Except ReferenceError α} {a : α} : ofReference x = .ok a ↔ x = .ok a := by
  cases x <;> simp [ofReference, Except.mapError]

/-- Nothing that the computation raises is about references. -/
def Blameless (x : Except ImageError α) : Prop := ∀ error, x = .error error → ¬ error.IsReference

theorem blameless_ok (a : α) : Blameless (.ok a) := nofun

theorem blameless_raised (exception : Exc) : Blameless (α := α) (.error (.raised exception)) := by
  rintro _ ⟨rfl⟩
  exact id

theorem blameless_ofRaised (x : Except Exc α) : Blameless (ofRaised x) := by
  cases x with
  | ok a => exact blameless_ok a
  | error e => exact blameless_raised e

theorem Blameless.bind {x : Except ImageError α} {f : α → Except ImageError β} (hx : Blameless x)
    (hf : ∀ a, x = .ok a → Blameless (f a)) : Blameless (x >>= f) := by
  intro error herror
  rcases error_of_bind herror with herror | ⟨a, ha, herror⟩
  · exact hx error herror
  · exact hf a ha error herror

theorem get?_eraseAll (keys : List String) (params : Obj) (key : String) :
    (eraseAll keys params).get? key = if key ∈ keys then none else params.get? key := by
  unfold eraseAll
  induction keys generalizing params with
  | nil => simp
  | cons first rest ih =>
    rw [List.foldl_cons, ih, Dict.get?_erase]
    by_cases hkey : key = first <;> by_cases hrest : key ∈ rest <;> simp [hkey, hrest]

/-- What the references of a request come to before the model is looked at: nothing, or one
that the manifest lets this path apply. -/
structure Appliable (manifest : ModelManifest) (reference : ReferenceImageInput) : Prop where
  advertised : ∃ capability, manifest.referenceCapability = some capability ∧ Honors capability reference ∧
    .img2img ∈ capability.supportedModes
  preprocessing : reference.preprocessing = .none ∨ reference.preprocessing = .auto

/-- The parameters of a request let the reference have its effect. -/
structure Denoisable (lib : PromptLibrary) (params : Obj) (reference : ReferenceImageInput) : Prop where
  timesteps : ∀ key ∈ timestepParams, params.get? key = none
  steps : ∃ steps, inferenceSteps lib params = .ok steps ∧ 1 ≤ denoisingSteps steps reference.strength

/-- What is returned for the one reference that is applied. -/
def conditioned (considered : List ReferenceImageInput) (primary : ReferenceImageInput) (asset : Assets.Asset) :
    Conditioning where
  path := some asset.path
  strength := some primary.strength
  appliedAssetId := some primary.assetId
  considered := considered

theorem appliable_iff {reference : ReferenceImageInput} (modelId : String) : Appliable manifest reference ↔
    validateReferenceInputs lib [reference] manifest.referenceCapability modelId = .ok () ∧
      (manifest.referenceCapability.all fun capability => .img2img ∉ capability.supportedModes) = false ∧
      (reference.preprocessing = .none ∨ reference.preprocessing = .auto) := by
  rw [validateReferenceInputs_singleton]
  constructor
  · rintro ⟨⟨capability, hcapability, hhonors, hmode⟩, hpreprocessing⟩
    exact ⟨⟨capability, hcapability, hhonors⟩, by simp [hcapability, hmode], hpreprocessing⟩
  · rintro ⟨⟨capability, hcapability, hhonors⟩, hmode, hpreprocessing⟩
    exact ⟨⟨capability, hcapability, hhonors, by simpa [hcapability] using hmode⟩, hpreprocessing⟩

/-- The generator resolves one reference that it may apply, or none. -/
theorem resolveReferencesForConditioning_eq_ok {resolved : List ReferenceImageInput} {conditioning : Conditioning} :
    resolveReferencesForConditioning lib composer request resolved manifest projectId = .ok conditioning ↔
      selectEffectiveReferences (requestedReferences request resolved) = [] ∧
          conditioning = { considered := requestedReferences request resolved } ∨
        ∃ primary asset, selectEffectiveReferences (requestedReferences request resolved) = [primary] ∧
          Appliable manifest primary ∧ resolvePrimary lib composer projectId primary = .ok asset ∧
          conditioning = conditioned (requestedReferences request resolved) primary asset := by
  unfold resolveReferencesForConditioning
  generalize requestedReferences request resolved = references
  rcases heffective : selectEffectiveReferences references with _ | ⟨primary, _ | ⟨second, rest⟩⟩
  · simp [heffective, pure, Except.pure, eq_comm]
  · simp only [heffective, List.isEmpty_cons, Bool.false_eq_true, if_false, bind_eq_ok]
    constructor
    · rintro ⟨⟨⟩, hvalid, h⟩
      split at h
      · cases h
      next hmode =>
        split at h
        · cases h
        next hpreprocessing =>
          obtain ⟨asset, hasset, h⟩ := bind_eq_ok.mp h
          refine .inr ⟨primary, asset, rfl, (appliable_iff _).mpr ⟨hvalid, by simpa using hmode, ?_⟩, hasset, ?_⟩
          · by_contra hneither
            exact hpreprocessing (not_or.mp hneither)
          · cases h
            rfl
    · rintro (⟨h, -⟩ | ⟨_, asset, ⟨rfl⟩, happliable, hasset, rfl⟩)
      · cases h
      · obtain ⟨hvalid, hmode, hpreprocessing⟩ := (@appliable_iff lib manifest primary manifest.publicModelId).mp happliable
        refine ⟨(), hvalid, ?_⟩
        rw [if_neg (by rw [hmode]; exact Bool.false_ne_true), if_neg (fun h => hpreprocessing.elim h.1 h.2), hasset]
        rfl
  · simp only [heffective, List.isEmpty_cons, Bool.false_eq_true, if_false]
    constructor
    · intro h
      obtain ⟨⟨⟩, -, h⟩ := ok_of_bind h
      split at h <;> cases h
    · rintro (⟨h, -⟩ | ⟨_, _, h, -⟩) <;> cases h

/-- The one reference is an image of the project. -/
theorem resolvePrimary_eq_ok {get : String → Option Assets.Asset} {stores : PromptComposer}
    (hget : stores.assetRepository = some get) {primary : ReferenceImageInput} {asset : Assets.Asset} :
    resolvePrimary lib (some stores) projectId primary = .ok asset ↔
      get primary.assetId = some asset ∧ asset.mediaType = .image ∧ asset.projectId = projectId := by
  unfold resolvePrimary
  simp only [Option.bind_some, hget]
  cases hasset : get primary.assetId with
  | none => simp
  | some found =>
    simp only [Option.some.injEq]
    constructor
    · intro h
      split at h
      · cases h
      next himage =>
        split at h
        · cases h
        next hproject =>
          cases h
          exact ⟨rfl, not_not.mp himage, not_not.mp hproject⟩
    · rintro ⟨rfl, himage, hproject⟩
      simp [himage, hproject]

theorem mem_lineageMetadataKeys {params : Obj} {key : String}
    (h : key ∈ (extractLineageMetadata params).map Prod.fst) : key ∈ lineageMetadataKeys := by
  obtain ⟨member, hmember, rfl⟩ := List.mem_map.mp h
  obtain ⟨key, hkey, hvalue⟩ := List.mem_filterMap.mp hmember
  obtain ⟨value, -, rfl⟩ := Option.map_eq_some_iff.mp hvalue
  exact hkey

/-- The parameters of timesteps are left for the pipeline. -/
theorem get?_left (params : Obj) {key : String} (h : key ∈ timestepParams) :
    (eraseAll ((extractLineageMetadata params).map Prod.fst) (eraseAll ownKeys params)).get? key =
      params.get? key := by
  have hown : key ∉ ownKeys := by
    revert key
    decide
  have hlineage : key ∉ lineageMetadataKeys := by
    revert key
    decide
  rw [get?_eraseAll, if_neg fun hmem => hlineage (mem_lineageMetadataKeys hmem), get?_eraseAll, if_neg hown]

/-- What decides over the denoising steps is not among the keys that a prompt consumes. -/
theorem get?_resolved (params : Obj) {key : String}
    (h : key ∈ "num_inference_steps" :: "steps" :: timestepParams) :
    (eraseAll resolutionParamKeys params).get? key = params.get? key := by
  have hnot : key ∉ resolutionParamKeys := by
    revert key
    decide
  rw [get?_eraseAll, if_neg hnot]

theorem inferenceSteps_resolved (params : Obj) :
    inferenceSteps lib (eraseAll resolutionParamKeys params) = inferenceSteps lib params := by
  simp only [inferenceSteps, rawSteps, get?_resolved params (List.mem_cons_self),
    @get?_resolved params "steps" (by simp)]

/-- What a plan says of the references and of what decides over them. -/
theorem of_preflight {plan : ImagePlan} (h : preflight lib host composer manifest request projectId = .ok plan) :
    ∃ params, resolvePrompt lib composer manifest request = .ok (plan.resolved, params) ∧
      inferenceSteps lib params = .ok plan.steps ∧
      resolveReferencesForConditioning lib composer request plan.resolved.resolvedReferences manifest projectId =
        .ok plan.conditioning ∧
      plan.params = eraseAll ((extractLineageMetadata params).map Prod.fst) (eraseAll ownKeys params) := by
  simp only [preflight, bind_eq_ok, ofRaised_ok, ofReference_ok] at h
  obtain ⟨_, -, ⟨resolved, params⟩, hresolved, _, -, _, -, _, -, steps, hsteps, _, -, _, -, _, -, _, -,
    conditioning, hconditioning, _, -, hplan⟩ := h
  cases hplan
  exact ⟨params, hresolved, hsteps, hconditioning, rfl⟩

theorem blameless_openReferenceImage (width height : ℤ) (path : Option String) :
    Blameless (openReferenceImage lib host width height path) := by
  cases path with
  | none => exact blameless_ok ()
  | some path =>
    refine (blameless_ofRaised _).bind fun _ _ => (blameless_ofRaised _).bind fun _ _ => ?_
    split
    · exact blameless_ok ()
    · exact blameless_raised _

/-- Before the lease only the prompt and the choice of a reference raise an error about references. -/
theorem blameless_preflight {resolved : ResolvedPrompt} {params : Obj} {conditioning : Conditioning}
    (hresolved : resolvePrompt lib composer manifest request = .ok (resolved, params))
    (hconditioning : resolveReferencesForConditioning lib composer request resolved.resolvedReferences manifest
      projectId = .ok conditioning) :
    Blameless (preflight lib host composer manifest request projectId) := by
  unfold preflight
  rw [hresolved]
  refine (blameless_ofRaised _).bind fun _ _ => (blameless_ok (resolved, params)).bind fun _ h => ?_
  cases h
  refine (blameless_ofRaised _).bind fun _ _ => (blameless_ofRaised _).bind fun _ _ => ?_
  refine (blameless_ofRaised _).bind fun _ _ => (blameless_ofRaised _).bind fun _ _ => ?_
  refine (blameless_ofRaised _).bind fun _ _ => (blameless_ofRaised _).bind fun _ _ => ?_
  refine (blameless_ofRaised _).bind fun _ _ => (blameless_ofRaised _).bind fun _ _ => ?_
  simp only [hconditioning]
  exact (blameless_ok conditioning).bind fun _ _ =>
    (blameless_openReferenceImage _ _ _).bind fun _ _ => blameless_ok _

theorem find?_timestepParams_eq_none {params : Obj} :
    (timestepParams.find? fun key => (params.get? key).isSome) = none ↔
      ∀ key ∈ timestepParams, params.get? key = none := by
  simp [List.find?_eq_none]

theorem blameless_inspect {plan : ImagePlan} (h : ∀ strength, plan.conditioning.strength = some strength →
    (∀ key ∈ timestepParams, plan.params.get? key = none) ∧ 1 ≤ denoisingSteps plan.steps strength) :
    Blameless (inspect lib host manifest plan) := by
  unfold inspect
  cases hstrength : plan.conditioning.strength with
  | none => exact (blameless_ofRaised _).bind fun _ _ => blameless_ofRaised _
  | some strength =>
    obtain ⟨htimesteps, hsteps⟩ := h strength hstrength
    simp only [find?_timestepParams_eq_none.mpr htimesteps]
    split
    · exact blameless_raised _
    · refine (blameless_ofRaised _).bind fun _ _ => (blameless_ofRaised _).bind fun _ _ => ?_
      rw [if_neg (not_lt.mpr hsteps)]
      exact blameless_ok ()

theorem of_inspect {plan : ImagePlan} {strength : ℚ} (hstrength : plan.conditioning.strength = some strength)
    (h : inspect lib host manifest plan = .ok ()) :
    (∀ key ∈ timestepParams, plan.params.get? key = none) ∧ 1 ≤ denoisingSteps plan.steps strength := by
  unfold inspect at h
  simp only [hstrength] at h
  split at h
  · cases h
  · split at h
    · cases h
    next hnone =>
      simp only [bind_eq_ok] at h
      obtain ⟨-, -, -, -, h⟩ := h
      split at h
      · cases h
      next hsteps =>
        exact ⟨find?_timestepParams_eq_none.mp hnone, not_lt.mp hsteps⟩

end

end ImageGenerator

end CreativeStudio.Generators
