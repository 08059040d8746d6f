import CreativeStudio.Generators.Image

/-!
# References are checked before a job is made

`validate_references` runs in a route, the generator in a worker. Each of them merges the
parameters and expands the bible on its own, and they are compared here.
-/

namespace CreativeStudio.Jobs
open Data Prompting Generators

/-- What `validate_references` asks of a `JobService`: its repositories, and the answer of
`get_manifest` for the request or the text of its `LookupError`. -/
structure ReferenceService where
  assetRepository : Option (String → Option Assets.Asset) := none
  bibleRepository : Option (String → Option BibleEntry) := none
  modelService : Option (Except String ModelManifest) := none

namespace ReferenceService

/-- A text in an f-string, `or 'no project'`. -/
def projectName (lib : PromptLibrary) (projectId : Option String) : String :=
  lib.repr ((projectId.filter fun id => id ≠ "").getD "no project")

/-- `repr` of a parameter. -/
def quoted (lib : PromptLibrary) : Json → String
  | .str text => lib.repr text
  | value => lib.format value

/-- `_reject_cross_project_reference_asset`. -/
def rejectCrossProjectReferenceAsset (lib : PromptLibrary) (get : String → Option Assets.Asset)
    (projectId : Option String) (assetId : String) : Except ReferenceError Unit :=
  match get assetId with
  | none => .ok ()
  | some asset =>
    if asset.projectId ≠ projectId then
      .error (.missingAsset (s!"Reference asset {lib.repr assetId} belongs to project " ++
        s!"{projectName lib asset.projectId}, not {projectName lib projectId}; a reference must belong to the " ++
        "same project as the job it conditions."))
    else .ok ()

/-- The entries that the request itself names, in the order in which it names them. -/
def bibleEntries (service : ReferenceService) (request : GenerationRequest) : List BibleEntry :=
  match service.assetRepository, service.bibleRepository, request.params.get? "bible_refs" with
  | some _, some get, some (.arr entryIds) =>
    if request.mediaType = .image then (entryIds.filterMap JsonOf.str?).filterMap get else []
  | _, _, _ => []

/-- The references of those entries, each once. -/
def bibleReferenceInputs (service : ReferenceService) (request : GenerationRequest) : List ReferenceImageInput :=
  distinct ((service.bibleEntries request).flatMap BibleEntry.references)

/-- The references that are checked against the manifest. -/
def effectiveReferences (service : ReferenceService) (request : GenerationRequest) : List ReferenceImageInput :=
  selectEffectiveReferences (distinct (request.references ++ service.bibleReferenceInputs request))

/-- `_resolve_manifest_for_references`. -/
def resolveManifestForReferences (lib : PromptLibrary) (service : ReferenceService) (request : GenerationRequest) :
    Except ReferenceError (Option ModelManifest) :=
  match service.modelService with
  | none => .ok none
  | some (.ok manifest) => .ok (some manifest)
  | some (.error text) => .error (.unsupported
      s!"Cannot validate reference-image conditioning for model {lib.repr request.modelId}: {text}")

/-- `_require_img2img_mode`. -/
def requireImg2imgMode (lib : PromptLibrary) (manifest : ModelManifest) (modelId : String) :
    Except ReferenceError Unit :=
  if (manifest.referenceCapability.all fun capability => .img2img ∉ capability.supportedModes) then
    .error (.unsupported ("Model " ++ lib.repr (if modelId = "" then manifest.publicModelId else modelId) ++ " does not " ++
      "advertise img2img in reference_capability.supported_modes, which is the only conditioning mode this path " ++
      "implements."))
  else .ok ()

/-- What is asked of the one reference that is applied. -/
def checkPrimary (lib : PromptLibrary) (manifest : ModelManifest) (request : GenerationRequest)
    (primary : ReferenceImageInput) : Except ReferenceError Unit := do
  let model := lib.repr request.modelId
  if primary.preprocessing ≠ .none ∧ primary.preprocessing ≠ .auto then
    throw (.unsupported (s!"Model {model}: reference preprocessing " ++
      s!"{lib.repr (Assets.preprocessingText primary.preprocessing)} is not implemented by this conditioning path " ++
      "(only 'none'/'auto', a plain resize, are)."))
  else
    let params := ImageGenerator.effectiveParams manifest request
    match ImageGenerator.timestepParams.find? fun key => (params.get? key).isSome with
    | some key => throw (.unsupported (s!"Model {model}: {lib.repr key} cannot be combined with reference-image " ++
        "conditioning -- diffusers img2img's timestep selection from denoising_start/denoising_end/timesteps/sigmas " ++
        "does not compose with the computed 'strength', so the reference's lock strength would not be honored. " ++
        s!"Remove {lib.repr key} from params or drop the reference."))
    | none =>
      match ImageGenerator.inferenceSteps lib params with
      | .error _ => throw (.unsupported (s!"Model {model}: num_inference_steps/steps must be a number, not " ++
          s!"{quoted lib (ImageGenerator.rawSteps params)}."))
      | .ok steps =>
        if ImageGenerator.denoisingSteps steps primary.strength < 1 then
          throw (.unsupported (s!"Model {model}: the requested reference lock strength " ++
            s!"{lib.format (.float primary.strength)} combined with {steps} inference step(s) would leave diffusers " ++
            "with zero denoising steps to actually run. Increase num_inference_steps or reduce the reference strength."))

/-- The check that every image belongs to the project. The loop over the entries of the
source is two, since what an entry adds does not depend on this check. -/
def rejectCrossProject (lib : PromptLibrary) (service : ReferenceService) (request : GenerationRequest)
    (projectId : Option String) : Except ReferenceError Unit :=
  match service.assetRepository with
  | none => .ok ()
  | some get => (request.references ++ (service.bibleEntries request).flatMap BibleEntry.references).foldlM
      (fun _ reference => rejectCrossProjectReferenceAsset lib get projectId reference.assetId) ()

/-- The check of the references that have an effect. -/
def checkEffective (lib : PromptLibrary) (service : ReferenceService) (request : GenerationRequest) :
    List ReferenceImageInput → Except ReferenceError Unit
  | [] => .ok ()
  | primary :: rest => do
    match ← resolveManifestForReferences lib service request with
    | none => return ()
    | some manifest =>
      validateReferenceInputs lib (primary :: rest) manifest.referenceCapability
        (if request.modelId = "" then manifest.publicModelId else request.modelId)
      requireImg2imgMode lib manifest request.modelId
      if rest ≠ [] then
        throw (.unsupported (s!"Model {lib.repr request.modelId}: reference-image conditioning honors exactly one " ++
          "reference image per request (across `references` and Bible-derived character/location entries combined; " ++
          "zero-strength references are audit-only and do not count toward this limit); got " ++
          s!"{rest.length + 1} with non-zero strength."))
      else checkPrimary lib manifest request primary

/-- `validate_references`. -/
def validateReferences (lib : PromptLibrary) (service : ReferenceService) (request : GenerationRequest)
    (projectId : Option String) : Except ReferenceError Unit := do
  service.rejectCrossProject lib request projectId
  service.checkEffective lib request (service.effectiveReferences request)

/-! ## What the preflight accepts -/

section
variable {lib : PromptLibrary} {service : ReferenceService} {manifest : ModelManifest} {request : GenerationRequest}
  {projectId : Option String}

theorem rejectCrossProjectReferenceAsset_eq_ok {get : String → Option Assets.Asset} {assetId : String} :
    rejectCrossProjectReferenceAsset lib get projectId assetId = .ok () ↔
      ∀ asset, get assetId = some asset → asset.projectId = projectId := by
  unfold rejectCrossProjectReferenceAsset
  cases get assetId with
  | none => simp
  | some asset => by_cases h : asset.projectId = projectId <;> simp [h]

theorem requireImg2imgMode_eq_ok {modelId : String} : requireImg2imgMode lib manifest modelId = .ok () ↔
    (manifest.referenceCapability.all fun capability => .img2img ∉ capability.supportedModes) = false := by
  unfold requireImg2imgMode
  split
  next h => exact ⟨nofun, fun hnot => absurd h (by rw [hnot]; exact Bool.false_ne_true)⟩
  next h => exact ⟨fun _ => Bool.eq_false_of_not_eq_true h, fun _ => rfl⟩

theorem checkPrimary_eq_ok {primary : ReferenceImageInput} :
    checkPrimary lib manifest request primary = .ok () ↔
      (primary.preprocessing = .none ∨ primary.preprocessing = .auto) ∧
        ImageGenerator.Denoisable lib (ImageGenerator.effectiveParams manifest request) primary := by
  unfold checkPrimary
  by_cases hpreprocessing : primary.preprocessing = .none ∨ primary.preprocessing = .auto
  · have hneither : ¬ (primary.preprocessing ≠ .none ∧ primary.preprocessing ≠ .auto) :=
      fun h => hpreprocessing.elim h.1 h.2
    simp only [if_neg hneither]
    generalize ImageGenerator.effectiveParams manifest request = params
    constructor
    · intro h
      split at h
      · cases h
      next hnone =>
        split at h
        · cases h
        next steps hsteps =>
          split at h
          · cases h
          next hdenoising =>
            exact ⟨hpreprocessing, ImageGenerator.find?_timestepParams_eq_none.mp hnone, steps, hsteps,
              not_lt.mp hdenoising⟩
    · rintro ⟨-, htimesteps, steps, hsteps, hdenoising⟩
      simp only [ImageGenerator.find?_timestepParams_eq_none.mpr htimesteps, hsteps,
        if_neg (not_lt.mpr hdenoising)]
      rfl
  · rw [if_pos (not_or.mp hpreprocessing)]
    refine ⟨nofun, fun h => absurd h.1 hpreprocessing⟩

/-- No image belongs to another project. -/
def SameProject (get : String → Option Assets.Asset) (projectId : Option String)
    (references : List ReferenceImageInput) : Prop :=
  ∀ reference ∈ references, ∀ asset, get reference.assetId = some asset → asset.projectId = projectId

/-- Nothing is applied, or one reference that the manifest and the parameters admit. -/
def Admits (lib : PromptLibrary) (manifest : ModelManifest) (request : GenerationRequest)
    (effective : List ReferenceImageInput) : Prop :=
  effective = [] ∨ ∃ primary, effective = [primary] ∧ ImageGenerator.Appliable manifest primary ∧
    ImageGenerator.Denoisable lib (ImageGenerator.effectiveParams manifest request) primary

theorem admits_congr {a b : List ReferenceImageInput} (ha : a.Nodup) (hb : b.Nodup)
    (hsame : ∀ reference, reference ∈ a ↔ reference ∈ b) :
    Admits lib manifest request a ↔ Admits lib manifest request b := by
  have hperm : a.Perm b := (List.perm_ext_iff_of_nodup ha hb).mpr hsame
  unfold Admits
  constructor
  · rintro (rfl | ⟨primary, rfl, hadmitted⟩)
    · exact .inl (List.nil_perm.mp hperm)
    · exact .inr ⟨primary, (List.singleton_perm.mp hperm).symm, hadmitted⟩
  · rintro (rfl | ⟨primary, rfl, hadmitted⟩)
    · exact .inl (List.perm_nil.mp hperm)
    · exact .inr ⟨primary, List.perm_singleton.mp hperm, hadmitted⟩

theorem rejectCrossProject_eq_ok {get : String → Option Assets.Asset} (hassets : service.assetRepository = some get) :
    service.rejectCrossProject lib request projectId = .ok () ↔
      SameProject get projectId (request.references ++ (service.bibleEntries request).flatMap BibleEntry.references) := by
  simp only [rejectCrossProject, hassets]
  refine foldlM_check_ok.trans ?_
  exact forall₂_congr fun _ _ => rejectCrossProjectReferenceAsset_eq_ok

theorem checkEffective_eq_ok (hmanifest : service.modelService = some (.ok manifest))
    (effective : List ReferenceImageInput) :
    service.checkEffective lib request effective = .ok () ↔ Admits lib manifest request effective := by
  unfold Admits
  rcases effective with _ | ⟨primary, rest⟩
  · simp [checkEffective]
  · have hresolve : resolveManifestForReferences lib service request = .ok (some manifest) := by
      simp [resolveManifestForReferences, hmanifest]
    simp only [checkEffective, hresolve]
    have happliable := @ImageGenerator.appliable_iff lib manifest primary
      (if request.modelId = "" then manifest.publicModelId else request.modelId)
    have hprimary := @checkPrimary_eq_ok lib manifest request primary
    constructor
    · intro h
      obtain ⟨_, hfound, hbody⟩ := bind_eq_ok.mp h
      cases hfound
      obtain ⟨⟨⟩, hvalid, hrest⟩ := bind_eq_ok.mp hbody
      obtain ⟨⟨⟩, hmode, hlast⟩ := bind_eq_ok.mp hrest
      split at hlast
      · cases hlast
      next hsingle =>
        obtain rfl := not_not.mp hsingle
        obtain ⟨hpreprocessing, hdenoisable⟩ := hprimary.mp hlast
        exact .inr ⟨primary, rfl, happliable.mpr ⟨hvalid, requireImg2imgMode_eq_ok.mp hmode, hpreprocessing⟩,
          hdenoisable⟩
    · rintro (h | ⟨_, h, happlies, hdenoises⟩)
      · cases h
      · cases h
        obtain ⟨hvalid, hmode, hpreprocessing⟩ := happliable.mp happlies
        refine bind_eq_ok.mpr ⟨_, rfl, bind_eq_ok.mpr ⟨(), hvalid, bind_eq_ok.mpr
          ⟨(), requireImg2imgMode_eq_ok.mpr hmode, ?_⟩⟩⟩
        rw [if_neg (not_not.mpr rfl)]
        exact hprimary.mpr ⟨hpreprocessing, hdenoises⟩

/-- The preflight accepts what is of the project and admitted. -/
theorem validateReferences_eq_ok {get : String → Option Assets.Asset} (hassets : service.assetRepository = some get)
    (hmanifest : service.modelService = some (.ok manifest)) :
    service.validateReferences lib request projectId = .ok () ↔
      SameProject get projectId (request.references ++ (service.bibleEntries request).flatMap BibleEntry.references) ∧
        Admits lib manifest request (service.effectiveReferences request) := by
  rw [← @rejectCrossProject_eq_ok lib service request projectId get hassets, ← checkEffective_eq_ok hmanifest, validateReferences,
    bind_eq_ok]
  exact ⟨fun ⟨_, hproject, heffective⟩ => ⟨hproject, heffective⟩, fun ⟨hproject, heffective⟩ => ⟨(), hproject, heffective⟩⟩

end

end ReferenceService

/-! ## The preflight and the generator -/

/-- The bible and the assets, as they answer in the route and in the worker. -/
structure ReferenceStores where
  bible : String → Option BibleEntry
  assets : String → Option Assets.Asset

namespace ReferenceStores

/-- The service of a route. -/
def service (stores : ReferenceStores) (manifest : ModelManifest) : ReferenceService where
  assetRepository := some stores.assets
  bibleRepository := some stores.bible
  modelService := some (.ok manifest)

/-- The composer of the generator. -/
def composer (stores : ReferenceStores) : PromptComposer where
  assetRepository := some stores.assets
  bibleRepository := some stores.bible

/-- What the entries that the request itself names ask for. -/
def foreseenReferences (stores : ReferenceStores) (request : GenerationRequest) : List ReferenceImageInput :=
  match request.params.get? "bible_refs" with
  | some (.arr entryIds) => ((entryIds.filterMap JsonOf.str?).filterMap stores.bible).flatMap BibleEntry.references
  | _ => []

/-- What the entries ask for that the request names over the defaults of the model, each as a text. -/
def executedReferences (lib : PromptLibrary) (stores : ReferenceStores) (manifest : ModelManifest)
    (request : GenerationRequest) : List ReferenceImageInput :=
  ((stringList lib ((ImageGenerator.effectiveParams manifest request).get? "bible_refs")).filterMap
    stores.bible).flatMap BibleEntry.references

/-- Every image that a request refers to is there. -/
def Present (lib : PromptLibrary) (stores : ReferenceStores) (manifest : ModelManifest)
    (request : GenerationRequest) : Prop :=
  ∀ reference ∈ request.references ++ stores.executedReferences lib manifest request,
    ∃ asset, stores.assets reference.assetId = some asset ∧ asset.mediaType = .image

/-- The references that may have an effect on a generation. -/
def generatorReferences (lib : PromptLibrary) (stores : ReferenceStores) (manifest : ModelManifest)
    (request : GenerationRequest) : Except ReferenceError (List ReferenceImageInput) :=
  (ImageGenerator.resolvePrompt lib stores.composer manifest request).map fun resolved =>
    selectEffectiveReferences (ImageGenerator.requestedReferences request resolved.1.resolvedReferences)

section
variable {lib : PromptLibrary} {host : ImageHost} {stores : ReferenceStores} {manifest : ModelManifest}
  {request : GenerationRequest} {projectId : Option String}

theorem mem_resolveEntries {bibleRefs : List String} {entry : BibleEntry} :
    entry ∈ (stores.composer.resolveEntries bibleRefs).1 ↔ entry ∈ bibleRefs.filterMap stores.bible := by
  unfold PromptComposer.resolveEntries
  split
  next h => simp [List.isEmpty_iff.mp h]
  next => simp only [composer, List.mem_insertionSort]

/-- The prompt of a request resolves when the images of its entries are there. -/
theorem resolvePrompt_ok (hpresent : stores.Present lib manifest request) :
    ∃ resolved, ImageGenerator.resolvePrompt lib stores.composer manifest request =
        .ok (resolved, eraseAll resolutionParamKeys (ImageGenerator.effectiveParams manifest request)) ∧
      ∀ reference, reference ∈ resolved.resolvedReferences ↔
        reference ∈ stores.executedReferences lib manifest request := by
  unfold ImageGenerator.resolvePrompt resolveGenerationPrompt
  simp only
  generalize hparams : ImageGenerator.effectiveParams manifest request = params
  generalize hspec : specOf lib request params _ = spec
  have hrefs : spec.bibleRefs = stringList lib (params.get? "bible_refs") := by rw [← hspec]; rfl
  have hasked (reference : ReferenceImageInput) :
      reference ∈ stores.executedReferences lib manifest request ↔
        ∃ entry ∈ (stores.composer.resolveEntries spec.bibleRefs).1, reference ∈ entry.references := by
    simp only [executedReferences, hparams, ← hrefs, List.mem_flatMap, mem_resolveEntries]
  cases hneeds : needsComposing lib params with
  | false =>
    refine ⟨_, rfl, fun reference => ?_⟩
    have hempty : spec.bibleRefs = [] := by
      simp only [needsComposing, ← hrefs, Bool.or_eq_false_iff, Bool.not_eq_false', List.isEmpty_iff] at hneeds
      exact hneeds.1.1
    rw [hasked, hempty]
    simp [PromptComposer.resolveEntries]
  | true =>
    obtain ⟨composed, hcomposed⟩ := @compose_ok lib stores.composer spec fun entry hentry reference hreference => by
      rintro get ⟨rfl⟩
      exact hpresent reference (List.mem_append_right _ ((hasked reference).mpr ⟨entry, hentry, hreference⟩))
    refine ⟨_, by rw [Option.getD_some, hcomposed]; rfl, fun reference => ?_⟩
    rw [hasked]
    exact mem_resolvedReferences_of_compose hcomposed

/-- What the generator makes of a request whose images are there. -/
theorem generatorReferences_ok (hpresent : stores.Present lib manifest request) :
    ∃ resolved, ImageGenerator.resolvePrompt lib stores.composer manifest request =
        .ok (resolved, eraseAll resolutionParamKeys (ImageGenerator.effectiveParams manifest request)) ∧
      stores.generatorReferences lib manifest request =
        .ok (selectEffectiveReferences (ImageGenerator.requestedReferences request resolved.resolvedReferences)) ∧
      ∀ reference, reference ∈ ImageGenerator.requestedReferences request resolved.resolvedReferences ↔
        reference ∈ request.references ++ stores.executedReferences lib manifest request := by
  obtain ⟨resolved, hresolved, hlisted⟩ := resolvePrompt_ok hpresent
  refine ⟨resolved, hresolved, by rw [generatorReferences, hresolved]; rfl, fun reference => ?_⟩
  rw [ImageGenerator.requestedReferences, mem_distinct, List.mem_append, List.mem_append, hlisted]

/-- A request that is admitted raises no error about references. -/
theorem blameless_start {effective : List ReferenceImageInput} (hpresent : stores.Present lib manifest request)
    (heffective : stores.generatorReferences lib manifest request = .ok effective)
    (hadmits : ReferenceService.Admits lib manifest request effective)
    (hproject : ReferenceService.SameProject stores.assets projectId effective) :
    ImageGenerator.Blameless (ImageGenerator.start lib host stores.composer manifest request projectId) := by
  obtain ⟨resolved, hresolved, hselected, hrequested⟩ := generatorReferences_ok hpresent
  obtain rfl := Except.ok.inj (hselected.symm.trans heffective)
  -- the two cases differ in what is conditioned on, and agree in how the run goes on from there
  obtain ⟨conditioning, hconditioning, hstrength⟩ : ∃ conditioning : ImageGenerator.Conditioning,
      ImageGenerator.resolveReferencesForConditioning lib stores.composer request resolved.resolvedReferences manifest
        projectId = .ok conditioning ∧
      ∀ strength, conditioning.strength = some strength →
        (∀ key ∈ ImageGenerator.timestepParams,
          (ImageGenerator.effectiveParams manifest request).get? key = none) ∧
        ∃ steps, ImageGenerator.inferenceSteps lib (ImageGenerator.effectiveParams manifest request) = .ok steps ∧
          1 ≤ ImageGenerator.denoisingSteps steps strength := by
    rcases hadmits with hnone | ⟨primary, hprimary, happliable, hdenoisable⟩
    · exact ⟨_, ImageGenerator.resolveReferencesForConditioning_eq_ok.mpr (.inl ⟨hnone, rfl⟩), nofun⟩
    · have hmem : primary ∈ selectEffectiveReferences
          (ImageGenerator.requestedReferences request resolved.resolvedReferences) := by
        rw [hprimary]
        exact List.mem_singleton_self primary
      obtain ⟨asset, hasset, himage⟩ :=
        hpresent primary ((hrequested primary).mp (mem_selectEffectiveReferences.mp hmem).1)
      refine ⟨_, ImageGenerator.resolveReferencesForConditioning_eq_ok.mpr (.inr ⟨primary, asset, hprimary, happliable,
        (ImageGenerator.resolvePrimary_eq_ok rfl).mpr ⟨hasset, himage, hproject primary hmem asset hasset⟩, rfl⟩), ?_⟩
      rintro _ ⟨rfl⟩
      exact ⟨hdenoisable.timesteps, hdenoisable.steps⟩
  refine (ImageGenerator.blameless_preflight hresolved hconditioning).bind fun plan hplan => ?_
  refine (ImageGenerator.blameless_inspect fun strength hplanned => ?_).bind fun _ _ => ImageGenerator.blameless_ok _
  obtain ⟨params, hresolved', hsteps, hconditioning', hparams⟩ := ImageGenerator.of_preflight hplan
  obtain ⟨rfl, rfl⟩ := Prod.mk.inj (Except.ok.inj (hresolved.symm.trans hresolved'))
  obtain rfl := Except.ok.inj (hconditioning.symm.trans hconditioning')
  obtain ⟨htimesteps, steps, hmerged, hdenoising⟩ := hstrength strength hplanned
  refine ⟨fun key hkey => ?_, ?_⟩
  · rw [hparams, ImageGenerator.get?_left _ hkey, ImageGenerator.get?_resolved _ (by simp [hkey])]
    exact htimesteps key hkey
  · rw [ImageGenerator.inferenceSteps_resolved, hmerged] at hsteps
    rw [← Except.ok.inj hsteps]
    exact hdenoising

/-- A request that is started is admitted. -/
theorem of_start {effective : List ReferenceImageInput} {plan : ImageGenerator.ImagePlan}
    (hpresent : stores.Present lib manifest request)
    (heffective : stores.generatorReferences lib manifest request = .ok effective)
    (h : ImageGenerator.start lib host stores.composer manifest request projectId = .ok plan) :
    ReferenceService.Admits lib manifest request effective ∧
      ReferenceService.SameProject stores.assets projectId effective := by
  obtain ⟨resolved, hresolved, hselected, -⟩ := generatorReferences_ok hpresent
  obtain rfl := Except.ok.inj (hselected.symm.trans heffective)
  obtain ⟨plan', hplan, hrest⟩ := bind_eq_ok.mp h
  obtain ⟨⟨⟩, hinspect, hplan'⟩ := bind_eq_ok.mp hrest
  cases hplan'
  obtain ⟨params, hresolved', hsteps, hconditioning, hparams⟩ := ImageGenerator.of_preflight hplan
  obtain ⟨hplanned, rfl⟩ := Prod.mk.inj (Except.ok.inj (hresolved.symm.trans hresolved'))
  rw [← hplanned] at hconditioning
  rcases ImageGenerator.resolveReferencesForConditioning_eq_ok.mp hconditioning with
    ⟨hnone, -⟩ | ⟨primary, asset, hprimary, happliable, hasset, hconditioned⟩
  · exact ⟨.inl hnone, by simp [ReferenceService.SameProject, hnone]⟩
  · have hstrength : plan.conditioning.strength = some primary.strength := by
      rw [hconditioned]
      rfl
    obtain ⟨htimesteps, hdenoising⟩ := ImageGenerator.of_inspect hstrength hinspect
    obtain ⟨hfound, -, hproject⟩ := (ImageGenerator.resolvePrimary_eq_ok rfl).mp hasset
    refine ⟨.inr ⟨primary, hprimary, happliable, ⟨fun key hkey => ?_, plan.steps, ?_, hdenoising⟩⟩, ?_⟩
    · have hnone := htimesteps key hkey
      rw [hparams, ImageGenerator.get?_left _ hkey, ImageGenerator.get?_resolved _ (by simp [hkey])] at hnone
      exact hnone
    · rw [← ImageGenerator.inferenceSteps_resolved]
      exact hsteps
    · intro reference hreference found hassets
      rw [hprimary, List.mem_singleton] at hreference
      subst hreference
      rw [hfound] at hassets
      cases hassets
      exact hproject

end

/-- The preflight and the generator agree on a request for a project. -/
structure Agree (lib : PromptLibrary) (stores : ReferenceStores) (manifest : ModelManifest)
    (request : GenerationRequest) (projectId : Option String) : Prop where
  /-- What is accepted raises no error about references. -/
  accepted : (stores.service manifest).validateReferences lib request projectId = .ok () →
    ∀ host error, ImageGenerator.start lib host stores.composer manifest request projectId = .error error →
      ¬ error.IsReference
  /-- What can be started is accepted, but for an image without effect of another project. -/
  started : ∀ host plan, ImageGenerator.start lib host stores.composer manifest request projectId = .ok plan →
    (stores.service manifest).validateReferences lib request projectId = .ok () ∨
      ∃ reference ∈ request.references, reference.strength ≤ 0 ∧
        ∃ asset, stores.assets reference.assetId = some asset ∧ asset.projectId ≠ projectId
  /-- Both see the same references. -/
  effective : ∃ effective, stores.generatorReferences lib manifest request = .ok effective ∧
    ∀ reference, reference ∈ effective ↔ reference ∈ (stores.service manifest).effectiveReferences request

/-- The entries named over the defaults of the model add the references that the request's own
entries add. -/
def Foreseen (lib : PromptLibrary) (stores : ReferenceStores) (manifest : ModelManifest)
    (request : GenerationRequest) : Prop :=
  ∀ reference, reference ∈ request.references ++ stores.executedReferences lib manifest request ↔
    reference ∈ request.references ++ stores.foreseenReferences request

section
variable {lib : PromptLibrary} {stores : ReferenceStores} {manifest : ModelManifest} {request : GenerationRequest}

theorem flatMap_bibleEntries (himage : request.mediaType = .image) :
    ((stores.service manifest).bibleEntries request).flatMap BibleEntry.references =
      stores.foreseenReferences request := by
  unfold ReferenceService.bibleEntries foreseenReferences
  simp only [service]
  rcases request.params.get? "bible_refs" with _ | value
  · rfl
  · cases value <;> simp [himage]

theorem mem_effectiveReferences (himage : request.mediaType = .image) {reference : ReferenceImageInput} :
    reference ∈ (stores.service manifest).effectiveReferences request ↔
      reference ∈ request.references ++ stores.foreseenReferences request ∧ 0 < reference.strength := by
  rw [ReferenceService.effectiveReferences, mem_selectEffectiveReferences, mem_distinct,
    ReferenceService.bibleReferenceInputs, List.mem_append, mem_distinct, flatMap_bibleEntries himage, List.mem_append]

/-- The reference that an entry asks for has an effect. -/
theorem pos_of_mem_references {entry : BibleEntry} {reference : ReferenceImageInput} (h : reference ∈ entry.references) :
    0 < reference.strength := by
  unfold BibleEntry.references at h
  cases hrole : entry.kind.role? with
  | none => simp [hrole] at h
  | some role =>
    simp only [hrole] at h
    obtain ⟨assetId, -, rfl⟩ := List.mem_map.mp h
    simp only [bibleReference, defaultReferenceStrength]
    norm_num

theorem pos_of_mem_foreseenReferences {reference : ReferenceImageInput}
    (h : reference ∈ stores.foreseenReferences request) : 0 < reference.strength := by
  unfold foreseenReferences at h
  split at h
  · obtain ⟨entry, -, hentry⟩ := List.mem_flatMap.mp h
    exact pos_of_mem_references hentry
  · cases h

theorem pos_of_mem_executedReferences {reference : ReferenceImageInput}
    (h : reference ∈ stores.executedReferences lib manifest request) : 0 < reference.strength := by
  obtain ⟨entry, -, hentry⟩ := List.mem_flatMap.mp h
  exact pos_of_mem_references hentry

end

/-- A model whose defaults name an entry of the bible. -/
def namingManifest : ModelManifest where
  id := "sdxl"
  defaultParams := [("bible_refs", .arr [.str "hero"])]

/-- A request for that model with no references of its own. -/
def namelessRequest : GenerationRequest where
  mediaType := .image
  taskType := none
  prompt := "a fox"
  negativePrompt := none
  modelId := "sdxl"
  seed := none
  outputFormat := none
  params := []
  references := []

/-- A bible with one character, whose image is there. -/
def heroStores : ReferenceStores where
  bible entryId := if entryId = "hero" then
      some { id := "hero", kind := .character, name := "Hero", referenceAssetIds := ["asset_1"] }
    else none
  assets assetId := if assetId = "asset_1" then
      some { id := "asset_1", jobId := 0, projectId := none, mediaType := .image, title := "", prompt := "",
             modelId := "sdxl", path := "hero.png", createdAt := 0, updatedAt := 0 }
    else none

/-- What opens nothing and draws zero. -/
def emptyHost : ImageHost where
  locate _ := none
  readable _ := true
  acceptsReferenceImage := true
  randomSeed := 0

/-- Whether the generator has refused the references of a request. -/
def refused {α : Type} : Except ImageError α → Bool
  | .error (.reference _) => true
  | _ => false

theorem of_refused {α : Type} {x : Except ImageError α} (h : refused x = true) :
    ∃ error, x = .error error ∧ error.IsReference := by
  rcases x with (error | exception) | a
  · exact ⟨.reference error, rfl, trivial⟩
  · cases h
  · cases h

theorem present_heroStores {request : GenerationRequest} (h : request.references = [])
    (hexecuted : heroStores.executedReferences .plain namingManifest request = [bibleReference .character "asset_1"]) :
    heroStores.Present .plain namingManifest request := by
  intro reference hreference
  rw [h, hexecuted, List.nil_append, List.mem_singleton] at hreference
  subst hreference
  exact ⟨_, rfl, rfl⟩

end ReferenceStores

end CreativeStudio.Jobs
