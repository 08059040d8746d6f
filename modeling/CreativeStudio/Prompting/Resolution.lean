import CreativeStudio.Prompting.Composer

/-!
# Resolving the prompt of a request

A request stores what a prompt is made from. The keys of its `params` that say so are
consumed when the prompt is resolved, so that none of them reaches a model.
-/

namespace CreativeStudio.Prompting
open Data

/-- `_RESOLUTION_PARAM_KEYS`. -/
def resolutionParamKeys : List String :=
  ["bible_refs", "axis_values", "extra_fragments", "prompt_template", "freeze_composed_prompt",
    "batch_axis_labels", "batch_stage"]

/-- `params` without keys. -/
def eraseAll (keys : List String) (params : Obj) : Obj := keys.foldl Dict.erase params

/-- `ResolvedPrompt`. -/
structure ResolvedPrompt where
  prompt : String
  negativePrompt : Option String
  seed : Option ℤ
  lora : Option Obj := none
  referenceAssetIds : List String := []
  resolvedReferences : List ReferenceImageInput := []
  composition : Option Obj := none
  deriving DecidableEq, Repr

/-- `_string_list`. -/
def stringList (lib : PromptLibrary) : Option Json → List String
  | some (.arr entries) => (entries.map lib.format).filter fun text => strip text ≠ ""
  | _ => []

/-- `model_dump(mode="json")` of a composed prompt. -/
def ComposedPrompt.dump (composed : ComposedPrompt) : Obj :=
  [("prompt", .str composed.prompt), ("negative_prompt", .ofStr? composed.negativePrompt),
    ("seed", composed.seed.elim .null .int), ("lora", composed.lora.elim .null .obj),
    ("reference_asset_ids", .arr (composed.referenceAssetIds.map .str)),
    ("resolved_references", .arr (composed.resolvedReferences.map Assets.dumpReference)),
    ("palette", .arr (composed.palette.map .str)),
    ("attributes", .obj (Dict.mapValues .str composed.attributes)), ("applied", .arr composed.applied),
    ("conflicts", .arr (composed.conflicts.map .str))]

/-- The spec that the `params` of a request describe. -/
def specOf (lib : PromptLibrary) (request : GenerationRequest) (params : Obj) (template : String) : PromptSpec where
  basePrompt := request.prompt
  negativePrompt := request.negativePrompt
  bibleRefs := stringList lib (params.get? "bible_refs")
  axisValues := ((params.get? "axis_values").bind JsonOf.obj?).getD []
  template := match (params.get? "prompt_template").filter JsonOf.truthy with
    | some value => lib.format value
    | none => template
  extraFragments := stringList lib (params.get? "extra_fragments")
  seed := request.seed

/-- Whether there is anything to resolve. -/
def needsComposing (lib : PromptLibrary) (params : Obj) : Bool :=
  !(stringList lib (params.get? "bible_refs")).isEmpty || (params.get? "axis_values").any JsonOf.truthy ||
    !(stringList lib (params.get? "extra_fragments")).isEmpty

/-- `resolve_generation_prompt`: the prompt, and the `params` that are left. -/
def resolveGenerationPrompt (lib : PromptLibrary) (request : GenerationRequest) (params : Obj)
    (composer : Option PromptComposer) (template : String) :
    Except ReferenceError (ResolvedPrompt × Obj) := do
  let rest := eraseAll resolutionParamKeys params
  if !needsComposing lib params then
    return ({ prompt := request.prompt, negativePrompt := request.negativePrompt, seed := request.seed }, rest)
  else
    let composed ← (composer.getD {}).compose lib (specOf lib request params template)
    let labels := (params.get? "batch_axis_labels").filter fun labels => labels ≠ .null
    let stage := (params.get? "batch_stage").filter fun stage => stage ≠ .null
    let composition := composed.dump ++ (labels.map fun labels => ("axis_labels", labels)).toList ++
      (stage.map fun stage => ("batch_stage", stage)).toList
    return ({
      prompt := composed.prompt
      negativePrompt := composed.negativePrompt
      seed := composed.seed
      lora := composed.lora
      referenceAssetIds := composed.referenceAssetIds
      resolvedReferences := composed.resolvedReferences
      composition := some composition }, rest)

/-! ## Resolving a request again -/

section
variable {lib : PromptLibrary} {composer : Option PromptComposer} {request : GenerationRequest} {params rest : Obj}
  {template : String} {resolved : ResolvedPrompt}

@[simp] theorem PromptComposer.lockedSeed_nil (composer : PromptComposer) : composer.lockedSeed [] = none := rfl

/-- The seed that the bible entries of some `params` lock. -/
def lockedSeedOf (lib : PromptLibrary) (composer : Option PromptComposer) (params : Obj) : Option ℤ :=
  (composer.getD {}).lockedSeed (stringList lib (params.get? "bible_refs"))

theorem lockedSeedOf_of_not_needsComposing (h : needsComposing lib params = false) :
    lockedSeedOf lib composer params = none := by
  simp only [needsComposing, Bool.or_eq_false_iff, Bool.not_eq_false', List.isEmpty_iff] at h
  rw [lockedSeedOf, h.1.1, PromptComposer.lockedSeed_nil]

/-- **The seed of a resolved prompt** is the one that the bible locks, or the one of the request. -/
theorem seed_of_resolveGenerationPrompt
    (h : resolveGenerationPrompt lib request params composer template = .ok (resolved, rest)) :
    resolved.seed = (lockedSeedOf lib composer params).or request.seed := by
  unfold resolveGenerationPrompt at h
  cases hneeds : needsComposing lib params with
  | false =>
    rw [hneeds] at h
    cases h
    rw [lockedSeedOf_of_not_needsComposing hneeds]
    rfl
  | true =>
    rw [hneeds] at h
    obtain ⟨composed, hcomposed, hrest⟩ := ok_of_bind h
    cases hrest
    exact seed_of_compose hcomposed

/-- The keys that are consumed are the ones that a prompt is resolved from. -/
theorem resolveGenerationPrompt_rest
    (h : resolveGenerationPrompt lib request params composer template = .ok (resolved, rest)) :
    rest = eraseAll resolutionParamKeys params := by
  unfold resolveGenerationPrompt at h
  cases hneeds : needsComposing lib params with
  | false =>
    rw [hneeds] at h
    cases h
    rfl
  | true =>
    rw [hneeds] at h
    obtain ⟨composed, -, hrest⟩ := ok_of_bind h
    cases hrest
    rfl

/-- A request with the same texts and the same keys to resolve resolves to the same texts, whatever its
seed is. -/
theorem resolveGenerationPrompt_again
    (h : resolveGenerationPrompt lib request params composer template = .ok (resolved, rest))
    {request' : GenerationRequest} {params' : Obj} (hprompt : request'.prompt = request.prompt)
    (hnegative : request'.negativePrompt = request.negativePrompt)
    (hkeys : ∀ key ∈ resolutionParamKeys, params'.get? key = params.get? key) :
    ∃ resolved', resolveGenerationPrompt lib request' params' composer template =
        .ok (resolved', eraseAll resolutionParamKeys params') ∧
      resolved'.prompt = resolved.prompt ∧ resolved'.negativePrompt = resolved.negativePrompt := by
  have hrefs := hkeys "bible_refs" (by simp [resolutionParamKeys])
  have haxes := hkeys "axis_values" (by simp [resolutionParamKeys])
  have hextra := hkeys "extra_fragments" (by simp [resolutionParamKeys])
  have htemplate := hkeys "prompt_template" (by simp [resolutionParamKeys])
  have hneeds : needsComposing lib params' = needsComposing lib params := by
    simp only [needsComposing, hrefs, haxes, hextra]
  have hspec : specOf lib request' params' template =
      { specOf lib request params template with seed := request'.seed } := by
    simp only [specOf, hrefs, haxes, hextra, htemplate, hprompt, hnegative]
  unfold resolveGenerationPrompt at h ⊢
  rw [hneeds, hspec]
  cases hcompose : needsComposing lib params with
  | false =>
    rw [hcompose] at h
    cases h
    exact ⟨_, rfl, hprompt, hnegative⟩
  | true =>
    rw [hcompose] at h
    obtain ⟨composed, hcomposed, hrest⟩ := ok_of_bind h
    cases hrest
    have hmatched := @compose_setSeed lib (composer.getD {}) (specOf lib request params template)
      request'.seed
    rw [hcomposed] at hmatched
    obtain ⟨composed', hcomposed', hsame⟩ := hmatched.exists_ok
    refine ⟨_, by rw [hcomposed']; rfl, hsame.prompt, hsame.negativePrompt⟩

end

end CreativeStudio.Prompting
