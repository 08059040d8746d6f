import CreativeStudio.Assets.Repository

/-!
# Reference images and what a model makes of them

A request names images that pin a character or a location. A manifest advertises which of
them its model honors, and one check decides.
-/

namespace CreativeStudio.Prompting
open Data Batches

/-- What the source takes from the language besides: the text of a string in quotes, lower
case, and the number that a text denotes. -/
structure PromptLibrary extends Library where
  repr : String → String
  lower : String → String
  parseFloat : String → Option ℚ

/-- A library for inputs that are lower case already and denote no numbers. -/
def PromptLibrary.plain : PromptLibrary where
  toLibrary := Library.plain
  repr text := "'" ++ text ++ "'"
  lower := id
  parseFloat _ := none

/-- `ReferenceConditioningMode`. -/
inductive ReferenceMode
  | ipAdapter | img2img
  deriving DecidableEq, Repr

/-- `_validate_bounds` is a field: no manifest with other bounds can be loaded. -/
structure ReferenceCapability where
  supportedModes : List ReferenceMode := []
  supportedRoles : List ReferenceRole := []
  supportedPreprocessing : List ReferencePreprocessing := [.none]
  minStrength : ℚ := 0
  maxStrength : ℚ := 1
  maxReferencesPerRole : ℕ := 1
  bounds : 0 ≤ minStrength ∧ minStrength ≤ maxStrength ∧ maxStrength ≤ 1 := by decide

/-- `enabled`. -/
def ReferenceCapability.enabled (capability : ReferenceCapability) : Bool :=
  !capability.supportedModes.isEmpty && !capability.supportedRoles.isEmpty

/-- What can be wrong with the references of a request. -/
inductive ReferenceError
  /-- `UnsupportedReferenceError`. -/
  | unsupported (message : String)
  /-- `MissingReferenceAssetError`. -/
  | missingAsset (message : String)
  /-- `UnsupportedImageParameterError`, of a parameter that a reference excludes. -/
  | imageParameter (message : String)
  deriving DecidableEq, Repr

/-- `DEFAULT_REFERENCE_STRENGTH`. -/
def defaultReferenceStrength : ℚ := 6 / 10

/-- `select_effective_references`. -/
def selectEffectiveReferences (references : List ReferenceImageInput) : List ReferenceImageInput :=
  references.filter fun reference => 0 < reference.strength

/-- The references, each once, where it stands first. -/
def distinct (references : List ReferenceImageInput) : List ReferenceImageInput :=
  references.foldl (fun kept reference => if reference ∈ kept then kept else kept ++ [reference]) []

/-- A list of literals, or `none`. -/
def joinedOrNone (texts : List String) : String :=
  if texts.isEmpty then "none" else ", ".intercalate texts

/-- One turn of `validate_reference_inputs`: the references of each role counted so far. -/
def checkReference (lib : PromptLibrary) (capability : ReferenceCapability) (modelId : String)
    (counts : ReferenceRole → ℕ) (reference : ReferenceImageInput) :
    Except ReferenceError (ReferenceRole → ℕ) :=
  let model := lib.repr modelId
  let asset := lib.repr reference.assetId
  let role := lib.repr (Assets.roleText reference.role)
  let preprocessing := lib.repr (Assets.preprocessingText reference.preprocessing)
  let text (q : ℚ) := lib.format (.float q)
  let count := counts reference.role + 1
  if reference.role ∉ capability.supportedRoles then
    .error (.unsupported (s!"Model {model} does not support the {role} reference role; " ++
      s!"supported roles: {joinedOrNone (capability.supportedRoles.map Assets.roleText)}"))
  else if ¬ (capability.minStrength ≤ reference.strength ∧ reference.strength ≤ capability.maxStrength) then
    .error (.unsupported (s!"Reference strength {text reference.strength} for asset {asset} is outside " ++
      s!"model {model}'s supported range [{text capability.minStrength}, {text capability.maxStrength}]"))
  else if reference.preprocessing ∉ capability.supportedPreprocessing then
    .error (.unsupported (s!"Model {model} does not support {preprocessing} preprocessing for asset {asset}; " ++
      s!"supported: {joinedOrNone (capability.supportedPreprocessing.map Assets.preprocessingText)}"))
  else if capability.maxReferencesPerRole < count then
    .error (.unsupported (s!"Model {model} supports at most {capability.maxReferencesPerRole} " ++
      s!"{role} reference(s) per request; got {count}"))
  else .ok (Function.update counts reference.role count)

/-- `validate_reference_inputs`. -/
def validateReferenceInputs (lib : PromptLibrary) (references : List ReferenceImageInput)
    (capability : Option ReferenceCapability) (modelId : String) : Except ReferenceError Unit :=
  if references.isEmpty then .ok ()
  else
    match capability.filter ReferenceCapability.enabled with
    | none => .error (.unsupported (s!"Model {lib.repr modelId} does not support reference-image conditioning; " ++
        "remove the `references` field or choose a model whose manifest advertises reference_capability."))
    | some capability =>
      (references.foldlM (checkReference lib capability modelId) fun _ => 0).map fun _ => ()

/-! ## The references that are left -/

@[simp] theorem mem_selectEffectiveReferences {references : List ReferenceImageInput}
    {reference : ReferenceImageInput} : reference ∈ selectEffectiveReferences references ↔
      reference ∈ references ∧ 0 < reference.strength := by
  simp [selectEffectiveReferences]

/-- What `distinct` has kept of the references it has seen. -/
theorem foldl_distinct (references kept : List ReferenceImageInput) (hkept : kept.Nodup) :
    let all := references.foldl (fun kept reference => if reference ∈ kept then kept else kept ++ [reference]) kept
    all.Nodup ∧ ∀ reference, reference ∈ all ↔ reference ∈ kept ∨ reference ∈ references := by
  induction references generalizing kept with
  | nil => simpa using hkept
  | cons reference rest ih =>
    simp only [List.foldl_cons]
    split
    next hmem =>
      obtain ⟨hnodup, hall⟩ := ih kept hkept
      refine ⟨hnodup, fun other => ?_⟩
      rw [hall other, List.mem_cons]
      constructor
      · exact Or.imp_right .inr
      · rintro (hother | rfl | hother)
        · exact .inl hother
        · exact .inl hmem
        · exact .inr hother
    next hnot =>
      have hmore : (kept ++ [reference]).Nodup := by
        rw [List.nodup_append_comm, List.singleton_append, List.nodup_cons]
        exact ⟨hnot, hkept⟩
      obtain ⟨hnodup, hall⟩ := ih (kept ++ [reference]) hmore
      refine ⟨hnodup, fun other => ?_⟩
      rw [hall other, List.mem_append, List.mem_singleton, List.mem_cons, or_assoc]

@[simp] theorem mem_distinct {references : List ReferenceImageInput} {reference : ReferenceImageInput} :
    reference ∈ distinct references ↔ reference ∈ references := by
  rw [distinct, (foldl_distinct references [] List.nodup_nil).2 reference]
  simp

theorem nodup_distinct (references : List ReferenceImageInput) : (distinct references).Nodup :=
  (foldl_distinct references [] List.nodup_nil).1

theorem nodup_selectEffectiveReferences {references : List ReferenceImageInput} (h : references.Nodup) :
    (selectEffectiveReferences references).Nodup := h.filter _

/-- What `validate_reference_inputs` asks of a reference that comes alone. -/
structure Honors (capability : ReferenceCapability) (reference : ReferenceImageInput) : Prop where
  enabled : capability.enabled
  role : reference.role ∈ capability.supportedRoles
  strength : capability.minStrength ≤ reference.strength ∧ reference.strength ≤ capability.maxStrength
  preprocessing : reference.preprocessing ∈ capability.supportedPreprocessing
  count : 1 ≤ capability.maxReferencesPerRole

theorem validateReferenceInputs_singleton (lib : PromptLibrary) (reference : ReferenceImageInput)
    (capability : Option ReferenceCapability) (modelId : String) :
    validateReferenceInputs lib [reference] capability modelId = .ok () ↔
      ∃ advertised, capability = some advertised ∧ Honors advertised reference := by
  cases capability with
  | none => simp [validateReferenceInputs]
  | some capability =>
    cases henabled : capability.enabled with
    | false =>
      constructor
      · intro h
        simp [validateReferenceInputs, Option.filter, henabled] at h
      · rintro ⟨_, ⟨rfl⟩, hhonors⟩
        exact absurd hhonors.enabled (by simp [henabled])
    | true =>
      simp only [validateReferenceInputs, Option.filter, henabled, List.isEmpty_cons, Bool.false_eq_true,
        if_false, if_true, List.foldlM_cons, List.foldlM_nil]
      constructor
      · intro h
        obtain ⟨counts, hcounts, -⟩ := ok_of_map h
        obtain ⟨counts', hcheck, -⟩ := ok_of_bind hcounts
        unfold checkReference at hcheck
        simp only at hcheck
        split at hcheck
        · cases hcheck
        split at hcheck
        · cases hcheck
        split at hcheck
        · cases hcheck
        split at hcheck
        · cases hcheck
        next hrole hstrength hpreprocessing hcount =>
          exact ⟨capability, rfl, henabled, by simpa using hrole, by simpa using hstrength,
            by simpa using hpreprocessing, by omega⟩
      · rintro ⟨_, ⟨rfl⟩, hhonors⟩
        have hcount : ¬ capability.maxReferencesPerRole < 0 + 1 := by
          have := hhonors.count
          omega
        simp [checkReference, hhonors.role, hhonors.strength, hhonors.preprocessing, hcount]
        rfl

end CreativeStudio.Prompting
