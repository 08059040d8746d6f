import CreativeStudio.Story.Schemas

/-!
# Binding a job's asset to the scene that asked for it

A request carries the story, the scene and the role it is for in its `params`. When its job
has succeeded, the binder puts the job's primary asset into that slot, and touches no other.
-/

namespace CreativeStudio.Story
open Data Jobs Assets Storage

/-- The slot that a request is for. -/
structure Target where
  story : StoryId
  scene : String
  role : String
  deriving DecidableEq, Repr

/-- `scene_binding_params`. -/
def sceneBindingParams (story : StoryId) (scene role : String) : Except Exc Obj :=
  if role ∈ sceneAssetRoles then
    .ok [("story_id", .str story), ("scene_id", .str scene), ("scene_role", .str role)]
  else .error (.value s!"Unknown scene role '{role}'; expected one of visual, narration, music")

/-- `params.get(key)`, if it is a text. -/
def textParam (params : Obj) (key : String) : Option String := (params.get? key).bind JsonOf.str?

theorem textParam_eq_some {params : Obj} {key value : String} :
    textParam params key = some value ↔ params.get? key = some (.str value) := by
  simp [textParam, Option.bind_eq_some_iff, JsonOf.str?_eq_some]

/-- `select_scene_bound_params`, and the check at the beginning of `_bind`. -/
def selectSceneBoundParams (params : Obj) : Option Target := do
  let story ← textParam params "story_id"
  let scene ← textParam params "scene_id"
  let role ← textParam params "scene_role"
  if role ∈ sceneAssetRoles then some { story, scene, role } else none

/-- The params name the slot. -/
structure Names (params : Obj) (target : Target) : Prop where
  story : params.get? "story_id" = some (.str target.story)
  scene : params.get? "scene_id" = some (.str target.scene)
  role : params.get? "scene_role" = some (.str target.role)

theorem selectSceneBoundParams_eq_some {params : Obj} {target : Target} :
    selectSceneBoundParams params = some target ↔
      Names params target ∧ target.role ∈ sceneAssetRoles := by
  unfold selectSceneBoundParams
  simp only [Option.bind_eq_bind, Option.bind_eq_some_iff, textParam_eq_some]
  constructor
  · rintro ⟨story, hstory, scene, hscene, role, hrole, h⟩
    split at h
    next hmem =>
      obtain rfl := Option.some.inj h
      exact ⟨⟨hstory, hscene, hrole⟩, hmem⟩
    · cases h
  · rintro ⟨⟨hstory, hscene, hrole⟩, hmem⟩
    exact ⟨_, hstory, _, hscene, _, hrole, if_pos hmem⟩

/-- Saving params keeps the slot they name. -/
theorem names_canon {params : Obj} {target : Target} :
    Names (Obj.canon params) target ↔ Names params target := by
  have hkey (key value : String) : Dict.get? (Obj.canon params) key = some (.str value) ↔
      params.get? key = some (.str value) := by
    rw [Obj.get?_canon, Option.map_eq_some_iff]
    constructor
    · rintro ⟨j, hj, hcanon⟩
      rw [hj, (JsonOf.str?_eq_some (j := j)).mp]
      rw [← JsonOf.str?_canon, hcanon]
      rfl
    · exact fun h => ⟨_, h, by simp [JsonOf.canon]⟩
  constructor
  · exact fun h => ⟨(hkey ..).mp h.story, (hkey ..).mp h.scene, (hkey ..).mp h.role⟩
  · exact fun h => ⟨(hkey ..).mpr h.story, (hkey ..).mpr h.scene, (hkey ..).mpr h.role⟩

/-! ## The binder -/

/-- The scene with the asset in the slot of the role. -/
def Scene.bind (scene : Scene) (role : String) (asset : AssetId) (job : JobId) : Scene :=
  { scene with
    assetIds := Dict.set scene.assetIds role asset
    jobIds := if job ∈ scene.jobIds then scene.jobIds else scene.jobIds ++ [job] }

/-- A replay leaves the scene alone: it remembers the job, or its slot is taken. An entry
that is the empty text reads as no entry. -/
def Scene.Resolved (scene : Scene) (role : String) (job : JobId) : Prop :=
  job ∈ scene.jobIds ∨ ∃ asset, scene.slot role = some asset ∧ asset ≠ ""

instance (scene : Scene) (role : String) (job : JobId) : Decidable (scene.Resolved role job) :=
  decidable_of_iff (job ∈ scene.jobIds ∨ (scene.slot role).any fun asset => asset ≠ "") <| by
    simp [Scene.Resolved, Option.any_eq_true]

/-- `_apply_binding`: `none` leaves the story alone. -/
def applyBinding (replay : Bool) (target : Target) (job : JobId) (asset : AssetId)
    (story : StoryDocument) : Option StoryDocument :=
  if ∀ scene ∈ story.scenes, scene.id ≠ target.scene then none
  else if replay ∧ ∃ scene ∈ story.scenes, scene.id = target.scene ∧ scene.Resolved target.role job then
    none
  else some { story with
    scenes := story.scenes.map fun scene =>
      if scene.id = target.scene then scene.bind target.role asset job else scene }

/-- `StoryRepository.mutate`: a story that `fn` has not changed is not written. -/
def mutate (stories : Stories) (now : ℕ) (id : StoryId)
    (fn : StoryDocument → Option StoryDocument) : Option StoryDocument × Stories :=
  match stories.get? id with
  | none => (none, stories)
  | some story => match fn story with
    | none => (none, stories)
    | some updated =>
      if updated = story then (some story, stories)
      else
        let saved := { updated with updatedAt := now }
        (some saved, stories.save saved)

/-- `SceneBinder._bind`, given the row of the job and the primary asset of the job. -/
def bind (replay : Bool) (stories : Stories) (now : ℕ) (job : Option JobRecord)
    (asset : Option AssetId) : Option StoryDocument × Stories :=
  match job with
  | none => (none, stories)
  | some job =>
    if job.status ≠ .succeeded then (none, stories)
    else match selectSceneBoundParams job.request.params, asset with
      | some target, some asset =>
        mutate stories now target.story (applyBinding replay target job.id asset)
      | _, _ => (none, stories)

/-! ## What binding leaves alone -/

/-- Two states of a scene agree but for the slot of the role and the jobs it remembers. -/
structure Scene.SameBut (role : String) (a b : Scene) : Prop where
  slots : ∀ other, other ≠ role → b.slot other = a.slot other
  rest : { b with assetIds := a.assetIds, jobIds := a.jobIds } = a

theorem Scene.SameBut.refl (role : String) (scene : Scene) : scene.SameBut role scene :=
  ⟨fun _ _ => rfl, rfl⟩

theorem Scene.sameBut_bind (scene : Scene) (role : String) (asset : AssetId) (job : JobId) :
    scene.SameBut role (scene.bind role asset job) where
  slots other h := by simp [Scene.slot, Scene.bind, Dict.get?_set, Ne.symm h]
  rest := rfl

/-- Only the slot of the target has changed. -/
structure Confined (target : Target) (stories stories' : Stories) : Prop where
  otherStories : ∀ id, id ≠ target.story → stories'.file? id = stories.file? id
  story : ∀ story, stories.get? target.story = some story →
    ∃ story', stories'.get? target.story = some story' ∧
      List.Forall₂ (fun a b => (a.id ≠ target.scene → b = a) ∧ a.SameBut target.role b)
        story.scenes story'.scenes ∧
      { story' with scenes := story.scenes, updatedAt := story.updatedAt } = story

theorem Confined.refl (target : Target) (stories : Stories) : Confined target stories stories where
  otherStories _ _ := rfl
  story story h := ⟨story, h, List.forall₂_same.mpr fun _ _ => ⟨fun _ => rfl, .refl _ _⟩, rfl⟩

theorem confined_mutate {stories : Stories} {now : ℕ} {target : Target} {replay : Bool} {job : JobId}
    {asset : AssetId} :
    Confined target stories
      (mutate stories now target.story (applyBinding replay target job asset)).2 := by
  unfold mutate
  cases hstory : stories.get? target.story with
  | none => exact .refl target stories
  | some story =>
    cases hfn : applyBinding replay target job asset story with
    | none =>
      simp only [hfn]
      exact .refl target stories
    | some updated =>
      simp only [hfn]
      split
      · exact .refl target stories
      unfold applyBinding at hfn
      split at hfn
      · cases hfn
      split at hfn
      · cases hfn
      obtain rfl := Option.some.inj hfn
      have hid := Stories.id_of_get? hstory
      refine ⟨fun id hne => stories.file?_save_of_ne _ (by simpa [hid] using hne),
        fun story' hstory' => ?_⟩
      obtain rfl : story = story' := Option.some.inj (hstory.symm.trans hstory')
      refine ⟨_, Stories.get?_save hid, ?_, rfl⟩
      rw [List.forall₂_map_right_iff]
      refine List.forall₂_same.mpr fun scene _ => ?_
      by_cases hscene : scene.id = target.scene
      · simp only [hscene, if_true, ne_eq, not_true, false_imp_iff, true_and]
        exact scene.sameBut_bind target.role asset job
      · simp only [hscene, if_false, implies_true, true_and]
        exact .refl _ _

/-- Whatever its job's params say, binding changes the slot they name, at most. -/
theorem confined_bind {replay : Bool} {stories : Stories} {now : ℕ} {job : JobRecord}
    {asset : Option AssetId} {target : Target} (h : Names job.request.params target) :
    Confined target stories (bind replay stories now (some job) asset).2 := by
  unfold bind
  by_cases hstatus : job.status = .succeeded
  swap
  · simp only [hstatus, ne_eq, not_false_iff, if_true]
    exact .refl target stories
  simp only [hstatus, ne_eq, not_true, if_false]
  by_cases hrole : target.role ∈ sceneAssetRoles
  · rw [selectSceneBoundParams_eq_some.mpr ⟨h, hrole⟩]
    cases asset with
    | none => exact .refl target stories
    | some asset => exact confined_mutate
  · -- a role that no scene has is bound nowhere
    have hnone : selectSceneBoundParams job.request.params = none := by
      rw [Option.eq_none_iff_forall_ne_some]
      intro other hother
      obtain ⟨hnames, hmem⟩ := selectSceneBoundParams_eq_some.mp hother
      have heq : target.role = other.role := by simpa using h.role.symm.trans hnames.role
      exact hrole (heq ▸ hmem)
    rw [hnone]
    exact .refl target stories

end CreativeStudio.Story
