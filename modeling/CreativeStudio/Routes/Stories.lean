import CreativeStudio.Story.Replay
import CreativeStudio.Jobs.Service

/-!
# The routes that queue a job for a story

Both routes merge what the caller sends in `params` with what the server puts there. The
scene route writes the slot first and the caller's params over it; the expansion route
writes its own last. `sceneRequest_confined_iff` says when the first keeps a job to its
slot.
-/

namespace CreativeStudio.Routes
open Data Jobs Assets Batches Storage Story

/-- How a route ends when it does not answer: `HTTPException`, or an exception it lets
through. -/
inductive RouteError
  | http (status : ℕ) (detail : String)
  | raised (e : Exc)
  deriving DecidableEq, Repr

/-- `media_type` of a scene request. -/
inductive VisualMedia
  | image | video
  deriving DecidableEq, Repr

/-- `GenerateSceneRequest`. -/
structure GenerateSceneRequest where
  role : String
  mediaType : Option VisualMedia := none
  modelId : String := ""
  seed : Option ℤ := none
  outputFormat : Option String := none
  params : Obj := []
  deriving DecidableEq, Repr

/-- `PROCEDURAL_VISUAL_MODEL_ID`. -/
def proceduralVisualModelId : String := "storyboard-video"

section SceneRoute
variable (lib : Library)

/-- `str(request.params.get("prompt") or text).strip()`. -/
def promptOr (params : Obj) (text : String) : String :=
  strip (match (params.get? "prompt").filter JsonOf.truthy with
    | some prompt => lib.format prompt
    | none => text)

/-- `max(1, round(scene.duration_seconds))`. -/
def clipSeconds (scene : Scene) : Except RouteError Json :=
  match scene.durationSeconds with
  | .finite seconds => .ok (.int (max 1 (roundHalfEven seconds)))
  | .nan => .error (.raised (.value "cannot convert float NaN to integer"))
  | .posInf | .negInf => .error (.raised (.other "cannot convert float infinity to integer"))

/-- `text or None`. -/
def orNone (text : String) : Option String := if text = "" then none else some text

/-- A request for the role of a scene that has no text to go by. -/
def nothingToGenerate (scene : Scene) (what : String) : RouteError :=
  .http 409 s!"Scene {scene.id} has no {what}."

/-- The `visual` role of `_scene_generation_request`. -/
def visualRequest (story : StoryDocument) (scene : Scene) (request : GenerateSceneRequest)
    (params : Obj) : Except RouteError GenerationRequest :=
  let prompt := promptOr lib request.params scene.imagePrompt
  if prompt = "" then .error (nothingToGenerate scene "image prompt to generate from")
  else
    let params := params.erase "prompt"
    if request.mediaType = some .video then
      (clipSeconds scene).map fun seconds => {
        mediaType := .video
        taskType := some "text-to-video"
        prompt
        negativePrompt := orNone scene.imageNegative
        modelId := if strip request.modelId = "" then proceduralVisualModelId else strip request.modelId
        seed := some (request.seed.getD (crc32 (story.id ++ ":" ++ scene.id ++ ":" ++ prompt)))
        outputFormat := request.outputFormat
        params := params.setDefault "duration_seconds" seconds
        references := [] }
    else
      .ok {
        mediaType := .image
        taskType := none
        prompt
        negativePrompt := orNone scene.imageNegative
        modelId := request.modelId
        seed := request.seed
        outputFormat := request.outputFormat
        params := if scene.bibleRefs.isEmpty then params
          else params.setDefault "bible_refs" (.arr (scene.bibleRefs.map .str))
        references := [] }

/-- The request of an audio role. -/
def audioRequest (request : GenerateSceneRequest) (taskType prompt : String) (params : Obj) :
    GenerationRequest where
  mediaType := .audio
  taskType := some taskType
  prompt
  negativePrompt := none
  modelId := request.modelId
  seed := request.seed
  outputFormat := request.outputFormat
  params
  references := []

/-- `_scene_generation_request`. -/
def sceneGenerationRequest (story : StoryDocument) (scene : Scene)
    (request : GenerateSceneRequest) : Except RouteError GenerationRequest := do
  let binding ← (sceneBindingParams story.id scene.id request.role).mapError .raised
  let params := Dict.update binding request.params
  if request.mediaType.isSome ∧ request.role ≠ "visual" then
    throw (.http 400 ("media_type only applies to the visual role; " ++
      s!"the {request.role} role has a fixed media type."))
  if request.role = "visual" then visualRequest lib story scene request params
  else if request.role = "narration" then
    let prompt := promptOr lib request.params scene.narration
    if prompt = "" then throw (nothingToGenerate scene "narration text to speak")
    return audioRequest request "text-to-speech" prompt (params.erase "prompt")
  else
    let mood := promptOr lib request.params scene.bgmMood
    if mood = "" then throw (nothingToGenerate scene "bgm mood to score from")
    let seconds ← clipSeconds scene
    return audioRequest request "text-to-music" mood
      ((params.erase "prompt").setDefault "duration_seconds" seconds)

/-- `_find_scene`. -/
def findScene (story : StoryDocument) (sceneId : String) : Except RouteError Scene :=
  match story.scene? sceneId with
  | some scene => .ok scene
  | none => .error (.http 404 s!"Scene not found: {sceneId}")

/-- `_get_story`. -/
def getStory (stories : Stories) (storyId : StoryId) : Except RouteError StoryDocument :=
  match stories.get? storyId with
  | some story => .ok story
  | none => .error (.http 404 "Story not found")

/-- `generate_scene_media` up to `create_job`: the request that the job is created with. -/
def generateSceneMedia (stories : Stories) (storyId sceneId : String)
    (request : GenerateSceneRequest) : Except RouteError GenerationRequest := do
  if request.role ∉ sceneAssetRoles then
    throw (.http 400 (s!"Unknown scene role '{request.role}'; " ++
      "expected one of visual, narration, music"))
  let story ← getStory stories storyId
  let scene ← findScene story sceneId
  sceneGenerationRequest lib story scene request

end SceneRoute

/-! ## Expanding a story -/

/-- `ExpandStoryRequest`. -/
structure ExpandStoryRequest where
  task : String
  modelId : String := ""
  seed : Option ℤ := none
  params : Obj := []
  deriving DecidableEq, Repr

section ExpandRoute
variable (lib : Library)

/-- `model_dump(mode="json")` of a beat. -/
def dumpBeat (beat : Beat) : Json :=
  .obj [("id", .str beat.id), ("act", .str beat.act), ("purpose", .str beat.purpose),
    ("summary", .str beat.summary), ("order", .int beat.order)]

/-- `_scene_brief`. -/
def sceneBrief (scene : Scene) : String :=
  " / ".intercalate (([scene.heading, scene.summary, scene.narration].map strip).filter fun part =>
    part != "")

/-- `_bind_task_to_scene`. -/
def bindTaskToScene (story : StoryDocument) (params : Obj) : Except RouteError Obj := do
  let sceneIds := story.scenesInOrder.map Scene.id
  if sceneIds.isEmpty then
    throw (.http 409 (s!"Story {story.id} has no scenes yet; run the scene_list stage " ++
      "before writing a script."))
  let raw : Option Json := match params.get? "scene_id" with
    | none | some .null => if sceneIds.length = 1 then sceneIds.head?.map Json.str else none
    | raw => raw
  match (raw.bind JsonOf.str?).filter fun id => strip id != "" with
  | none => throw (.http 400 ("This task writes into one scene and needs params.scene_id; " ++
      s!"story {story.id} has " ++ ", ".intercalate sceneIds ++ "."))
  | some id =>
    let scene ← findScene story (strip id)
    let params := params.set "scene_id" (.str scene.id)
    let brief := match (params.get? "scene").filter JsonOf.truthy with
      | some brief => lib.format brief
      | none => ""
    let params := if strip brief = "" then params.set "scene" (.str (sceneBrief scene)) else params
    return if !story.characters.isEmpty && !((params.get? "characters").any JsonOf.truthy) then
      params.set "characters" (.arr (story.characters.map .str)) else params

/-- The params of a task that writes into one scene name that scene. -/
def pinScene (story : StoryDocument) (task : String) (params : Obj) : Except RouteError Obj :=
  if task = "script" then bindTaskToScene lib story params else .ok params

/-- `_inject_continuity_context`, given the block and the snapshot of a continuity memory
that is not empty. -/
def injectContinuityContext (continuity : Option (String × Json)) (params : Obj) : Obj :=
  if (params.get? "continuity_context").isSome || (params.get? "continuity_snapshot").isSome then
    params
  else match continuity with
    | none => params
    | some (block, snapshot) =>
      (params.set "continuity_context" (.str block)).set "continuity_snapshot" snapshot

/-- The params of `expand_story` before the scene and the continuity are looked at. -/
def expandParams (story : StoryDocument) (request : ExpandStoryRequest) : Obj :=
  let context : Obj := [("language", .str story.language), ("genre", .str story.genre),
    ("tone", .str story.tone), ("audience", .str story.audience),
    ("structure", .str story.structureName)]
  -- what the server owns is written after what the caller sends
  let params := Dict.update (Dict.update context request.params)
    [("task", .str request.task), ("story_id", .str story.id)]
  let params := if story.logline = "" then params
    else params.setDefault "logline" (.str story.logline)
  if story.beats.isEmpty then params
  else params.setDefault "beats" (.arr (story.beats.map dumpBeat))

/-- The prompt of an expansion: a prompt that is not a text does not validate. -/
def expandPrompt (story : StoryDocument) (params : Obj) : Except RouteError String :=
  match (params.get? "prompt").filter JsonOf.truthy with
  | some (.str prompt) => .ok prompt
  | some _ => .error (.raised (.value "Input should be a valid string"))
  | none =>
    .ok (([story.premise, story.logline, story.title].find? fun text => text != "").getD "")

/-- `expand_story` up to `create_job`. -/
def expandStory (stories : Stories) (continuity : Option (String × Json)) (storyId : StoryId)
    (request : ExpandStoryRequest) : Except RouteError GenerationRequest := do
  let story ← getStory stories storyId
  let params := expandParams story request
  let params ← pinScene lib story request.task params
  let params := if request.task = "prose" then injectContinuityContext continuity params else params
  let prompt ← expandPrompt story params
  if strip prompt = "" then
    throw (.http 400 "Story needs a premise, logline, or title before it can be expanded.")
  return {
    mediaType := .text
    taskType := some "story"
    prompt
    negativePrompt := none
    modelId := request.modelId
    seed := request.seed
    outputFormat := none
    params := params.erase "prompt"
    references := [] }

end ExpandRoute

/-! ## What a queued job can reach -/

/-- The job of the request changes the slot of the target at most, live or replayed. -/
def ChangesOnly (target : Target) (request : GenerationRequest) : Prop :=
  ∀ (s : Shelves) (job : JobRecord), s.job? job.id = some job → job.request.Same request →
    (∀ replay, Confined target s.stories (bindJob replay job.id s).2.stories) ∧
      ∀ index, Confined target s.stories (convergeSceneBinding job index s).2.stories

/-- Requests that are the same name the same slot. -/
theorem names_of_same {a b : GenerationRequest} (h : a.Same b) {target : Target} :
    Names a.params target ↔ Names b.params target := by
  rw [← names_canon, ← @names_canon b.params]
  exact iff_of_eq (congrArg (fun request => Names request.params target) h)

theorem changesOnly_of_names {target : Target} {request : GenerationRequest}
    (h : Names request.params target) : ChangesOnly target request := by
  intro s job hrow hsame
  have hnames := (names_of_same hsame).mpr h
  exact ⟨fun replay => confined_bindJob hrow hnames,
    fun index => confined_convergeSceneBinding hrow hnames⟩

/-- The caller's params name no other slot. -/
structure LeavesBinding (params : Obj) (target : Target) : Prop where
  story : ∀ value, params.get? "story_id" = some value → value = .str target.story
  scene : ∀ value, params.get? "scene_id" = some value → value = .str target.scene
  role : ∀ value, params.get? "scene_role" = some value → value = .str target.role

/-- Of the slot's keys, the request has what the merge has. -/
theorem get?_sceneGenerationRequest {lib : Library} {story : StoryDocument} {scene : Scene}
    {request : GenerateSceneRequest} {built : GenerationRequest}
    (h : sceneGenerationRequest lib story scene request = .ok built) {key : String}
    (hkey : key ∉ ["prompt", "duration_seconds", "bible_refs"]) :
    ∃ binding, sceneBindingParams story.id scene.id request.role = .ok binding ∧
      built.params.get? key = (Dict.update binding request.params).get? key := by
  simp only [List.mem_cons, List.not_mem_nil, or_false, not_or] at hkey
  obtain ⟨hprompt, hseconds, hrefs⟩ := hkey
  unfold sceneGenerationRequest at h
  cases hbinding : sceneBindingParams story.id scene.id request.role with
  | error e => simp [hbinding, Except.mapError, Bind.bind, Except.bind] at h
  | ok binding =>
    refine ⟨binding, rfl, ?_⟩
    simp only [hbinding, Except.mapError, Bind.bind, Except.bind, pure, Except.pure, throw,
      throwThe, MonadExceptOf.throw] at h
    split at h
    · cases h
    split at h
    · unfold visualRequest at h
      simp only at h
      split at h
      · cases h
      split at h
      · obtain ⟨seconds, -, rfl⟩ := ok_of_map h
        simp [Dict.get?_setDefault, Dict.get?_erase, hseconds, hprompt]
      · obtain rfl := Except.ok.inj h
        simp only
        split <;> simp [Dict.get?_setDefault, Dict.get?_erase, hrefs, hprompt]
    split at h
    · split at h
      · cases h
      · obtain rfl := Except.ok.inj h
        simp [audioRequest, Dict.get?_erase, hprompt]
    · split at h
      · cases h
      · cases hclip : clipSeconds scene with
        | error e => simp [hclip] at h
        | ok seconds =>
          simp only [hclip] at h
          obtain rfl := Except.ok.inj h
          simp [audioRequest, Dict.get?_setDefault, Dict.get?_erase, hseconds, hprompt]

/-- A scene request names its slot exactly when the caller's params name no other. -/
theorem names_sceneGenerationRequest_iff {lib : Library} {story : StoryDocument} {scene : Scene}
    {request : GenerateSceneRequest} {built : GenerationRequest}
    (h : sceneGenerationRequest lib story scene request = .ok built) :
    Names built.params ⟨story.id, scene.id, request.role⟩ ↔
      LeavesBinding request.params ⟨story.id, scene.id, request.role⟩ := by
  have hkey (key : String) {text : String} (hkey : key ∉ ["prompt", "duration_seconds", "bible_refs"])
      (hbinding : ∀ binding, sceneBindingParams story.id scene.id request.role = .ok binding →
        binding.get? key = some (.str text)) :
      built.params.get? key = some (.str text) ↔
        ∀ value, request.params.get? key = some value → value = .str text := by
    obtain ⟨binding, hok, heq⟩ := get?_sceneGenerationRequest h hkey
    rw [heq, Dict.get?_update, hbinding binding hok]
    cases request.params.get? key <;> simp
  have hbinding : ∀ binding, sceneBindingParams story.id scene.id request.role = .ok binding →
      Names binding ⟨story.id, scene.id, request.role⟩ := by
    intro binding hok
    unfold sceneBindingParams at hok
    split at hok
    · obtain rfl := Except.ok.inj hok
      exact ⟨rfl, rfl, rfl⟩
    · cases hok
  have hstory := hkey "story_id" (by decide) fun b hb => (hbinding b hb).story
  have hscene := hkey "scene_id" (by decide) fun b hb => (hbinding b hb).scene
  have hrole := hkey "scene_role" (by decide) fun b hb => (hbinding b hb).role
  exact ⟨fun hn => ⟨hstory.mp hn.story, hscene.mp hn.scene, hrole.mp hn.role⟩,
    fun hl => ⟨hstory.mpr hl.story, hscene.mpr hl.scene, hrole.mpr hl.role⟩⟩

/-! ### The jobs of both routes -/

/-- The record that the row of a created job reads back as. -/
theorem same_of_createdRow {id : JobId} {request : GenerationRequest} {projectId : Option String}
    {now : ℕ} {job : JobRecord}
    (h : (JobRow.ofRecord (JobService.newJob id request projectId now)).decode? id = some job) :
    job.request.Same request := by
  have hrow := decode?_ofRecord (JobService.newJob id request projectId now)
    ⟨le_rfl, by simp [JobService.newJob]⟩
  obtain rfl := Option.some.inj (hrow.symm.trans h)
  exact GenerationRequest.canon_canon request

/-- The request is for the slot: it says so, the row of its job says so, and binding that
job changes nothing else. -/
structure KeepsToSlot (target : Target) (request : GenerationRequest) : Prop where
  names : Names request.params target
  created : ∀ id projectId now job,
    (JobRow.ofRecord (JobService.newJob id request projectId now)).decode? id = some job →
      Names job.request.params target
  changesOnly : ChangesOnly target request

theorem keepsToSlot_iff {target : Target} {request : GenerationRequest} :
    KeepsToSlot target request ↔ Names request.params target :=
  ⟨fun h => h.names, fun h => ⟨h, fun _ _ _ _ hrow => (names_of_same (same_of_createdRow hrow)).mpr h,
    changesOnly_of_names h⟩⟩

/-- The request belongs to the story: it says so, and binding its job changes no other. -/
structure KeepsToStory (story : StoryId) (request : GenerationRequest) : Prop where
  names : request.params.get? "story_id" = some (.str story)
  changesOnly : ∀ (s : Shelves) (job : JobRecord), s.job? job.id = some job →
    job.request.Same request → ∀ id, id ≠ story →
      (∀ replay, (bindJob replay job.id s).2.stories.file? id = s.stories.file? id) ∧
        ∀ index, (convergeSceneBinding job index s).2.stories.file? id = s.stories.file? id

/-- What carries a story's id reaches that story only, whatever scene it names. -/
theorem keepsToStory_of_names {story : StoryId} {request : GenerationRequest}
    (h : request.params.get? "story_id" = some (.str story)) : KeepsToStory story request := by
  refine ⟨h, fun s job hrow hsame id hid => ?_⟩
  cases htarget : selectSceneBoundParams job.request.params with
  | none =>
    have hbind (replay) : (bindJob replay job.id s).2.stories = s.stories := by
      simp only [bindJob, hrow, Story.bind, htarget]
      split <;> rfl
    refine ⟨fun replay => by rw [hbind], fun index => ?_⟩
    rcases stories_convergeSceneBinding job index s with heq | heq <;> rw [heq]
    rw [hbind]
  | some target =>
    obtain ⟨hnames, -⟩ := selectSceneBoundParams_eq_some.mp htarget
    have hstory : target.story = story := by
      have := ((names_of_same hsame).mp hnames).story
      simpa using this.symm.trans h
    have hconfined := changesOnly_of_names hnames s job hrow rfl
    exact ⟨fun replay => (hconfined.1 replay).otherStories id (hstory ▸ hid),
      fun index => (hconfined.2 index).otherStories id (hstory ▸ hid)⟩

theorem get?_expandParams (story : StoryDocument) (request : ExpandStoryRequest) :
    (expandParams story request).get? "story_id" = some (.str story.id) := by
  unfold expandParams
  simp only
  have hbase (params : Obj) : (Dict.update params
      [("task", .str request.task), ("story_id", .str story.id)]).get? "story_id" =
        some (.str story.id) := by
    simp [Dict.get?_update, Dict.get?]
  split <;> split <;> simp [Dict.get?_setDefault, hbase]

theorem get?_bindTaskToScene {lib : Library} {story : StoryDocument} {params params' : Obj}
    (h : bindTaskToScene lib story params = .ok params') :
    params'.get? "story_id" = params.get? "story_id" := by
  unfold bindTaskToScene at h
  simp only [Bind.bind, Except.bind, pure, Except.pure, throw, throwThe, MonadExceptOf.throw] at h
  split at h
  · cases h
  split at h
  · cases h
  split at h
  · cases h
  obtain rfl := Except.ok.inj h
  simp [apply_ite (fun d : Obj => Dict.get? d "story_id"), Dict.get?_set]

theorem get?_injectContinuityContext (continuity : Option (String × Json)) (params : Obj) :
    (injectContinuityContext continuity params).get? "story_id" = params.get? "story_id" := by
  unfold injectContinuityContext
  split
  · rfl
  · split <;> simp [Dict.get?_set]

/-- An expansion carries the id of the story it was asked for. -/
theorem names_expandStory {lib : Library} {stories : Stories} {continuity : Option (String × Json)}
    {storyId : StoryId} {request : ExpandStoryRequest} {built : GenerationRequest}
    (h : expandStory lib stories continuity storyId request = .ok built) :
    built.params.get? "story_id" = some (.str storyId) := by
  unfold expandStory getStory at h
  cases hstory : stories.get? storyId with
  | none => simp [hstory, Bind.bind, Except.bind] at h
  | some story =>
    obtain rfl := Stories.id_of_get? hstory
    simp only [hstory, Bind.bind, Except.bind, pure, Except.pure, throw, throwThe,
      MonadExceptOf.throw] at h
    have hbase := get?_expandParams story request
    split at h
    · cases h
    next params hparams =>
      have hscene : params.get? "story_id" = some (.str story.id) := by
        unfold pinScene at hparams
        split at hparams
        · rw [get?_bindTaskToScene hparams, hbase]
        · obtain rfl := Except.ok.inj hparams
          exact hbase
      split at h
      · cases h
      split at h
      · cases h
      obtain rfl := Except.ok.inj h
      simp [Dict.get?_erase, apply_ite (fun d : Obj => Dict.get? d "story_id"),
        get?_injectContinuityContext, hscene]

/-- An expansion keeps to its story; a scene request keeps to its slot exactly when the
caller's params name no other. -/
theorem storyRoutes_confined (lib : Library) (stories : Stories) :
    (∀ continuity storyId request built,
      expandStory lib stories continuity storyId request = .ok built →
        KeepsToStory storyId built) ∧
    ∀ storyId sceneId request built,
      generateSceneMedia lib stories storyId sceneId request = .ok built →
        (KeepsToSlot ⟨storyId, sceneId, request.role⟩ built ↔
          LeavesBinding request.params ⟨storyId, sceneId, request.role⟩) := by
  refine ⟨fun continuity storyId request built h => keepsToStory_of_names (names_expandStory h),
    fun storyId sceneId request built h => ?_⟩
  unfold generateSceneMedia getStory findScene at h
  simp only [Bind.bind, Except.bind, throw, throwThe, MonadExceptOf.throw] at h
  split at h
  · cases h
  cases hstory : stories.get? storyId with
  | none => simp [hstory] at h
  | some story =>
    obtain rfl := Stories.id_of_get? hstory
    simp only [hstory] at h
    cases hscene : story.scene? sceneId with
    | none => simp [hscene] at h
    | some scene =>
      simp only [hscene] at h
      obtain rfl : scene.id = sceneId := by simpa using List.find?_some hscene
      exact keepsToSlot_iff.trans (names_sceneGenerationRequest_iff h)

/-! ### A request for another story's scene -/

/-- Two stories whose scenes have the same name. -/
def twoStories : Stories :=
  (Stories.empty.save { id := "story_a", scenes := [{ id := "scene_1", imagePrompt := "a harbour" }] }).save
    { id := "story_b", scenes := [{ id := "scene_1", imagePrompt := "a forest" }] }

/-- A request for a scene of the first story that names the second. -/
def strayRequest : GenerateSceneRequest where
  role := "visual"
  params := [("story_id", .str "story_b")]

/-- The job of the stray request after it has succeeded. -/
def strayJob (request : GenerationRequest) : JobRecord where
  id := 5
  projectId := none
  mediaType := .image
  status := .succeeded
  request
  createdAt := 0
  updatedAt := 1

/-- The asset of the stray job. -/
def strayAsset : Asset where
  id := stableAssetId 5 "harbour.png"
  jobId := 5
  projectId := none
  mediaType := .image
  title := ""
  prompt := ""
  modelId := ""
  path := "harbour.png"
  createdAt := 0
  updatedAt := 1

/-- The stores when the stray job has succeeded. -/
def strayShelves (request : GenerationRequest) : Shelves where
  jobs := AList.insert 5 (.record (strayJob request)) ∅
  assets := AList.insert strayAsset.id strayAsset ∅
  stories := twoStories

/-- The request queued from `story_a` names `story_b`, and its asset ends up in a scene
of `story_b`. -/
theorem not_keepsToSlot_strayRequest : ∃ built,
    generateSceneMedia Library.plain twoStories "story_a" "scene_1" strayRequest = .ok built ∧
      ¬ KeepsToSlot ⟨"story_a", "scene_1", "visual"⟩ built ∧
      (((bindJob false 5 (strayShelves built)).2.stories.get? "story_b").bind fun story =>
        (story.scene? "scene_1").bind fun scene => scene.slot "visual") = some strayAsset.id := by
  have hrun : (generateSceneMedia Library.plain twoStories "story_a" "scene_1"
      strayRequest).toOption.any (fun built =>
        decide (built.params.get? "story_id" = some (.str "story_b")) &&
        decide ((((bindJob false 5 (strayShelves built)).2.stories.get? "story_b").bind fun story =>
          (story.scene? "scene_1").bind fun scene => scene.slot "visual") = some strayAsset.id)) =
      true := by decide +kernel
  obtain ⟨built, hbuilt, h⟩ := (Option.any_eq_true ..).mp hrun
  simp only [Bool.and_eq_true, decide_eq_true_eq] at h
  have hok := ok_of_toOption hbuilt
  refine ⟨built, hok, fun hkeeps => ?_, h.2⟩
  have hstory := h.1.symm.trans hkeeps.names.story
  simp at hstory

/-- The routes at the two stories, with a request that names its own slot. -/
theorem storyRoutes_confined_twoStories : ∃ built,
    generateSceneMedia Library.plain twoStories "story_a" "scene_1" { role := "visual" } = .ok built ∧
      KeepsToSlot ⟨"story_a", "scene_1", "visual"⟩ built := by
  have hrun : (generateSceneMedia Library.plain twoStories "story_a" "scene_1"
      { role := "visual" }).toOption.isSome = true := by decide +kernel
  obtain ⟨built, hbuilt⟩ := Option.isSome_iff_exists.mp hrun
  have hok := ok_of_toOption hbuilt
  exact ⟨built, hok, ((storyRoutes_confined Library.plain twoStories).2 _ _ _ _ hok).mpr
    ⟨fun _ h => by simp [Dict.get?] at h, fun _ h => by simp [Dict.get?] at h,
      fun _ h => by simp [Dict.get?] at h⟩⟩

end CreativeStudio.Routes
