import CreativeStudio.Conc.Executions
import CreativeStudio.Jobs.Service
import CreativeStudio.Story.Binding
import CreativeStudio.Story.VisualStrategy

/-!
# One job for each visual request

Every scene of a manifest is tried, whatever became of the scenes before it, and what became of it is
written down: the job that was created for it, or why there is none. The result is then polled, until
every job that it knows is at an end.
-/

namespace CreativeStudio.Story
open Conc Data Jobs Storage

/-- `STRATEGY_MEDIA_TYPE`. -/
def VisualStrategy.mediaType : VisualStrategy → MediaType
  | still | kenBurns => .image
  | textToVideo | imageToVideo => .video

/-- The outcome of one scene: what was decided, and what happened. Its constraints are those of the request. -/
structure SceneVisualJobPlan where
  storyId : StoryId
  sceneId : String
  visualRequestId : String
  order : ℤ
  strategy : Option VisualStrategyDecision := none
  request : Option GenerationRequest := none
  jobId : Option JobId := none
  status : GenerationStatus := .failed
  errorMessage : Option String := none
  deriving DecidableEq, Repr

/-- The outcomes of all scenes, in their order. -/
structure SceneVisualFanoutResult where
  storyId : StoryId
  items : List SceneVisualJobPlan
  deriving DecidableEq, Repr

namespace SceneVisualFanoutResult

/-- The item, as its job is now. -/
def refreshItem (item : SceneVisualJobPlan) : App SceneVisualJobPlan :=
  match item.jobId with
  | none => pure item
  | some id => do
    match ← JobRepository.get id with
    | none => pure item
    | some job => pure { item with status := job.status, errorMessage := job.errorMessage }

/-- The loop of `refresh`. -/
def refreshItems : List SceneVisualJobPlan → App (List SceneVisualJobPlan)
  | [] => pure []
  | item :: rest => do
    let refreshed ← refreshItem item
    let others ← refreshItems rest
    pure (refreshed :: others)

/-- `refresh`. -/
def refresh (result : SceneVisualFanoutResult) : App SceneVisualFanoutResult := do
  let items ← refreshItems result.items
  pure { result with items }

/-- `is_complete`. -/
def isComplete (result : SceneVisualFanoutResult) : Bool :=
  result.items.all fun item => item.jobId.isNone || item.status.isTerminalStatus

/-- `succeeded_scene_ids`. -/
def succeededSceneIds (result : SceneVisualFanoutResult) : List String :=
  (result.items.filter fun item => item.jobId.isSome ∧ item.status = .succeeded).map SceneVisualJobPlan.sceneId

/-- `failed_items`. -/
def failedItems (result : SceneVisualFanoutResult) : List SceneVisualJobPlan :=
  result.items.filter fun item => item.status = .failed

end SceneVisualFanoutResult

/-! ## The request of a job -/

/-- `model_dump(mode="json")` of a decision. -/
def VisualStrategyDecision.dump (decision : VisualStrategyDecision) : Json :=
  .obj [("strategy", .str decision.strategy.text), ("rationale", .str decision.rationale),
    ("requested_strategy", JsonOf.ofStr? (decision.requestedStrategy.map VisualStrategy.text)),
    ("considered", .arr (decision.considered.map fun strategy => .str strategy.text))]

/-- `model_dump(mode="json")` of a snapshot. -/
def BibleSnapshotRef.dump (ref : BibleSnapshotRef) : Json :=
  .obj [("bible_id", .str ref.bibleId), ("kind", .str ref.kind.text), ("name", .str ref.name),
    ("version", .str ref.version)]

/-- `model_dump(mode="json")` of a visual request. -/
def SceneVisualRequest.dump (request : SceneVisualRequest) : Json :=
  let texts (xs : List String) : Json := .arr (xs.map .str)
  .obj [("id", .str request.id), ("story_id", .str request.storyId), ("scene_id", .str request.sceneId),
    ("order", .int request.order), ("prompt", .str request.prompt),
    ("negative_prompt", JsonOf.ofStr? request.negativePrompt), ("visual_intent", .str request.visualIntent),
    ("duration_seconds", storedValue (.float request.durationSeconds)), ("aspect_ratio", .str request.aspectRatio),
    ("character_refs", texts request.characterRefs), ("location_refs", texts request.locationRefs),
    ("style_refs", texts request.styleRefs), ("bible_snapshot", .arr (request.bibleSnapshot.map BibleSnapshotRef.dump)),
    ("reference_asset_ids", texts request.referenceAssetIds), ("seed", request.seed.elim .null .int),
    ("conflicts", texts request.conflicts)]

/-- `_build_generation_request`. -/
def buildGenerationRequest (request : SceneVisualRequest) (decision : VisualStrategyDecision) (modelId : String)
    (taskType : Option String) : Except Exc GenerationRequest := do
  let binding ← sceneBindingParams request.storyId request.sceneId "visual"
  return {
    mediaType := decision.strategy.mediaType
    taskType
    prompt := request.prompt
    negativePrompt := request.negativePrompt
    modelId
    seed := request.seed
    outputFormat := none
    params := binding ++ [("visual_strategy", .str decision.strategy.text),
      ("visual_strategy_decision", decision.dump), ("scene_visual_request", request.dump)]
    references := [] }

/-! ## The jobs -/

/-- What `fan_out_scene_visuals` is called with, besides the manifest. -/
structure Fanout where
  env : Env
  text : TextLibrary
  /-- `str` of a float. -/
  floatText : PyFloat → String
  capabilities : VisualCapabilities
  strategyModels : Dict String
  budget : VisualResourceBudget := {}
  strategyTaskTypes : Dict String := []
  projectId : Option String := none

/-- `_failed_plan`. -/
def failedPlan (request : SceneVisualRequest) (strategy : Option VisualStrategyDecision)
    (built : Option GenerationRequest) (errorMessage : String) : SceneVisualJobPlan where
  storyId := request.storyId
  sceneId := request.sceneId
  visualRequestId := request.id
  order := request.order
  strategy
  request := built
  errorMessage := some errorMessage

/-- The plan of a scene whose job was created. -/
def submittedPlan (request : SceneVisualRequest) (strategy : VisualStrategyDecision) (built : GenerationRequest)
    (job : JobRecord) : SceneVisualJobPlan where
  storyId := request.storyId
  sceneId := request.sceneId
  visualRequestId := request.id
  order := request.order
  strategy := some strategy
  request := some built
  jobId := some job.id
  status := job.status

namespace Fanout
variable (fanout : Fanout)

/-- What a scene without a model is told. -/
def noModel (request : SceneVisualRequest) (decision : VisualStrategyDecision) : String :=
  s!"No model configured for visual strategy '{decision.strategy.text}'; scene '{request.sceneId}' was not submitted."

/-- `strategy_models.get(strategy)`, if it is not empty. -/
def modelOf (strategy : VisualStrategy) : Option String :=
  (fanout.strategyModels.get? strategy.text).filter fun model => model ≠ ""

/-- The body of the loop of `fan_out_scene_visuals`. -/
def fanOutScene (request : SceneVisualRequest) : App SceneVisualJobPlan :=
  match selectVisualStrategy request fanout.capabilities fanout.budget fanout.text with
  | .error exc => pure (failedPlan request none none (exc.text fanout.floatText))
  | .ok decision =>
    match fanout.modelOf decision.strategy with
    | none => pure (failedPlan request (some decision) none (noModel request decision))
    | some modelId => do
      let built ← Prog.ofExcept (buildGenerationRequest request decision modelId
        (fanout.strategyTaskTypes.get? decision.strategy.text))
      match ← (JobService.createJob fanout.env built fanout.projectId).attempt with
      | .error e => pure (failedPlan request (some decision) (some built) e.text)
      | .ok job => pure (submittedPlan request decision built job)

/-- The loop of `fan_out_scene_visuals`. -/
def fanOutScenes : List SceneVisualRequest → App (List SceneVisualJobPlan)
  | [] => pure []
  | request :: rest => do
    let plan ← fanout.fanOutScene request
    let others ← fanOutScenes rest
    pure (plan :: others)

/-- `fan_out_scene_visuals`. -/
def fanOutSceneVisuals (manifest : SceneVisualManifest) : App SceneVisualFanoutResult := do
  let items ← fanout.fanOutScenes manifest.requestsInOrder
  pure { storyId := manifest.storyId, items }

end Fanout

/-! ## What no step undoes -/

/-- A lawful command of another thread. -/
def OtherStep (env : Env) (t : Tid) (w w' : World) : Prop :=
  ∃ t' ≠ t, ∃ (β : Type) (c : Cmd β) (b : β), c.Lawful ∧ (b, w') ∈ (studio env).step t' c w

/-- The job is stored with the request. -/
def Stored (w : World) (id : JobId) (request : GenerationRequest) : Prop :=
  ∃ row, w.row? id = some row ∧ row.requestJson = .value request.canon

/-- The jobs are all stored. -/
def AllStored (ids : List JobId) (w : World) : Prop := ∀ id ∈ ids, (w.row? id).isSome

section
variable {β : Type} {env : Env} {t : Tid} {w w' : World} {c : Cmd β} {b : β} {id : JobId} {ids : List JobId}
  {request : GenerationRequest}

theorem requestJson_of_run {update : JobUpdate} {now : ℕ} {row row' : JobRow} (h : update.run now row = some row') :
    row'.requestJson = row.requestJson := by
  obtain ⟨-, rfl⟩ := JobUpdate.run_eq_some.mp h
  rfl

theorem Stored.step (h : Stored w id request) (hstep : (b, w') ∈ (studio env).step t c w) : Stored w' id request := by
  obtain ⟨row, hrow, hrequest⟩ := h
  obtain ⟨row', hrow', rfl | ⟨update, now, hrun, -⟩⟩ := row_of_step hstep hrow
  · exact ⟨row', hrow', hrequest⟩
  · exact ⟨row', hrow', (requestJson_of_run hrun).trans hrequest⟩

theorem isSome_of_step (h : (w.row? id).isSome) (hstep : (b, w') ∈ (studio env).step t c w) :
    (w'.row? id).isSome := by
  obtain ⟨row, hrow⟩ := Option.isSome_iff_exists.mp h
  obtain ⟨row', hrow', -⟩ := row_of_step hstep hrow
  exact Option.isSome_iff_exists.mpr ⟨row', hrow'⟩

theorem AllStored.step (h : AllStored ids w) (hstep : (b, w') ∈ (studio env).step t c w) : AllStored ids w' :=
  fun id hid => isSome_of_step (h id hid) hstep

theorem stable_isSome : Stable (OtherStep env t) fun w => (w.row? id).isSome :=
  fun _ _ ⟨_, _, _, _, _, _, hstep⟩ h => isSome_of_step h hstep

theorem stable_stored : Stable (OtherStep env t) fun w => Stored w id request :=
  fun _ _ ⟨_, _, _, _, _, _, hstep⟩ h => h.step hstep

theorem stable_allStored : Stable (OtherStep env t) (AllStored ids) :=
  fun _ _ ⟨_, _, _, _, _, _, hstep⟩ h => h.step hstep

/-- What its own commands and those of the others keep, a program keeps. -/
theorem ensures_keeps {α : Type} {P : World → Prop} {S : ∀ {β : Type}, Cmd β → Prop} {p : App α} (hp : p.Uses S)
    (hother : Stable (OtherStep env t) P)
    (hown : ∀ {β : Type} (c : Cmd β) b w w', S c → (b, w') ∈ (studio env).step t c w → P w → P w') :
    Ensures (studio env) (OtherStep env t) t P p fun _ => P :=
  fun _ _ _ _ hw hruns => hruns.preserves hp hown hother hw

theorem uses_any {α : Type} (p : App α) : p.Uses fun _ => True := by
  induction p with
  | ret | raise => trivial
  | op c k ih => exact ⟨trivial, ih⟩

/-! ## A job that is created -/

theorem errorMessage_of_decode? {row : JobRow} {job : JobRecord} (h : row.decode? id = some job) :
    row.errorMessage = .value job.errorMessage := by
  simp only [JobRow.decode?, Option.bind_eq_bind, Option.bind_eq_some_iff, Option.pure_def, Option.some.injEq] at h
  obtain ⟨_, -, _, -, _, -, _, -, _, -, _, -, message, hmessage, _, -, _, -, _, -, _, -, rfl⟩ := h
  cases hrow : row.errorMessage with
  | value a =>
    rw [hrow] at hmessage
    exact congrArg Column.value (Option.some.inj hmessage)
  | malformed =>
    rw [hrow] at hmessage
    cases hmessage

/-- What `get` returns is a row that was read. -/
theorem ensures_get {P : World → Prop} {Q : JobRow → World → Prop} (hP : Stable (OtherStep env t) P)
    (hQ : ∀ row, Stable (OtherStep env t) (Q row)) (hsome : ∀ w, P w → (w.row? id).isSome)
    (hread : ∀ w row, P w → w.row? id = some row → Q row w) :
    Ensures (studio env) (OtherStep env t) t P (JobRepository.get id) fun r w =>
      ∀ answer, r = .ok answer → ∃ job row, answer = some job ∧ row.decode? id = some job ∧ Q row w := by
  have hstable (r : Except Exc (Option JobRecord)) : Stable (OtherStep env t) fun w =>
      ∀ answer, r = .ok answer → ∃ job row, answer = some job ∧ row.decode? id = some job ∧ Q row w := by
    intro w w' hother h answer hr
    obtain ⟨job, row, hjob, hrow, hq⟩ := h answer hr
    exact ⟨job, row, hjob, hrow, hQ row w w' hother hq⟩
  refine Ensures.bind (Q := fun r w => ∀ answer, r = .ok answer → ∃ row, answer = some row ∧ Q row w)
    (Ensures.call hP ?_ ?_) ?_ ?_
  · intro r w w' hother h answer hr
    obtain ⟨row, hrow, hq⟩ := h answer hr
    exact ⟨row, hrow, hQ row w w' hother hq⟩
  · intro w r w' hw hstep answer hr
    rw [studio_step] at hstep
    rcases mem_fallible hstep with hmem | ⟨rfl, -⟩
    · obtain ⟨rfl, rfl⟩ := Prod.mk.inj (List.mem_singleton.mp hmem)
      obtain ⟨row, hrow⟩ := Option.isSome_iff_exists.mp (hsome w' hw)
      exact ⟨row, (Except.ok.inj hr).symm.trans hrow, hread w' row hw hrow⟩
    · cases hr
  · exact fun e w _ answer hr => by cases hr
  · rintro (_ | row)
    · refine Ensures.ret (hstable _) fun w hw answer hr => ?_
      obtain ⟨row, hrow, -⟩ := hw none rfl
      cases hrow
    · refine Ensures.ofExcept (hstable _) fun w hw answer hr => ?_
      obtain ⟨record, hrecord, rfl⟩ := ok_of_map hr
      obtain ⟨row', hrow, hq⟩ := hw (some row) rfl
      obtain rfl := Option.some.inj hrow
      exact ⟨record, row, rfl, toRecord_eq_ok.mp hrecord, hq⟩

/-- A row that is inserted is new. -/
theorem ensures_create {job : JobRecord} : Ensures (studio env) (OtherStep env t) t (AllStored ids)
    (JobRepository.create job) fun r w => AllStored ids w ∧
      ∀ created, r = .ok created → created.id = job.id ∧ job.id ∉ ids ∧ Stored w job.id job.request := by
  have hnew : Stable (OtherStep env t) fun w => AllStored ids w ∧ job.id ∉ ids ∧ Stored w job.id job.request :=
    stable_and stable_allStored (stable_and (stable_const _) stable_stored)
  refine Ensures.bind (Q := fun r w => AllStored ids w ∧ (r = .ok () → job.id ∉ ids ∧ Stored w job.id job.request))
    (Ensures.call stable_allStored ?_ ?_) ?_ ?_
  · exact fun r => stable_and stable_allStored (stable_imp fun _ => stable_and (stable_const _) stable_stored)
  · intro w r w' hw hstep
    refine ⟨hw.step hstep, fun hr => ?_⟩
    rcases insertJob_cases hstep with ⟨⟨e, he⟩, -⟩ | ⟨-, hnone, rfl⟩
    · rw [hr] at he
      cases he
    · refine ⟨fun hmem => ?_, .ofRecord job, by simp [World.row?], rfl⟩
      have hsome := hw job.id hmem
      rw [hnone] at hsome
      cases hsome
  · exact fun e w hw => ⟨hw.1, fun created hr => by cases hr⟩
  · intro _
    refine Ensures.bind (Q := fun r w => (AllStored ids w ∧ job.id ∉ ids ∧ Stored w job.id job.request) ∧
      ∀ created, r = .ok (some created) → created.id = job.id) ?_ ?_ ?_
    · have hkeeps := ensures_keeps (uses_any (JobRepository.get job.id)) hnew
        fun c b w w' _ hstep h => ⟨h.1.step hstep, h.2.1, h.2.2.step hstep⟩
      have hget := @ensures_get env t job.id (AllStored [job.id]) (fun _ _ => True) stable_allStored
        (fun _ => stable_const _) (fun w hw => hw job.id (List.mem_singleton_self _)) fun _ _ _ _ => trivial
      refine (hkeeps.and hget).mono (fun w hw => ?_) fun r w h => ⟨h.1, fun created hr => ?_⟩
      · obtain ⟨row, hrow, -⟩ := (hw.2 rfl).2
        refine ⟨⟨hw.1, hw.2 rfl⟩, fun id hid => ?_⟩
        rw [List.mem_singleton.mp hid, hrow]
        rfl
      · obtain ⟨other, row, hother, hdecode, -⟩ := h.2 _ hr
        obtain rfl := Option.some.inj hother
        exact (status_of_decode? hdecode).2
    · exact fun e w hw => ⟨hw.1.1, fun created hr => by cases hr⟩
    · rintro (_ | created)
      · refine Ensures.raise ?_ fun w hw => ⟨hw.1.1, fun created hr => by cases hr⟩
        exact stable_and stable_allStored fun w w' _ _ created hr => by cases hr
      · refine Ensures.ret ?_ fun w hw => ⟨hw.1.1, fun other hr => ?_⟩
        · refine stable_and stable_allStored fun w w' hother h other hr => ?_
          obtain ⟨hid, hfresh, hstored⟩ := h other hr
          exact ⟨hid, hfresh, stable_stored w w' hother hstored⟩
        · obtain rfl := Except.ok.inj hr
          exact ⟨hw.2 created rfl, hw.1.2⟩

/-- A job that is created is new, and stored with its request. -/
theorem ensures_createJob {project : Option String} :
    Ensures (studio env) (OtherStep env t) t (AllStored ids) (JobService.createJob env request project) fun r w =>
      AllStored ids w ∧ ∀ job, r = .ok job → job.id ∉ ids ∧ Stored w job.id request := by
  have hkeeps {α : Type} (p : App α) : Ensures (studio env) (OtherStep env t) t (AllStored ids) p
      fun _ => AllStored ids := ensures_keeps (uses_any p) stable_allStored fun _ _ _ _ _ hstep h => h.step hstep
  have hraise (e : Exc) (w : World) (hw : AllStored ids w) : AllStored ids w ∧
      ∀ job : JobRecord, (.error e : Except Exc JobRecord) = .ok job → job.id ∉ ids ∧ Stored w job.id request :=
    ⟨hw, fun job hr => by cases hr⟩
  refine (hkeeps _).bind hraise fun _ => (hkeeps _).bind hraise fun now => (hkeeps _).bind hraise fun id => ?_
  refine ensures_create.bind (fun e w hw => hraise e w hw.1) fun created => ?_
  refine Ensures.mono (P := fun w => AllStored ids w ∧ created.id ∉ ids ∧ Stored w created.id request)
    (Ensures.bind (Q := fun _ w => AllStored ids w ∧ created.id ∉ ids ∧ Stored w created.id request) ?_ ?_ ?_) ?_
    fun _ _ h => h
  · -- nothing that comes after the insertion takes the row away
    exact ensures_keeps (uses_any _) (stable_and stable_allStored (stable_and (stable_const _) stable_stored))
      fun c b w w' _ hstep h => ⟨h.1.step hstep, h.2.1, h.2.2.step hstep⟩
  · exact fun e w hw => hraise e w hw.1
  · intro _
    refine Ensures.ret ?_ fun w hw => ⟨hw.1, fun job hr => ?_⟩
    · refine stable_and stable_allStored fun w w' hother h job hr => ?_
      exact ⟨(h job hr).1, stable_stored w w' hother (h job hr).2⟩
    · obtain rfl := Except.ok.inj hr
      exact hw.2
  · intro w hw
    obtain ⟨hid, hfresh, hstored⟩ := hw.2 created rfl
    exact ⟨hw.1, hid ▸ hfresh, hid ▸ hstored⟩

end

/-! ## What became of the scenes -/

/-- What became of a scene: no strategy serves it, none of its strategy's models is configured, its job was not
created, or a job is stored that asks for it. -/
inductive SceneOutcome (fanout : Fanout) (w : World) (request : SceneVisualRequest) : SceneVisualJobPlan → Prop
  | unavailable {exc : VisualStrategyUnavailable}
      (hselect : selectVisualStrategy request fanout.capabilities fanout.budget fanout.text = .error exc) :
      SceneOutcome fanout w request (failedPlan request none none (exc.text fanout.floatText))
  | unconfigured {decision : VisualStrategyDecision}
      (hselect : selectVisualStrategy request fanout.capabilities fanout.budget fanout.text = .ok decision)
      (hmodel : fanout.modelOf decision.strategy = none) :
      SceneOutcome fanout w request (failedPlan request (some decision) none (Fanout.noModel request decision))
  | refused {decision : VisualStrategyDecision} {modelId : String} {built : GenerationRequest} {e : Exc}
      (hselect : selectVisualStrategy request fanout.capabilities fanout.budget fanout.text = .ok decision)
      (hmodel : fanout.modelOf decision.strategy = some modelId)
      (hbuilt : buildGenerationRequest request decision modelId
        (fanout.strategyTaskTypes.get? decision.strategy.text) = .ok built) :
      SceneOutcome fanout w request (failedPlan request (some decision) (some built) e.text)
  | submitted {decision : VisualStrategyDecision} {modelId : String} {built : GenerationRequest} {job : JobRecord}
      (hselect : selectVisualStrategy request fanout.capabilities fanout.budget fanout.text = .ok decision)
      (hmodel : fanout.modelOf decision.strategy = some modelId)
      (hbuilt : buildGenerationRequest request decision modelId
        (fanout.strategyTaskTypes.get? decision.strategy.text) = .ok built)
      (hstored : Stored w job.id built) : SceneOutcome fanout w request (submittedPlan request decision built job)

section
variable {β : Type} {fanout : Fanout} {t : Tid} {w w' : World} {request : SceneVisualRequest}
  {plan : SceneVisualJobPlan} {ids : List JobId}

theorem SceneOutcome.step {c : Cmd β} {b : β} (h : SceneOutcome fanout w request plan) {t' : Tid}
    (hstep : (b, w') ∈ (studio fanout.env).step t' c w) : SceneOutcome fanout w' request plan := by
  cases h with
  | unavailable hselect => exact .unavailable hselect
  | unconfigured hselect hmodel => exact .unconfigured hselect hmodel
  | refused hselect hmodel hbuilt => exact .refused hselect hmodel hbuilt
  | submitted hselect hmodel hbuilt hstored => exact .submitted hselect hmodel hbuilt (hstored.step hstep)

theorem stable_sceneOutcome : Stable (OtherStep fanout.env t) fun w => SceneOutcome fanout w request plan :=
  fun _ _ ⟨_, _, _, _, _, _, hstep⟩ h => h.step hstep

/-- The request that is built asks for the visual of its scene. -/
theorem exists_buildGenerationRequest (request : SceneVisualRequest) (decision : VisualStrategyDecision)
    (modelId : String) (taskType : Option String) :
    ∃ built, buildGenerationRequest request decision modelId taskType = .ok built :=
  ⟨_, rfl⟩

theorem selectSceneBoundParams_of_built {decision : VisualStrategyDecision} {modelId : String}
    {taskType : Option String} {built : GenerationRequest}
    (h : buildGenerationRequest request decision modelId taskType = .ok built) :
    selectSceneBoundParams built.canon.params =
      some { story := request.storyId, scene := request.sceneId, role := "visual" } := by
  have hparams : Names built.params { story := request.storyId, scene := request.sceneId, role := "visual" } := by
    obtain rfl := Except.ok.inj h
    exact ⟨rfl, rfl, rfl⟩
  exact selectSceneBoundParams_eq_some.mpr ⟨names_canon.mpr hparams, by simp [sceneAssetRoles]⟩

/-- The job of a scene that was submitted is stored, and new. -/
theorem allStored_of_sceneOutcome (h : SceneOutcome fanout w request plan) (hw : AllStored ids w) :
    AllStored (plan.jobId.toList ++ ids) w := by
  intro id hid
  rcases List.mem_append.mp hid with hplan | hid
  · cases h with
    | unavailable | unconfigured | refused => cases hplan
    | submitted _ _ _ hstored =>
      obtain ⟨row, hrow, -⟩ := hstored
      rw [List.mem_singleton.mp hplan, hrow]
      rfl
  · exact hw id hid

/-- One scene. -/
theorem ensures_fanOutScene (request : SceneVisualRequest) : Ensures (studio fanout.env) (OtherStep fanout.env t) t
    (AllStored ids) (fanout.fanOutScene request) fun r w =>
      ∃ plan, r = .ok plan ∧ AllStored ids w ∧ SceneOutcome fanout w request plan ∧ ∀ id ∈ plan.jobId, id ∉ ids := by
  have hpost (plan : SceneVisualJobPlan) : Stable (OtherStep fanout.env t) fun w => ∃ plan',
      (.ok plan : Except Exc SceneVisualJobPlan) = .ok plan' ∧ AllStored ids w ∧ SceneOutcome fanout w request plan' ∧
        ∀ id ∈ plan'.jobId, id ∉ ids :=
    stable_exists fun plan' => stable_and (stable_const _) (stable_and stable_allStored
      (stable_and stable_sceneOutcome (stable_const _)))
  unfold Fanout.fanOutScene
  cases hselect : selectVisualStrategy request fanout.capabilities fanout.budget fanout.text with
  | error exc => exact Ensures.ret (hpost _) fun w hw => ⟨_, rfl, hw, .unavailable hselect, nofun⟩
  | ok decision =>
    cases hmodel : fanout.modelOf decision.strategy with
    | none =>
      simp only [hmodel]
      exact Ensures.ret (hpost _) fun w hw => ⟨_, rfl, hw, .unconfigured hselect hmodel, nofun⟩
    | some modelId =>
      obtain ⟨built, hbuilt⟩ := exists_buildGenerationRequest request decision modelId
        (fanout.strategyTaskTypes.get? decision.strategy.text)
      simp only [hmodel, hbuilt]
      refine Ensures.attempt_bind (Q := fun r w => AllStored ids w ∧ ∀ job, r = .ok job →
        job.id ∉ ids ∧ Stored w job.id built) ensures_createJob ?_
      rintro (e | job)
      · exact Ensures.ret (hpost _) fun w hw => ⟨_, rfl, hw.1, .refused hselect hmodel hbuilt, nofun⟩
      · refine Ensures.ret (hpost _) fun w hw => ⟨_, rfl, hw.1, .submitted hselect hmodel hbuilt (hw.2 job rfl).2, ?_⟩
        rintro id ⟨rfl⟩
        exact (hw.2 job rfl).1

theorem stable_sceneOutcomes {requests : List SceneVisualRequest} {items : List SceneVisualJobPlan} :
    Stable (OtherStep fanout.env t) fun w => List.Forall₂ (SceneOutcome fanout w) requests items :=
  fun _ _ ⟨_, _, _, _, _, _, hstep⟩ h => h.imp fun _ _ houtcome => houtcome.step hstep

/-- The jobs that are written down. -/
def jobIds (items : List SceneVisualJobPlan) : List JobId := items.filterMap SceneVisualJobPlan.jobId

theorem jobIds_cons (plan : SceneVisualJobPlan) (items : List SceneVisualJobPlan) :
    jobIds (plan :: items) = plan.jobId.toList ++ jobIds items := by
  rw [jobIds, List.filterMap_cons]
  cases plan.jobId <;> rfl

theorem stable_accounted (requests : List SceneVisualRequest) (ids : List JobId)
    (r : Except Exc (List SceneVisualJobPlan)) : Stable (OtherStep fanout.env t) fun w =>
      ∃ items, r = .ok items ∧ List.Forall₂ (SceneOutcome fanout w) requests items ∧ (jobIds items).Nodup ∧
        ∀ id ∈ jobIds items, id ∉ ids :=
  stable_exists fun _ => stable_and (stable_const _) (stable_and stable_sceneOutcomes (stable_const _))

/-- All scenes, one after the other: the jobs of the earlier ones stay. -/
theorem ensures_fanOutScenes (requests : List SceneVisualRequest) (ids : List JobId) :
    Ensures (studio fanout.env) (OtherStep fanout.env t) t (AllStored ids) (fanout.fanOutScenes requests) fun r w =>
      ∃ items, r = .ok items ∧ List.Forall₂ (SceneOutcome fanout w) requests items ∧ (jobIds items).Nodup ∧
        ∀ id ∈ jobIds items, id ∉ ids := by
  induction requests generalizing ids with
  | nil => exact Ensures.ret (stable_accounted _ _ _) fun w _ => ⟨[], rfl, .nil, List.nodup_nil, nofun⟩
  | cons request rest ih =>
    refine (ensures_fanOutScene request).bind (fun e w h => ?_) fun plan => ?_
    · obtain ⟨plan, hr, -⟩ := h
      cases hr
    · -- the ids of the others are new beside the id of this one
      have hrest := ih (plan.jobId.toList ++ ids)
      have hfirst : Ensures (studio fanout.env) (OtherStep fanout.env t) t
          (fun w => SceneOutcome fanout w request plan ∧ ∀ id ∈ plan.jobId, id ∉ ids) (fanout.fanOutScenes rest)
          fun _ w => SceneOutcome fanout w request plan ∧ ∀ id ∈ plan.jobId, id ∉ ids :=
        ensures_keeps (uses_any _) (stable_and stable_sceneOutcome (stable_const _))
          fun c b w w' _ hstep h => ⟨h.1.step hstep, h.2⟩
      refine Ensures.mono (Ensures.bind (hfirst.and hrest) (fun e w h => ?_) fun items => ?_) ?_ fun r w h => h
      · obtain ⟨-, items, hr, -⟩ := h
        cases hr
      · refine Ensures.ret (stable_accounted _ _ _) ?_
        rintro w ⟨⟨houtcome, hfresh⟩, others, hr, hothers, hnodup, hnew⟩
        obtain rfl := Except.ok.inj hr
        refine ⟨plan :: items, rfl, .cons houtcome hothers, ?_, ?_⟩
        · rw [jobIds_cons, List.nodup_append]
          refine ⟨by cases plan.jobId <;> simp, hnodup, fun id hid other hother heq => ?_⟩
          exact hnew other hother (List.mem_append_left _ (heq ▸ hid))
        · intro id hid
          rw [jobIds_cons] at hid
          rcases List.mem_append.mp hid with hplan | hother
          · exact hfresh id (Option.mem_toList.mp hplan)
          · exact fun hmem => hnew id hother (List.mem_append_right _ hmem)
      · rintro w ⟨plan', hr, hw, houtcome, hfresh⟩
        obtain rfl := Except.ok.inj hr
        exact ⟨⟨houtcome, hfresh⟩, allStored_of_sceneOutcome houtcome hw⟩

end

/-- **Every scene is accounted for.** However the other threads interleave, and whatever storage, validation and
the queue do, the fan-out returns; it has tried each scene in the order of the manifest, its items say what became
of each, and the jobs that they name are stored, are different, and ask for the visual of their own scene. -/
theorem fanOutSceneVisuals_accounts {fanout : Fanout} {manifest : SceneVisualManifest} {t : Tid} {w w' : World}
    {τ : List (Transition Cmd World)} {r : Except Exc SceneVisualFanoutResult}
    (h : Runs (studio fanout.env) (OtherStep fanout.env t) t (fanout.fanOutSceneVisuals manifest) w τ r w') :
    ∃ result, r = .ok result ∧ result.storyId = manifest.storyId ∧ (jobIds result.items).Nodup ∧
      List.Forall₂ (fun scene item => SceneOutcome fanout w' scene item ∧ ∀ id ∈ item.jobId, ∃ row request,
        w'.row? id = some row ∧ row.requestJson = .value request ∧ selectSceneBoundParams request.params =
          some { story := scene.storyId, scene := scene.sceneId, role := "visual" })
        manifest.requestsInOrder result.items := by
  have hfanout : Ensures (studio fanout.env) (OtherStep fanout.env t) t (AllStored [])
      (fanout.fanOutSceneVisuals manifest) fun r w => ∃ result, r = .ok result ∧ result.storyId = manifest.storyId ∧
        (jobIds result.items).Nodup ∧ List.Forall₂ (SceneOutcome fanout w) manifest.requestsInOrder result.items := by
    refine (ensures_fanOutScenes manifest.requestsInOrder []).bind (fun e w h => ?_) fun items => ?_
    · obtain ⟨items, hr, -⟩ := h
      cases hr
    · refine Ensures.ret ?_ ?_
      · exact stable_exists fun result => stable_and (stable_const _) (stable_and (stable_const _)
          (stable_and (stable_const _) stable_sceneOutcomes))
      · rintro w ⟨items', hr, houtcomes, hnodup, -⟩
        obtain rfl := Except.ok.inj hr
        exact ⟨_, rfl, rfl, hnodup, houtcomes⟩
  obtain ⟨result, hr, hstory, hnodup, houtcomes⟩ := hfanout w τ r w' nofun h
  refine ⟨result, hr, hstory, hnodup, houtcomes.imp fun scene item houtcome => ⟨houtcome, fun id hid => ?_⟩⟩
  cases houtcome with
  | unavailable | unconfigured | refused => cases hid
  | submitted _ _ hbuilt hstored =>
    obtain rfl := Option.some.inj hid
    obtain ⟨row, hrow, hrequest⟩ := hstored
    exact ⟨row, _, hrow, hrequest, selectSceneBoundParams_of_built hbuilt⟩

/-! ## Polling -/

/-- Poll a result `count` times. -/
def poll : ℕ → SceneVisualFanoutResult → App (List SceneVisualFanoutResult)
  | 0, _ => pure []
  | count + 1, result => do
    let refreshed ← result.refresh
    let later ← poll count refreshed
    pure (refreshed :: later)

/-- The job of the item is stored. -/
def Known (w : World) (item : SceneVisualJobPlan) : Prop := ∀ id ∈ item.jobId, (w.row? id).isSome

/-- The row of a job has this outcome. -/
def HasOutcome (w : World) (id : JobId) (status : GenerationStatus) (errorMessage : Option String) : Prop :=
  ∃ row, w.row? id = some row ∧ row.status = .known status ∧ row.errorMessage = .value errorMessage

/-- What an item says about a job that is at an end is so. -/
def Final (w : World) (item : SceneVisualJobPlan) : Prop :=
  ∀ id ∈ item.jobId, item.status.isTerminalStatus → HasOutcome w id item.status item.errorMessage

/-- The item has nothing to wait for. -/
def SceneVisualJobPlan.Done (item : SceneVisualJobPlan) : Prop := item.jobId = none ∨ item.status.isTerminalStatus

section
variable {env : Env} {t : Tid} {w w' : World} {item : SceneVisualJobPlan} {items : List SceneVisualJobPlan}
  {id : JobId} {status : GenerationStatus} {errorMessage : Option String}

/-- The outcome of a job that is at an end stays. -/
theorem HasOutcome.step {β : Type} {c : Cmd β} {b : β} {t' : Tid} (h : HasOutcome w id status errorMessage)
    (hterminal : status.isTerminalStatus) (hlawful : c.Lawful) (hstep : (b, w') ∈ (studio env).step t' c w) :
    HasOutcome w' id status errorMessage := by
  obtain ⟨row, hrow, hstatus, hmessage⟩ := h
  obtain ⟨row', hrow', rfl | ⟨update, now, hrun, hupdate⟩⟩ := row_of_step hstep hrow
  · exact ⟨row', hrow', hstatus, hmessage⟩
  · have hchange := JobUpdate.statusChange hrun
    have hrowTerminal : row.Terminal := by
      rw [JobRow.Terminal, hstatus]
      exact List.mem_map_of_mem (List.contains_iff_mem.mp hterminal)
    have hkept := ((hupdate hlawful).keepsOutcome now row row' hrun hrowTerminal).2
    rw [hstatus] at hchange
    exact ⟨row', hrow', hchange.of_terminal hterminal, hkept.trans hmessage⟩

theorem stable_hasOutcome (h : status.isTerminalStatus) :
    Stable (OtherStep env t) fun w => HasOutcome w id status errorMessage :=
  fun _ _ ⟨_, _, _, _, _, hlawful, hstep⟩ houtcome => houtcome.step h hlawful hstep

theorem stable_known : Stable (OtherStep env t) fun w => Known w item :=
  fun w w' hother h id hid => stable_isSome w w' hother (h id hid)

theorem stable_final : Stable (OtherStep env t) fun w => Final w item :=
  fun w w' hother h id hid hterminal => stable_hasOutcome hterminal w w' hother (h id hid hterminal)

open SceneVisualFanoutResult

/-- A refreshed item is of the same job, and right about its end. -/
theorem ensures_refreshItem : Ensures (studio env) (OtherStep env t) t (fun w => Known w item) (refreshItem item)
    fun r w => ∀ refreshed, r = .ok refreshed →
      refreshed.jobId = item.jobId ∧ Known w refreshed ∧ Final w refreshed := by
  have hpost (r : Except Exc SceneVisualJobPlan) : Stable (OtherStep env t) fun w => ∀ refreshed, r = .ok refreshed →
      refreshed.jobId = item.jobId ∧ Known w refreshed ∧ Final w refreshed := by
    intro w w' hother h refreshed hr
    obtain ⟨hid, hknown, hfinal⟩ := h refreshed hr
    exact ⟨hid, stable_known w w' hother hknown, stable_final w w' hother hfinal⟩
  unfold refreshItem
  cases hjob : item.jobId with
  | none =>
    refine Ensures.ret (hjob ▸ hpost _) fun w hw refreshed hr => ?_
    obtain rfl := Except.ok.inj hr
    exact ⟨hjob, hw, fun id hid => by rw [hjob] at hid; cases hid⟩
  | some id =>
    have hread : Ensures (studio env) (OtherStep env t) t (fun w => Known w item) (JobRepository.get id) fun r w =>
        ∀ answer, r = .ok answer → ∃ job, ∃ row : JobRow, answer = some job ∧ row.decode? id = some job ∧
          (w.row? id).isSome ∧ ∀ job : JobRecord, row.decode? id = some job → job.status.isTerminalStatus →
            HasOutcome w id job.status job.errorMessage := by
      refine ensures_get stable_known (fun row => ?_) (fun w hw => hw id hjob) fun w row _ hrow => ⟨?_, ?_⟩
      · exact stable_and stable_isSome fun w w' hother h job hdecode hterminal =>
          stable_hasOutcome hterminal w w' hother (h job hdecode hterminal)
      · rw [hrow]
        rfl
      · exact fun job hdecode _ => ⟨row, hrow, (status_of_decode? hdecode).1, errorMessage_of_decode? hdecode⟩
    refine hread.bind (fun e w _ refreshed hr => by cases hr) fun answer => ?_
    cases answer with
    | none =>
      refine Ensures.ret (hjob ▸ hpost _) fun w hw refreshed hr => ?_
      obtain ⟨job, row, hanswer, -⟩ := hw none rfl
      cases hanswer
    | some job =>
      refine Ensures.ret (hjob ▸ hpost _) fun w hw refreshed hr => ?_
      obtain ⟨other, row, hother, hdecode, hstored, houtcome⟩ := hw (some job) rfl
      obtain rfl := Option.some.inj hother
      obtain rfl := Except.ok.inj hr
      refine ⟨rfl, fun other hid => ?_, fun other hid hterminal => ?_⟩
      · obtain rfl := Option.some.inj hid
        exact hstored
      · obtain rfl := Option.some.inj hid
        exact houtcome job hdecode hterminal

/-- An item that has nothing to wait for is refreshed to itself. -/
theorem ensures_refreshItem_of_done (hdone : item.Done) : Ensures (studio env) (OtherStep env t) t
    (fun w => Known w item ∧ Final w item) (refreshItem item) fun r _ => ∀ refreshed, r = .ok refreshed →
      refreshed = item := by
  unfold refreshItem
  cases hjob : item.jobId with
  | none => exact Ensures.ret (stable_const _) fun w _ refreshed hr => (Except.ok.inj hr).symm
  | some id =>
    have hterminal : item.status.isTerminalStatus := hdone.resolve_left (by rw [hjob]; simp)
    have hread : Ensures (studio env) (OtherStep env t) t (fun w => Known w item ∧ Final w item)
        (JobRepository.get id) fun r _ => ∀ answer, r = .ok answer → ∃ job, ∃ row : JobRow, answer = some job ∧
          row.decode? id = some job ∧ row.status = .known item.status ∧
            row.errorMessage = .value item.errorMessage := by
      refine ensures_get (stable_and stable_known stable_final) (fun row => stable_const _)
        (fun w hw => hw.1 id hjob) fun w row hw hrow => ?_
      obtain ⟨other, hother, hstatus, hmessage⟩ := hw.2 id hjob hterminal
      obtain rfl := Option.some.inj (hrow.symm.trans hother)
      exact ⟨hstatus, hmessage⟩
    refine hread.bind (fun e w _ refreshed hr => by cases hr) fun answer => ?_
    cases answer with
    | none => exact Ensures.ret (stable_const _) fun w _ refreshed hr => (Except.ok.inj hr).symm
    | some job =>
      refine Ensures.ret (stable_const _) fun w hw refreshed hr => ?_
      obtain ⟨other, row, hother, hdecode, hstatus, hmessage⟩ := hw (some job) rfl
      obtain rfl := Option.some.inj hother
      obtain rfl := Except.ok.inj hr
      have hsame := StatusText.known.inj ((status_of_decode? hdecode).1.symm.trans hstatus)
      have hsameMessage := Column.value.inj ((errorMessage_of_decode? hdecode).symm.trans hmessage)
      rw [hsame, hsameMessage, ← hjob]

@[simp] theorem within_refreshItem : Within [.read] (refreshItem item) := by
  unfold refreshItem
  cases item.jobId <;> simp [Option.forall]

@[simp] theorem within_refreshItems : Within [.read] (refreshItems items) := by
  induction items with
  | nil => trivial
  | cons item rest ih => simp [refreshItems, ih]

/-- All items are of stored jobs, and right about those that are at an end. -/
def Current (w : World) (items : List SceneVisualJobPlan) : Prop := ∀ item ∈ items, Known w item ∧ Final w item

theorem stable_current : Stable (OtherStep env t) fun w => Current w items :=
  fun w w' hother h item hitem => stable_and stable_known stable_final w w' hother (h item hitem)

/-- A program of lawful commands keeps the items up to date. -/
theorem ensures_current {α : Type} {kinds : List Kind} {p : App α} (hp : Within kinds p) :
    Ensures (studio env) (OtherStep env t) t (fun w => Current w items) p fun _ w => Current w items :=
  ensures_keeps hp stable_current fun _ _ _ _ hc hstep h item hitem =>
    ⟨fun id hid => isSome_of_step ((h item hitem).1 id hid) hstep,
      fun id hid hterminal => ((h item hitem).2 id hid hterminal).step hterminal hc.2 hstep⟩

theorem stable_refreshed (items : List SceneVisualJobPlan) (r : Except Exc (List SceneVisualJobPlan)) :
    Stable (OtherStep env t) fun w => ∀ refreshed, r = .ok refreshed →
      refreshed.map SceneVisualJobPlan.jobId = items.map SceneVisualJobPlan.jobId ∧ Current w refreshed :=
  fun w w' hother h refreshed hr => ⟨(h refreshed hr).1, stable_current w w' hother (h refreshed hr).2⟩

theorem known_cons {rest : List SceneVisualJobPlan} :
    (∀ other ∈ item :: rest, Known w other) ↔ Known w item ∧ ∀ other ∈ rest, Known w other := List.forall_mem_cons

/-- Refreshing keeps the jobs of the items, and makes them current. -/
theorem ensures_refreshItems : Ensures (studio env) (OtherStep env t) t (fun w => ∀ item ∈ items, Known w item)
    (refreshItems items) fun r w => ∀ refreshed, r = .ok refreshed →
      refreshed.map SceneVisualJobPlan.jobId = items.map SceneVisualJobPlan.jobId ∧ Current w refreshed := by
  induction items with
  | nil =>
    refine Ensures.ret (stable_refreshed [] _) fun w _ refreshed hr => ?_
    obtain rfl := Except.ok.inj hr
    exact ⟨rfl, List.forall_mem_nil _⟩
  | cons item rest ih =>
    have hrest : Ensures (studio env) (OtherStep env t) t (fun w => ∀ other ∈ rest, Known w other) (refreshItem item)
        fun _ w => ∀ other ∈ rest, Known w other :=
      ensures_keeps (uses_any _) (fun w w' hother h other hmem => stable_known w w' hother (h other hmem))
        fun c b w w' _ hstep h other hmem id hid => isSome_of_step (h other hmem id hid) hstep
    refine Ensures.mono (Ensures.bind (hrest.and ensures_refreshItem) (fun e w _ refreshed hr => by cases hr)
      fun first => ?_) (fun w hw => (known_cons.mp hw).symm) fun r w h => h
    -- the item that was refreshed first stays current while the others are
    have hfirst := @ensures_current env t [first] _ _ _ (@within_refreshItems rest)
    refine Ensures.mono (P := fun w => first.jobId = item.jobId ∧ Current w [first] ∧ ∀ other ∈ rest, Known w other)
      ?_ (fun w hw => ?_) fun r w h => h
    · refine Ensures.bind (Q := fun r w => (first.jobId = item.jobId ∧ Current w [first]) ∧ ∀ refreshed,
        r = .ok refreshed → refreshed.map SceneVisualJobPlan.jobId = rest.map SceneVisualJobPlan.jobId ∧
          Current w refreshed) ?_ (fun e w _ refreshed hr => by cases hr) fun others => ?_
      · exact fun w τ r w' hw hruns => ⟨⟨hw.1, hfirst w τ r w' hw.2.1 hruns⟩, ih w τ r w' hw.2.2 hruns⟩
      · refine Ensures.ret (stable_refreshed (item :: rest) _) fun w hw refreshed hr => ?_
        obtain rfl := Except.ok.inj hr
        obtain ⟨hids, hcurrent⟩ := hw.2 others rfl
        refine ⟨by rw [List.map_cons, List.map_cons, hw.1.1, hids], List.forall_mem_cons.mpr ⟨?_, hcurrent⟩⟩
        exact hw.1.2 first (List.mem_singleton_self first)
    · obtain ⟨hid, hknown, hfinal⟩ := hw.2 first rfl
      exact ⟨hid, fun other hmem => List.mem_singleton.mp hmem ▸ ⟨hknown, hfinal⟩, hw.1⟩

/-- Items that have nothing to wait for are refreshed to themselves. -/
theorem ensures_refreshItems_of_done (hdone : ∀ item ∈ items, item.Done) : Ensures (studio env) (OtherStep env t) t
    (fun w => Current w items) (refreshItems items) fun r _ => ∀ refreshed, r = .ok refreshed → refreshed = items := by
  induction items with
  | nil => exact Ensures.ret (stable_const _) fun w _ refreshed hr => (Except.ok.inj hr).symm
  | cons item rest ih =>
    obtain ⟨hitem, hrest⟩ := List.forall_mem_cons.mp hdone
    have hcurrent := @ensures_current env t rest _ _ _ (@within_refreshItem item)
    refine Ensures.bind (Q := fun r w => (∀ refreshed, r = .ok refreshed → refreshed = item) ∧ Current w rest) ?_
      (fun e w _ refreshed hr => by cases hr) fun first => ?_
    · intro w τ r w' hw hruns
      obtain ⟨hfirst, hothers⟩ := List.forall_mem_cons.mp hw
      exact ⟨ensures_refreshItem_of_done hitem w τ r w' hfirst hruns, hcurrent w τ r w' hothers hruns⟩
    · refine Ensures.bind (Q := fun r _ => first = item ∧ ∀ refreshed, r = .ok refreshed → refreshed = rest) ?_
        (fun e w _ refreshed hr => by cases hr) fun others => ?_
      · exact fun w τ r w' hw hruns => ⟨hw.1 first rfl, ih hrest w τ r w' hw.2 hruns⟩
      · refine Ensures.ret (stable_const _) fun w hw refreshed hr => ?_
        obtain rfl := Except.ok.inj hr
        rw [hw.1, hw.2 others rfl]

theorem known_of_jobs {items' : List SceneVisualJobPlan}
    (hids : items'.map SceneVisualJobPlan.jobId = items.map SceneVisualJobPlan.jobId)
    (h : ∀ item ∈ items, Known w item) : ∀ item ∈ items', Known w item := by
  intro item hitem id hid
  have hmem : item.jobId ∈ items.map SceneVisualJobPlan.jobId := hids ▸ List.mem_map_of_mem hitem
  obtain ⟨other, hother, heq⟩ := List.mem_map.mp hmem
  exact h other hother id (heq ▸ hid)

theorem done_of_isComplete {result : SceneVisualFanoutResult} (h : result.isComplete) :
    ∀ item ∈ result.items, item.Done := by
  intro item hitem
  have hdone := List.all_eq_true.mp h item hitem
  simpa [SceneVisualJobPlan.Done] using hdone

/-- One poll makes the items current, and leaves a result that is complete as it is. -/
theorem ensures_refresh {result : SceneVisualFanoutResult} {current : Prop} : Ensures (studio env) (OtherStep env t) t
    (fun w => (∀ item ∈ result.items, Known w item) ∧ (current → Current w result.items)) result.refresh
    fun r w => ∀ refreshed, r = .ok refreshed → Current w refreshed.items ∧
      (current → result.isComplete → refreshed = result) := by
  have hpost (r : Except Exc SceneVisualFanoutResult) : Stable (OtherStep env t) fun w => ∀ refreshed,
      r = .ok refreshed → Current w refreshed.items ∧ (current → result.isComplete → refreshed = result) :=
    fun w w' hother h refreshed hr => ⟨stable_current w w' hother (h refreshed hr).1, (h refreshed hr).2⟩
  refine Ensures.bind (Q := fun r w => ∀ items, r = .ok items → Current w items ∧
    (current → result.isComplete → items = result.items)) ?_ (fun e w _ refreshed hr => by cases hr) fun items => ?_
  · intro w τ r w' hw hruns items hr
    refine ⟨(ensures_refreshItems w τ r w' hw.1 hruns items hr).2, fun hcurrent hcomplete => ?_⟩
    exact ensures_refreshItems_of_done (done_of_isComplete hcomplete) w τ r w' (hw.2 hcurrent) hruns items hr
  · refine Ensures.ret (hpost _) fun w hw refreshed hr => ?_
    obtain rfl := Except.ok.inj hr
    refine ⟨(hw items rfl).1, fun hcurrent hcomplete => ?_⟩
    rw [(hw items rfl).2 hcurrent hcomplete]

/-- The polls from a result: those after one that is complete are the same. -/
theorem ensures_poll (count : ℕ) {result : SceneVisualFanoutResult} {current : Prop} :
    Ensures (studio env) (OtherStep env t) t
      (fun w => (∀ item ∈ result.items, Known w item) ∧ (current → Current w result.items)) (poll count result)
      fun r _ => ∀ polls, r = .ok polls → (polls.Pairwise fun a b => a.isComplete → b = a) ∧
        (current → result.isComplete → ∀ later ∈ polls, later = result) := by
  induction count generalizing result current with
  | zero =>
    refine Ensures.ret (stable_const _) fun w _ polls hr => ?_
    obtain rfl := Except.ok.inj hr
    exact ⟨.nil, fun _ _ => List.forall_mem_nil _⟩
  | succ count ih =>
    refine ensures_refresh.bind (fun e w _ polls hr => by cases hr) fun refreshed => ?_
    have hlater : Ensures (studio env) (OtherStep env t) t
        (fun w => Current w refreshed.items ∧ (current → result.isComplete → refreshed = result))
        (poll count refreshed) fun r _ => (current → result.isComplete → refreshed = result) ∧
          ∀ polls, r = .ok polls → (polls.Pairwise fun a b => a.isComplete → b = a) ∧
            (True → refreshed.isComplete → ∀ later ∈ polls, later = refreshed) :=
      fun w τ r w' hw hruns =>
        ⟨hw.2, ih w τ r w' ⟨fun item hitem => (hw.1 item hitem).1, fun _ => hw.1⟩ hruns⟩
    refine Ensures.mono (hlater.bind (fun e w _ polls hr => by cases hr) fun later => ?_)
      (fun w hw => hw refreshed rfl) fun r w h => h
    refine Ensures.ret (stable_const _) fun w hw polls hr => ?_
    obtain rfl := Except.ok.inj hr
    obtain ⟨hpairwise, hsame⟩ := hw.2 later rfl
    refine ⟨.cons (fun b hb hcomplete => hsame trivial hcomplete b hb) hpairwise, fun hcurrent hcomplete => ?_⟩
    -- the first poll of a complete result is the result
    obtain rfl := hw.1 hcurrent hcomplete
    exact List.forall_mem_cons.mpr ⟨rfl, hsame trivial hcomplete⟩

end

/-- The items of a fan-out are of jobs that are stored. -/
theorem known_of_sceneOutcomes {fanout : Fanout} {w : World} {requests : List SceneVisualRequest}
    {items : List SceneVisualJobPlan} (h : List.Forall₂ (SceneOutcome fanout w) requests items) :
    ∀ item ∈ items, Known w item := by
  induction h with
  | nil => exact List.forall_mem_nil _
  | cons hfirst _ ih =>
    refine List.forall_mem_cons.mpr ⟨fun id hid => ?_, ih⟩
    have hstored := allStored_of_sceneOutcome hfirst (List.forall_mem_nil _ : AllStored [] _)
    exact hstored id (List.mem_append_left _ (Option.mem_toList.mpr hid))

/-- **A complete poll is the last word.** However often the result of a fan-out is polled, and whatever the other
threads do between the reads: after a poll that is complete, every later one is the same. -/
theorem poll_final {fanout : Fanout} {manifest : SceneVisualManifest} {count : ℕ} {t : Tid} {w w' : World}
    {τ : List (Transition Cmd World)} {polls : List SceneVisualFanoutResult}
    (h : Runs (studio fanout.env) (OtherStep fanout.env t) t
      (fanout.fanOutSceneVisuals manifest >>= poll count) w τ (.ok polls) w') :
    polls.Pairwise fun a b => a.isComplete → b = a := by
  rcases h.of_bind with ⟨e, hr, -⟩ | ⟨result, w₁, τ₁, τ₂, -, hfanout, hpoll⟩
  · cases hr
  · obtain ⟨result', hr, -, -, houtcomes⟩ := fanOutSceneVisuals_accounts hfanout
    obtain rfl := Except.ok.inj hr
    have hknown := known_of_sceneOutcomes (houtcomes.imp fun _ _ houtcome => houtcome.1)
    have hpolls := @ensures_poll fanout.env t count result False
    exact (hpolls w₁ τ₂ (.ok polls) w' ⟨hknown, False.elim⟩ hpoll polls rfl).1

/-! ## Two scenes, of which one is refused -/

/-- The requests of two scenes. -/
def twinRequests : List SceneVisualRequest :=
  [{ id := "visreq_a", storyId := "story", sceneId := "a", order := 0, prompt := "a quiet harbour" },
    { id := "visreq_b", storyId := "story", sceneId := "b", order := 1, prompt := "the same harbour at night" }]

/-- Images can be generated, and the storage may fail. -/
def imageFanout : Fanout where
  env := { Env.plain with faults := true }
  text := plainLibrary
  floatText _ := ""
  capabilities := { imageGenerationReady := true }
  strategyModels := [("ken_burns", "sdxl")]

/-- A world without jobs. -/
def noJobs : World where
  jobs := ∅
  files := ∅

theorem fanOutSceneVisuals_accounts_twins : ∃ manifest τ w' result, manifest.requests = twinRequests ∧
    Runs (studio imageFanout.env) (OtherStep imageFanout.env 0) 0 (imageFanout.fanOutSceneVisuals manifest) noJobs τ
      (.ok result) w' ∧ result.items.map SceneVisualJobPlan.jobId = [some 0, none] ∧
    List.Forall₂ (fun scene item => SceneOutcome imageFanout w' scene item) manifest.requestsInOrder result.items := by
  let manifest : SceneVisualManifest := ⟨"story", twinRequests, by decide, by decide⟩
  -- the second row cannot be inserted
  have hfollow : ((studio imageFanout.env).follow 0 (imageFanout.fanOutSceneVisuals manifest)
      ([0, 0, 0, 0, 0, 0, 0] ++ [0, 0, 0, 1]) noJobs).map (fun (_, r, _) =>
        r.toOption.map fun result => result.items.map SceneVisualJobPlan.jobId) = some (some [some 0, none]) := by
    decide +kernel
  obtain ⟨⟨τ, r, w'⟩, hrun, hids⟩ := Option.map_eq_some_iff.mp hfollow
  have hruns : Runs (studio imageFanout.env) (OtherStep imageFanout.env 0) 0 (imageFanout.fanOutSceneVisuals manifest)
      noJobs τ r w' := (runs_of_follow hrun).mono fun _ _ => False.elim
  obtain ⟨result, rfl, -, -, houtcomes⟩ := fanOutSceneVisuals_accounts hruns
  exact ⟨manifest, τ, w', result, rfl, hruns, Option.some.inj hids, houtcomes.imp fun _ _ h => h.1⟩

theorem poll_final_twins : ∃ manifest τ w' polls, manifest.requests = twinRequests ∧
    Runs (studio imageFanout.env) (OtherStep imageFanout.env 0) 0
      (imageFanout.fanOutSceneVisuals manifest >>= poll 2) noJobs τ (.ok polls) w' ∧
    polls.map SceneVisualFanoutResult.isComplete = [true, true] ∧ polls.Pairwise fun a b => a.isComplete → b = a := by
  let manifest : SceneVisualManifest := ⟨"story", twinRequests, by decide, by decide⟩
  have hfollow : ((studio imageFanout.env).follow 0 (imageFanout.fanOutSceneVisuals manifest >>= poll 2)
      ([0, 0, 0, 1] ++ [0, 0, 0, 1]) noJobs).map (fun (_, r, _) =>
        r.toOption.map fun polls => polls.map SceneVisualFanoutResult.isComplete) = some (some [true, true]) := by
    decide +kernel
  obtain ⟨⟨τ, r, w'⟩, hrun, hpolls⟩ := Option.map_eq_some_iff.mp hfollow
  cases r with
  | error e => cases hpolls
  | ok polls =>
    have hruns : Runs (studio imageFanout.env) (OtherStep imageFanout.env 0) 0
        (imageFanout.fanOutSceneVisuals manifest >>= poll 2) noJobs τ (.ok polls) w' :=
      (runs_of_follow hrun).mono fun _ _ => False.elim
    exact ⟨manifest, τ, w', polls, rfl, hruns, Option.some.inj hpolls, poll_final hruns⟩

end CreativeStudio.Story
