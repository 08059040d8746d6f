import CreativeStudio.Routes.Stories
import CreativeStudio.Story.MergeAgain

/-!
# Applying a finished text job

A script is written for one scene. The expansion route picks the scene and puts its id on the
job, and the apply route merges the lines into the scene of that id, as the story is by then.
A job without a scene is refused unless its payload leads to one.
-/

namespace CreativeStudio.Routes
open Data Jobs Assets Batches Storage Story

/-- What the route reads of a job: `params` are those of its request, and `metadata` is the one of
its result. -/
structure TextJob where
  id : JobId
  status : GenerationStatus
  params : Obj
  metadata : Option (Dict Value)

/-- `SCENE_SCOPED_TASKS`. -/
def sceneScopedTasks : List String := ["script"]

/-- The text of a status. -/
def statusText : GenerationStatus → String
  | .queued => "queued"
  | .preparing => "preparing"
  | .running => "running"
  | .postprocessing => "postprocessing"
  | .cancelRequested => "cancel_requested"
  | .succeeded => "succeeded"
  | .failed => "failed"
  | .cancelled => "cancelled"

/-! ## The guard -/

/-- `isinstance(value, str) and value`. -/
def isName : Value → Bool
  | .str id => id ≠ ""
  | _ => false

/-- `isinstance(value, int) and not isinstance(value, bool)`. -/
def isIndex : Value → Bool
  | .int _ => true
  | _ => false

/-- `_names_a_scene`. -/
def namesAScene (story : StoryDocument) (structured : Dict Value) : Bool :=
  if (structured.get? "scene_id").any isName then true
  else if (structured.get? "scene_index").any isIndex then true
  else story.scenes.length = 1

/-- `_no_scene_target_detail`. -/
def noSceneTargetDetail (story : StoryDocument) (job : JobId) (task : String) : String :=
  let sceneIds := story.scenesInOrder.map Scene.id
  let whereTo := if sceneIds = [] then
      s!"story {story.id} has no scenes yet, so run the scene_list stage first, then"
    else s!"story {story.id} has {sceneIds.length} scenes (" ++ ", ".intercalate sceneIds ++
      "), so the target has to be named:"
  s!"Job {job} carries {task} lines but names no scene; " ++ whereTo ++
    s!" queue it with POST /stories/{story.id}/expand and params.scene_id."

/-- `job_params.get("scene_id")`, if it is a text that is not empty. -/
def jobScene? (params : Obj) : Option String := (textParam params "scene_id").filter fun id => id ≠ ""

/-- The payload that is merged: the scene was chosen when the job was queued. -/
def mergePayload (job : TextJob) (task : String) (structured : Dict Value) (current : StoryDocument) :
    Except RouteError (Dict Value) :=
  if task ∈ sceneScopedTasks then
    match jobScene? job.params with
    | some id => .ok (structured.set "scene_id" (.str id))
    | none => if namesAScene current structured then .ok structured
        else .error (.http 409 (noSceneTargetDetail current job.id task))
  else .ok structured

/-! ## The route -/

/-- `mutate`, of a function that may raise: nothing is saved then. -/
def mutateOrRaise {ε : Type} (stories : Stories) (now : ℕ) (id : StoryId)
    (fn : StoryDocument → Except ε StoryDocument) : Except ε (Option StoryDocument) × Stories :=
  match stories.get? id with
  | none => (.ok none, stories)
  | some current => match fn current with
    | .error e => (.error e, stories)
    | .ok updated =>
      let saved := mutate stories now id fun _ => some updated
      (.ok saved.1, saved.2)

/-- A `ValueError` of the merge is answered with 400. -/
def answerValueError : Exc → RouteError
  | .value message => .http 400 message
  | e => .raised e

/-- The structured payload and the task of a result. -/
def storyPayload (metadata : Dict Value) : Option (Dict Value × String) := do
  let structured ← (metadata.get? "structured").bind JsonOf.obj?
  let task ← (metadata.get? "story_task").bind JsonOf.str?
  return (structured, task)

/-- `continuity_as_of_chapter_id`, as the snapshot of a result has it. -/
def asOfChapter (metadata : Dict Value) : Option String := do
  let snapshot ← (metadata.get? "continuity_snapshot").bind JsonOf.obj?
  (snapshot.get? "as_of_chapter_id").bind JsonOf.str?

section
variable (lib : ValueLibrary) (text : TextLibrary)

/-- `_apply`, of a story that exists. -/
def applyJob (job : TextJob) (task : String) (structured metadata : Dict Value) (current : StoryDocument) :
    Except RouteError StoryDocument := do
  let payload ← mergePayload job task structured current
  (applyTextResult lib text current task payload (some job.id) (asOfChapter metadata)).mapError answerValueError

/-- What a job must have before its result is merged, and what is merged then: the metadata of the
result, its payload and its task. -/
def checkJob (story : StoryDocument) (job : TextJob) : Except RouteError (Dict Value × Dict Value × String) :=
  match job.metadata.filter fun _ => job.status = .succeeded with
  | none => .error (.http 409 s!"Job {job.id} has not succeeded yet (status: {statusText job.status}).")
  | some metadata =>
    match (textParam job.params "story_id").filter fun id => id ≠ "" ∧ id ≠ story.id with
    | some other => .error (.http 409 s!"Job {job.id} was written for story {other}, not {story.id}.")
    | none => match storyPayload metadata with
      | none => .error (.http 409 "Job result does not carry a structured story payload.")
      | some payload => .ok (metadata, payload)

/-- What the route answers after the mutation: the story may have been deleted since it was read. -/
def answerMutation (result : Except RouteError (Option StoryDocument) × Stories) :
    Except RouteError StoryDocument × Stories :=
  match result with
  | (.error e, after) => (.error e, after)
  | (.ok none, after) => (.error (.http 404 "Story not found"), after)
  | (.ok (some saved), after) => (.ok saved, after)

/-- `apply_story_result`. The story is read first, in `seen`, and merged into as it is by then. -/
def applyStoryResult (seen stories : Stories) (now : ℕ) (storyId : StoryId) (job : Option TextJob) :
    Except RouteError StoryDocument × Stories :=
  match getStory seen storyId, job with
  | .error e, _ => (.error e, stories)
  | .ok _, none => (.error (.http 404 "Job not found"), stories)
  | .ok story, some job => match checkJob story job with
    | .error e => (.error e, stories)
    | .ok (metadata, structured, task) =>
      answerMutation (mutateOrRaise stories now storyId (applyJob lib text job task structured metadata))

end

/-! ## The other writers -/

/-- `UpdateStoryRequest`: a field that is not set is `none`, and `null` is `some none`. -/
structure StoryPatch where
  title : Option (Option String) := none
  projectId : Option (Option String) := none
  premise : Option (Option String) := none
  logline : Option (Option String) := none
  genre : Option (Option String) := none
  tone : Option (Option String) := none
  audience : Option (Option String) := none
  language : Option (Option String) := none
  format : Option (Option String) := none
  structureName : Option (Option String) := none
  characters : Option (Option (List String)) := none

/-- The value of a patched field. One that is set to `null` has none that validates. -/
def patched {α : Type} (field : Option (Option α)) (old : α) : Option α := field.getD (some old)

/-- The story that a patch leaves behind, if its file validates. -/
def StoryPatch.apply (patch : StoryPatch) (story : StoryDocument) : Option StoryDocument := do
  let title ← patched patch.title story.title
  let premise ← patched patch.premise story.premise
  let logline ← patched patch.logline story.logline
  let genre ← patched patch.genre story.genre
  let tone ← patched patch.tone story.tone
  let audience ← patched patch.audience story.audience
  let language ← patched patch.language story.language
  let format ← patched patch.format story.format
  let structureName ← patched patch.structureName story.structureName
  let characters ← patched patch.characters story.characters
  return { story with
    title, premise, logline, genre, tone, audience, language, format, structureName, characters
    projectId := patch.projectId.getD story.projectId }

/-- The stories with a file that does not validate. -/
def spoil (stories : Stories) (id : StoryId) : Stories where
  files := stories.files.insert id .malformed
  named id' story h := by
    by_cases hid : id' = id
    · subst hid
      rw [AList.lookup_insert] at h
      cases h
    · rw [AList.lookup_insert_ne hid] at h
      exact stories.named id' story h

/-- `StoryRepository.delete`. -/
def deleteStory (stories : Stories) (id : StoryId) : Stories where
  files := stories.files.erase id
  named id' story h := by
    by_cases hid : id' = id
    · subst hid
      rw [AList.lookup_erase] at h
      cases h
    · rw [AList.lookup_erase_ne hid] at h
      exact stories.named id' story h

/-- `StoryRepository.update`. -/
def updateStory (stories : Stories) (now : ℕ) (id : StoryId) (patch : StoryPatch) : Stories :=
  match stories.get? id with
  | none => stories
  | some story => match patch.apply story with
    | some updated => (mutate stories now id fun _ => some updated).2
    | none => spoil stories id

/-- What other requests and the binder do to the stories. -/
inductive StoryEvent
  | edit (id : StoryId) (change : Edit)
  | patch (id : StoryId) (changes : StoryPatch)
  | delete (id : StoryId)

section
variable (lib : ValueLibrary) (text : TextLibrary)

/-- The stories after an event, at a time. -/
def StoryEvent.after (stories : Stories) : ℕ × StoryEvent → Stories
  | (now, .edit id change) => (mutateOrRaise stories now id fun story => change.run lib text story).2
  | (now, .patch id changes) => updateStory stories now id changes
  | (_, .delete id) => deleteStory stories id

/-- The stories after some events. -/
def runEvents (stories : Stories) (events : List (ℕ × StoryEvent)) : Stories :=
  events.foldl (StoryEvent.after lib text) stories

end

/-! ## What a merge into the stories leaves behind -/

section
variable {lib : ValueLibrary} {text : TextLibrary} {stories : Stories} {now : ℕ} {id : StoryId}

theorem id_mergeTask {story merged : StoryDocument} {task : Task} {structured : Dict Value} {asOf : Option String}
    (h : mergeTask lib text story task structured asOf = .ok merged) : merged.id = story.id := by
  cases task with
  | logline =>
    obtain ⟨candidates, -, rfl⟩ := mergeLogline_eq_ok.mp h
    rfl
  | beatSheet =>
    obtain ⟨rawBeats, -, rfl⟩ := mergeBeatSheet_eq_ok.mp h
    rfl
  | sceneList =>
    obtain ⟨rawScenes, scenes, -, -, rfl⟩ := mergeSceneList_eq_ok.mp h
    rfl
  | prose =>
    obtain ⟨-, rfl⟩ := mergeProse_eq_ok.mp h
    rfl
  | script =>
    obtain ⟨rawLines, target, -, -, rfl⟩ := mergeScript_eq_ok.mp h
    cases target <;> rfl
  | characterSheet =>
    obtain ⟨-, drafts, -, rfl⟩ := mergeCharacterSheet_eq_ok.mp h
    rfl

theorem id_applyTextResult {story merged : StoryDocument} {task : String} {structured : Dict Value}
    {job : Option JobId} {asOf : Option String}
    (h : applyTextResult lib text story task structured job asOf = .ok merged) : merged.id = story.id := by
  obtain ⟨named, result, -, hmerge, rfl⟩ := applyTextResult_eq_ok.mp h
  have hid : result.id = story.id := id_mergeTask hmerge
  exact hid

/-- A mutation stores what it answers with: the story it was given, at another time perhaps. -/
theorem mutate_stores (now : ℕ) {current updated : StoryDocument} (hcurrent : stories.get? id = some current)
    (hid : updated.id = current.id) :
    ∃ time, (mutate stories now id fun _ => some updated).1 = some { updated with updatedAt := time } ∧
      (mutate stories now id fun _ => some updated).2.get? id = some { updated with updatedAt := time } := by
  simp only [mutate, hcurrent]
  split
  next heq =>
    subst heq
    exact ⟨updated.updatedAt, rfl, hcurrent⟩
  next =>
    exact ⟨now, rfl, Stories.get?_save (hid.trans (Stories.id_of_get? hcurrent))⟩

/-- A mutation that raises stores nothing, and one that does not stores what its function made of
the story as it was. -/
theorem mutateOrRaise_spec {ε : Type} (stories : Stories) (now : ℕ) (id : StoryId)
    {fn : StoryDocument → Except ε StoryDocument}
    (hfn : ∀ current updated, fn current = .ok updated → updated.id = current.id) :
    (∀ e, (mutateOrRaise stories now id fn).1 = .error e → (mutateOrRaise stories now id fn).2 = stories) ∧
    ((mutateOrRaise stories now id fn).1 = .ok none → (mutateOrRaise stories now id fn).2 = stories) ∧
    ∀ saved, (mutateOrRaise stories now id fn).1 = .ok (some saved) →
      (mutateOrRaise stories now id fn).2.get? id = some saved ∧
        ∃ current updated time, stories.get? id = some current ∧ fn current = .ok updated ∧
          saved = { updated with updatedAt := time } := by
  cases hcurrent : stories.get? id with
  | none =>
    have heq : mutateOrRaise stories now id fn = (.ok none, stories) := by rw [mutateOrRaise, hcurrent]
    rw [heq]
    exact ⟨nofun, fun _ => rfl, nofun⟩
  | some current =>
    cases hupdated : fn current with
    | error e =>
      have heq : mutateOrRaise stories now id fn = (.error e, stories) := by
        simp only [mutateOrRaise, hcurrent, hupdated]
      rw [heq]
      exact ⟨fun _ _ => rfl, nofun, nofun⟩
    | ok updated =>
      obtain ⟨time, hanswer, hstored⟩ := mutate_stores now hcurrent (hfn current updated hupdated)
      have heq : mutateOrRaise stories now id fn =
          (.ok (some { updated with updatedAt := time }), (mutate stories now id fun _ => some updated).2) := by
        simp only [mutateOrRaise, hcurrent, hupdated, ← hanswer]
      rw [heq]
      refine ⟨nofun, nofun, fun saved h => ?_⟩
      obtain rfl := Option.some.inj (Except.ok.inj h)
      exact ⟨hstored, current, updated, time, rfl, hupdated, rfl⟩

/-! ## The guard and the merge agree -/

/-- What the guard takes for a name, the merge does too. -/
theorem namedScene?_isSome (structured : Dict Value) :
    (namedScene? structured).isSome = (structured.get? "scene_id").any isName := by
  rw [namedScene?]
  cases structured.get? "scene_id" with
  | none => rfl
  | some value =>
    cases value with
    | str id => by_cases hid : id = "" <;> simp [JsonOf.str?, isName, hid, Option.filter]
    | _ => rfl

/-- What the guard takes for a number, the merge does too. -/
theorem sceneIndex?_isSome (structured : Dict Value) :
    (sceneIndex? structured).isSome = (structured.get? "scene_index").any isIndex := by
  rw [sceneIndex?]
  cases structured.get? "scene_index" with
  | none => rfl
  | some value => cases value <;> rfl

/-- The place that a script goes to is that of a scene, which has the id that the script names. -/
theorem scriptTarget_spec {story : StoryDocument} {structured : Dict Value} {target : Option ℕ}
    (h : scriptTarget story structured = .ok target) (hnames : namesAScene story structured) :
    ∃ index scene, target = some index ∧ story.scenes[index]? = some scene ∧
      ∀ id ∈ namedScene? structured, scene.id = id := by
  cases hname : namedScene? structured with
  | some id =>
    simp only [scriptTarget, hname] at h
    cases hlast : lastIndex? (fun scene : Scene => scene.id = id) story.scenes with
    | none =>
      simp only [hlast] at h
      cases h
    | some index =>
      simp only [hlast] at h
      obtain ⟨scene, hscene, hid⟩ := getElem?_of_lastIndex? hlast
      refine ⟨index, scene, (Except.ok.inj h).symm, hscene, fun id' hid' => ?_⟩
      obtain rfl := Option.some.inj hid'
      exact of_decide_eq_true hid
  | none =>
    simp only [scriptTarget, hname] at h
    cases horder : sceneIndex? structured with
    | some order =>
      simp only [horder] at h
      cases hlast : lastIndex? (fun scene : Scene => scene.order = order) story.scenes with
      | none =>
        simp only [hlast] at h
        cases h
      | some index =>
        simp only [hlast] at h
        obtain ⟨scene, hscene, -⟩ := getElem?_of_lastIndex? hlast
        exact ⟨index, scene, (Except.ok.inj h).symm, hscene, by simp⟩
    | none =>
      -- the guard has found no id and no number either, so there is one scene
      have hsingle : story.scenes.length = 1 := by
        rw [namesAScene, ← namedScene?_isSome, ← sceneIndex?_isSome, hname, horder] at hnames
        exact of_decide_eq_true hnames
      simp only [horder, if_pos hsingle] at h
      obtain ⟨scene, hscene⟩ := List.length_eq_one_iff.mp hsingle
      exact ⟨0, scene, (Except.ok.inj h).symm, by rw [hscene]; rfl, by simp⟩

/-- The dialogue of a scene is replaced. No other scene changes, and the metadata does not. -/
structure Replaces (current saved : StoryDocument) (index : ℕ) (scene : Scene) : Prop where
  target : current.scenes[index]? = some scene
  scenes : ∃ dialogue, saved.scenes = current.scenes.modify index fun old => { old with dialogue }
  metadata : saved.metadata = current.metadata

/-- A script whose target the guard has seen goes into a scene. -/
theorem replaces_mergeScript {current merged : StoryDocument} {structured : Dict Value}
    (hnames : namesAScene current structured) (h : mergeScript lib current structured = .ok merged) :
    ∃ index scene, Replaces current merged index scene ∧ ∀ id ∈ namedScene? structured, scene.id = id := by
  obtain ⟨rawLines, target, -, htarget, rfl⟩ := mergeScript_eq_ok.mp h
  obtain ⟨index, scene, rfl, hscene, hid⟩ := scriptTarget_spec htarget hnames
  exact ⟨index, scene, ⟨hscene, ⟨_, rfl⟩, rfl⟩, hid⟩

theorem namedScene?_set (structured : Dict Value) {id : String} (hid : id ≠ "") :
    namedScene? (structured.set "scene_id" (.str id)) = some id := by
  simp [namedScene?, JsonOf.str?, Option.filter, hid]

/-- The lines of a job for a scene go into the scene of its id. -/
theorem replaces_applyJob {job : TextJob} {current updated : StoryDocument} {structured metadata : Dict Value}
    {scene : String} (hscene : jobScene? job.params = some scene)
    (h : applyJob lib text job "script" structured metadata current = .ok updated) :
    ∃ index target, Replaces current updated index target ∧ target.id = scene := by
  have hid : scene ≠ "" := by simpa using (Option.filter_eq_some_iff.mp hscene).2
  obtain ⟨payload, hpayload, happly⟩ := bind_eq_ok.mp h
  rw [mergePayload, if_pos (by decide), hscene] at hpayload
  obtain rfl := Except.ok.inj hpayload
  have hnames : namesAScene current (structured.set "scene_id" (.str scene)) := by
    rw [namesAScene, ← namedScene?_isSome, namedScene?_set structured hid]
    rfl
  cases hresult : applyTextResult lib text current "script" (structured.set "scene_id" (.str scene)) (some job.id)
      (asOfChapter metadata) with
  | error e =>
    rw [hresult] at happly
    cases happly
  | ok result =>
    rw [hresult] at happly
    obtain rfl := Except.ok.inj happly
    obtain ⟨named, merged, hname, hmerge, rfl⟩ := applyTextResult_eq_ok.mp hresult
    obtain rfl := Option.some.inj (hname.symm.trans (Task.ofName?_name .script))
    obtain ⟨index, target, hreplaces, htarget⟩ := replaces_mergeScript hnames hmerge
    refine ⟨index, target, ⟨hreplaces.target, hreplaces.scenes, hreplaces.metadata⟩, htarget scene ?_⟩
    exact namedScene?_set structured hid

end

/-! ## The job that was queued -/

/-- A script job that the expansion route has queued for a story, with the answer that the text
generator has given to its params: the task of the result is the one of the request. -/
structure ScriptJob (library : Library) (stories : Stories) (storyId : StoryId) (job : TextJob) : Prop where
  queued : ∃ continuity request built, request.task = "script" ∧
    expandStory library stories continuity storyId request = .ok built ∧ job.params.Same built.params
  answer : ∀ metadata, job.metadata = some metadata → metadata.get? "story_task" = some (.str "script")

theorem textParam_of_same {a b : Obj} (h : a.Same b) (key : String) : textParam a key = textParam b key := by
  have hbind (value : Option Json) : value.bind JsonOf.str? = (value.map JsonOf.canon).bind JsonOf.str? := by
    cases value with
    | none => rfl
    | some value => exact (JsonOf.str?_canon value).symm
  rw [textParam, textParam, hbind, hbind (b.get? key), Obj.same_iff.mp h key]

/-- The scene that the expansion route picks is one of the story's, and its id is not empty. -/
theorem scene_of_bindTaskToScene {library : Library} {story : StoryDocument} {params params' : Obj}
    (h : bindTaskToScene library story params = .ok params') :
    ∃ scene ∈ story.scenes, scene.id ≠ "" ∧ params'.get? "scene_id" = some (.str scene.id) := by
  unfold bindTaskToScene at h
  simp only [Bind.bind, Except.bind, pure, Except.pure, throw, throwThe, MonadExceptOf.throw] at h
  split at h
  · cases h
  split at h
  · cases h
  next id hid =>
    have hne : strip id ≠ "" := by simpa using (Option.filter_eq_some_iff.mp hid).2
    unfold findScene at h
    cases hscene : story.scene? (strip id) with
    | none => simp [hscene] at h
    | some scene =>
      simp only [hscene] at h
      obtain rfl := Except.ok.inj h
      have hsame : scene.id = strip id := by simpa using List.find?_some hscene
      refine ⟨scene, List.mem_of_find?_eq_some hscene, hsame ▸ hne, ?_⟩
      simp [apply_ite (fun d : Obj => Dict.get? d "scene_id"), Dict.get?_set]

theorem scene_of_expandStory {library : Library} {stories : Stories} {continuity : Option (String × Json)}
    {storyId : StoryId} {request : ExpandStoryRequest} {built : GenerationRequest} (htask : request.task = "script")
    (h : expandStory library stories continuity storyId request = .ok built) :
    ∃ story scene, stories.get? storyId = some story ∧ scene ∈ story.scenes ∧
      jobScene? built.params = some scene.id := by
  unfold expandStory getStory at h
  cases hstory : stories.get? storyId with
  | none => simp [hstory, Bind.bind, Except.bind] at h
  | some story =>
    simp only [hstory, Bind.bind, Except.bind, pure, Except.pure, throw, throwThe, MonadExceptOf.throw, htask,
      pinScene, if_true] at h
    split at h
    · cases h
    next params hparams =>
      obtain ⟨scene, hmem, hne, hscene⟩ := scene_of_bindTaskToScene hparams
      split at h
      · cases h
      split at h
      · cases h
      obtain rfl := Except.ok.inj h
      refine ⟨story, scene, rfl, hmem, ?_⟩
      simp [jobScene?, textParam, Dict.get?_erase, hscene, JsonOf.str?, Option.filter, hne]

/-! ## Whatever happens in between -/

/-- Every story has its scenes and chapters in their places. -/
def AllInPlace (stories : Stories) : Prop := ∀ id story, stories.get? id = some story → InPlace story

section
variable {lib : ValueLibrary} {text : TextLibrary} {stories : Stories}

theorem of_get?_save {saved story : StoryDocument} {id : StoryId} (h : (stories.save saved).get? id = some story) :
    stories.get? id = some story ∨ story = saved := by
  by_cases hid : id = saved.id
  · subst hid
    rw [Stories.get?_save rfl] at h
    exact .inr (Option.some.inj h).symm
  · rw [Stories.get?, Stories.file?_save_of_ne _ _ hid] at h
    exact .inl h

/-- A mutation leaves no story behind that was not there, but for what its function has made. -/
theorem of_get?_mutate {now : ℕ} {id other : StoryId} {updated story : StoryDocument}
    (h : (mutate stories now id fun _ => some updated).2.get? other = some story) :
    stories.get? other = some story ∨ ∃ time, story = { updated with updatedAt := time } := by
  unfold mutate at h
  split at h
  · exact .inl h
  · simp only at h
    split at h
    · exact .inl h
    · rcases of_get?_save h with hold | rfl
      · exact .inl hold
      · exact .inr ⟨now, rfl⟩

theorem AllInPlace.mutate {now : ℕ} {id : StoryId} {updated : StoryDocument} (h : AllInPlace stories)
    (hupdated : InPlace updated) : AllInPlace (mutate stories now id fun _ => some updated).2 := by
  intro other story hstory
  rcases of_get?_mutate hstory with hold | ⟨time, rfl⟩
  · exact h other story hold
  · exact hupdated.of_eq rfl rfl

theorem AllInPlace.mutateOrRaise {ε : Type} {now : ℕ} {id : StoryId} {fn : StoryDocument → Except ε StoryDocument}
    (h : AllInPlace stories) (hfn : ∀ current updated, InPlace current → fn current = .ok updated → InPlace updated) :
    AllInPlace (mutateOrRaise stories now id fn).2 := by
  unfold Routes.mutateOrRaise
  split
  · exact h
  next current hcurrent =>
    split
    · exact h
    next updated hupdated => exact h.mutate (hfn current updated (h id current hcurrent) hupdated)

/-- A patch touches neither scenes nor chapters. -/
theorem StoryPatch.apply_keeps {patch : StoryPatch} {story updated : StoryDocument}
    (h : patch.apply story = some updated) :
    updated.scenes = story.scenes ∧ updated.chapters = story.chapters ∧ updated.metadata = story.metadata := by
  simp only [StoryPatch.apply, Option.bind_eq_bind, Option.bind_eq_some_iff, pure, Option.some.injEq] at h
  obtain ⟨title, -, premise, -, logline, -, genre, -, tone, -, audience, -, language, -, format, -, structureName, -,
    characters, -, rfl⟩ := h
  exact ⟨rfl, rfl, rfl⟩

theorem AllInPlace.updateStory {now : ℕ} {id : StoryId} {patch : StoryPatch} (h : AllInPlace stories) :
    AllInPlace (updateStory stories now id patch) := by
  unfold Routes.updateStory
  split
  · exact h
  next current hcurrent =>
    split
    next updated hupdated =>
      obtain ⟨hscenes, hchapters, -⟩ := StoryPatch.apply_keeps hupdated
      exact h.mutate ((h id current hcurrent).of_eq hscenes hchapters)
    next =>
      intro other story hstory
      by_cases hother : other = id
      · subst hother
        rw [Stories.get?, Stories.file?, spoil, AList.lookup_insert] at hstory
        cases hstory
      · rw [Stories.get?, Stories.file?, spoil, AList.lookup_insert_ne hother] at hstory
        exact h other story hstory

theorem AllInPlace.deleteStory {id : StoryId} (h : AllInPlace stories) : AllInPlace (deleteStory stories id) := by
  intro other story hstory
  by_cases hother : other = id
  · subst hother
    rw [Stories.get?, Stories.file?, Routes.deleteStory, AList.lookup_erase] at hstory
    cases hstory
  · rw [Stories.get?, Stories.file?, Routes.deleteStory, AList.lookup_erase_ne hother] at hstory
    exact h other story hstory

theorem AllInPlace.after (h : AllInPlace stories) (event : ℕ × StoryEvent) :
    AllInPlace (StoryEvent.after lib text stories event) := by
  obtain ⟨now, event⟩ := event
  cases event with
  | edit id change => exact h.mutateOrRaise fun current updated hcurrent hrun => hcurrent.run hrun
  | patch id changes => exact h.updateStory
  | delete id => exact h.deleteStory

theorem AllInPlace.runEvents (h : AllInPlace stories) (events : List (ℕ × StoryEvent)) :
    AllInPlace (runEvents lib text stories events) := by
  induction events generalizing stories with
  | nil => exact h
  | cons event events ih => exact ih (h.after event)

theorem id_applyJob {job : TextJob} {task : String} {structured metadata : Dict Value}
    {current updated : StoryDocument} (h : applyJob lib text job task structured metadata current = .ok updated) :
    updated.id = current.id := by
  obtain ⟨payload, -, happly⟩ := bind_eq_ok.mp h
  cases hresult : applyTextResult lib text current task payload (some job.id) (asOfChapter metadata) with
  | error e =>
    rw [hresult] at happly
    cases happly
  | ok result =>
    rw [hresult] at happly
    obtain rfl := Except.ok.inj happly
    exact id_applyTextResult hresult

theorem of_checkJob {story : StoryDocument} {job : TextJob} {metadata structured : Dict Value} {task : String}
    (h : checkJob story job = .ok (metadata, structured, task)) :
    job.metadata = some metadata ∧ storyPayload metadata = some (structured, task) := by
  unfold checkJob at h
  split at h
  · cases h
  next found hfound =>
    split at h
    · cases h
    · split at h
      · cases h
      next payload hpayload =>
        obtain ⟨rfl, rfl⟩ := Prod.mk.inj (Except.ok.inj h)
        exact ⟨(Option.filter_eq_some_iff.mp hfound).1, hpayload⟩

theorem task_of_storyPayload {metadata structured : Dict Value} {task : String}
    (h : storyPayload metadata = some (structured, task)) : metadata.get? "story_task" = some (.str task) := by
  simp only [storyPayload, Option.bind_eq_bind, Option.bind_eq_some_iff, JsonOf.str?_eq_some, pure, Option.some.injEq,
    Prod.mk.injEq] at h
  obtain ⟨_, -, _, ⟨_, hget, rfl⟩, rfl, rfl⟩ := h
  exact hget

/-- The apply route stores what it answers with, made of the story as it is by then, or it stores
nothing. -/
theorem applyStoryResult_spec (lib : ValueLibrary) (text : TextLibrary) (seen stories : Stories) (now : ℕ)
    (storyId : StoryId) (job : TextJob) :
    (∀ e, (applyStoryResult lib text seen stories now storyId (some job)).1 = .error e →
      (applyStoryResult lib text seen stories now storyId (some job)).2 = stories) ∧
    ∀ saved, (applyStoryResult lib text seen stories now storyId (some job)).1 = .ok saved →
      (applyStoryResult lib text seen stories now storyId (some job)).2.get? storyId = some saved ∧
        ∃ metadata structured task current updated time, job.metadata = some metadata ∧
          storyPayload metadata = some (structured, task) ∧ stories.get? storyId = some current ∧
          applyJob lib text job task structured metadata current = .ok updated ∧
          saved = { updated with updatedAt := time } := by
  unfold applyStoryResult
  cases getStory seen storyId with
  | error e => exact ⟨fun _ _ => rfl, nofun⟩
  | ok story =>
    dsimp only
    rcases hcheck : checkJob story job with e | ⟨metadata, structured, task⟩
    · exact ⟨fun _ _ => rfl, nofun⟩
    · have hid : ∀ current updated, applyJob lib text job task structured metadata current = .ok updated →
          updated.id = current.id := fun _ _ => id_applyJob
      obtain ⟨herror, hnone, hsaved⟩ := mutateOrRaise_spec stories now storyId hid
      dsimp only
      rcases hresult : mutateOrRaise stories now storyId (applyJob lib text job task structured metadata) with
        ⟨e | _ | saved, after⟩
      · rw [hresult] at herror
        dsimp only [answerMutation]
        exact ⟨fun _ _ => herror e rfl, nofun⟩
      · rw [hresult] at hnone
        dsimp only [answerMutation]
        exact ⟨fun _ _ => hnone rfl, nofun⟩
      · rw [hresult] at hsaved
        dsimp only [answerMutation]
        obtain ⟨hstored, current, updated, time, hcurrent, hupdated, heq⟩ := hsaved saved rfl
        obtain ⟨hmetadata, hpayload⟩ := of_checkJob hcheck
        refine ⟨nofun, fun answered hanswered => ?_⟩
        obtain rfl := Except.ok.inj hanswered
        exact ⟨hstored, metadata, structured, task, current, updated, time, hmetadata, hpayload, hcurrent, hupdated,
          heq⟩

end

/-! ### A script for the second of two scenes -/

/-- A story of two scenes. -/
def twoScenes : Stories := Stories.empty.save
  { id := "story_1", premise := "A lighthouse", scenes := [{ id := "scene_01" }, { id := "scene_02", order := 1 }] }

/-- A job with these params, with a line for an answer. -/
def answered (params : Obj) : TextJob where
  id := 1
  status := .succeeded
  params := params
  metadata := some [("structured", .obj [("lines", .arr [.obj [("speaker", .str "Mira"), ("text", .str "Hi")]])]),
    ("story_task", .str "script")]

/-- What the expansion route queues for the second scene. -/
def secondSceneRequest : Except RouteError GenerationRequest :=
  expandStory Library.plain twoScenes none "story_1" { task := "script", params := [("scene_id", .str "scene_02")] }

/-- The apply route on the job of a request, after some events. -/
def applyAfter (events : List (ℕ × StoryEvent)) (built : GenerationRequest) :
    Except RouteError StoryDocument × Stories :=
  applyStoryResult smallValues plainLibrary twoScenes (runEvents smallValues plainLibrary twoScenes events) 0 "story_1"
    (some (answered built.params))

end CreativeStudio.Routes
