import CreativeStudio.Generators.StoryTasks
import CreativeStudio.Schemas.Shapes

/-!
# The response models of the story tasks

The schema of a task is its contract: what passes it is what is written, and what is merged into the
story of the job afterwards. The mergers ask for a little more than the schema does, namely that the
text of a chapter and the name of a character are not blank.
-/

namespace CreativeStudio.Generators
open Data Story Shape

/-- `LoglineResponse`. -/
def loglineResponse : Shape :=
  .model [required "loglines" (.list true (.model [required "text" .str, blankText "hook", blankText "tone"]))]

/-- `BeatSheetResponse`. -/
def beatSheetResponse : Shape :=
  .model [required "beats" (.list true (.model [required "act" .str, required "purpose" .str, required "summary" .str]))]

/-- The fields of `SceneItem`. -/
def sceneFields : List (String × Option Value × Shape) :=
  [required "heading" .str, blankText "summary", blankText "narration", required "image_prompt" .str,
    blankText "image_negative", blankText "bgm_mood", ("duration_seconds", some (.float (.finite 4)), .float),
    blankText "camera"]

/-- `SceneListResponse`. -/
def sceneListResponse : Shape := .model [required "scenes" (.list true (.model sceneFields))]

/-- `ProseResponse`. -/
def proseResponse : Shape := .model [blankText "title", required "prose_markdown" .str]

/-- `ScriptResponse`. -/
def scriptResponse : Shape :=
  .model [required "lines" (.list true (.model [required "speaker" .str, required "text" .str,
    ("direction", some .null, .optional .str)]))]

/-- `PromptPackResponse`. -/
def promptPackResponse : Shape :=
  .model [required "prompts" (.list true (.model [required "label" .str, required "prompt" .str,
    blankText "negative_prompt"]))]

/-- `CharacterSheetResponse`. -/
def characterSheetResponse : Shape :=
  .model [required "name" .str, blankText "summary", required "prompt_fragment" .str, blankText "negative_fragment",
    ("attributes", some (.obj []), .strings), ("tokens", some (.arr []), .list false .str)]

/-- `response_model`. -/
def responseModel : StoryTask → Shape
  | .logline => loglineResponse
  | .beatSheet => beatSheetResponse
  | .sceneList => sceneListResponse
  | .prose => proseResponse
  | .script => scriptResponse
  | .promptPack => promptPackResponse
  | .characterSheet => characterSheetResponse

/-- `task.response_model.model_validate(payload).model_dump(mode="json")`, if the payload is valid. -/
def validateResponse (lib : ValueLibrary) (task : StoryTask) (payload : Dict Value) : Option (Dict Value) :=
  (Shape.validate lib (responseModel task) (.obj payload)).bind JsonOf.obj?

/-- The writing task that a story is expanded by. -/
def writingTask : Task → StoryTask
  | .logline => .logline
  | .beatSheet => .beatSheet
  | .sceneList => .sceneList
  | .prose => .prose
  | .script => .script
  | .characterSheet => .characterSheet

/-! ## What a valid response is -/

section
variable {lib : ValueLibrary} {payload structured : Dict Value}

/-- The response to a task is an object with the fields of its model. -/
theorem validateResponse_eq_some {task : StoryTask} {fields : List (String × Option Value × Shape)}
    (hmodel : responseModel task = .model fields) :
    validateResponse lib task payload = some structured ↔ validateFields lib fields payload = some structured := by
  rw [validateResponse, hmodel, validate_model]
  cases validateFields lib fields payload <;> simp [JsonOf.obj?]

theorem eq_map_obj {values : List Value} (h : ∀ value ∈ values, ∃ members, value = .obj members) :
    values = (values.filterMap JsonOf.obj?).map .obj := by
  induction values with
  | nil => rfl
  | cons value rest ih =>
    rcases h value List.mem_cons_self with ⟨members, rfl⟩
    have hrest := ih fun later hlater => h later (List.mem_cons_of_mem _ hlater)
    rw [List.filterMap_cons_some (by rfl), List.map_cons, ← hrest]

/-- A required list of models is dumped as a list of objects, with one of them at least. -/
theorem exists_listed {fields item : List (String × Option Value × Shape)} {name : String}
    (h : validateFields lib fields payload = some structured) (hnames : (fields.map Prod.fst).Nodup)
    (hfield : required name (.list true (.model item)) ∈ fields) :
    ∃ items : List (Dict Value), structured.get? name = some (.arr (items.map .obj)) ∧ items ≠ [] ∧
      ∀ entry ∈ items, ∃ members, validateFields lib item members = some entry := by
  rcases exists_get?_validateFields h hnames hfield with ⟨value, hget, hvalue⟩
  rw [fieldValue] at hvalue
  cases hpayload : payload.get? name with
  | none =>
    simp only [required, hpayload] at hvalue
    cases hvalue
  | some raw =>
    simp only [required, hpayload, Option.elim_some] at hvalue
    rcases validate_list_eq_some hvalue with ⟨values, ds, -, rfl, hne, hds⟩
    rcases forall_of_mapM hds with ⟨hlength, hall⟩
    have hobjects : ∀ d ∈ ds, ∃ entry, d = .obj entry ∧ ∃ members, validateFields lib item members = some entry := by
      intro d hd
      rcases hall d hd with ⟨v, -, hv⟩
      rcases validate_model_eq_some hv with ⟨members, entry, -, hentry, hmembers⟩
      exact ⟨entry, hentry, members, hmembers⟩
    have heq := eq_map_obj fun d hd => (hobjects d hd).imp fun _ h => h.1
    refine ⟨ds.filterMap JsonOf.obj?, heq ▸ hget, ?_, ?_⟩
    · intro hnil
      rw [hnil, List.map_nil] at heq
      rw [heq] at hlength
      exact hne rfl (List.length_eq_zero_iff.1 hlength.symm)
    · intro entry hentry
      rcases List.mem_filterMap.1 hentry with ⟨d, hd, hobj⟩
      rcases hobjects d hd with ⟨entry', hd', hmembers⟩
      rw [hd'] at hobj
      cases hobj
      exact hmembers

theorem entries_of_get? {name : String} {items : List (Dict Value)}
    (h : structured.get? name = some (.arr (items.map .obj))) : entries structured name = .ok items := by
  have hobj : (JsonOf.obj? ∘ JsonOf.obj : Dict Value → Option (Dict Value)) = some := rfl
  simp only [entries, h, List.filterMap_map, hobj, List.filterMap_some]

/-! ## What is merged -/

/-- What the mergers ask for beyond the schema. -/
def Placeable (lib : ValueLibrary) (story : StoryDocument) (structured : Dict Value) : Task → Prop
  | .prose => textField lib structured "prose_markdown" ≠ ""
  | .characterSheet => textField lib structured "name" ≠ "" ∧
      ∃ drafts, entries story.metadata "character_drafts" = .ok drafts
  | _ => True

/-- The duration of a valid scene is a float. -/
theorem exists_duration {members entry : Dict Value} (h : validateFields lib sceneFields members = some entry) :
    ∃ x, entry.get? "duration_seconds" = some (.float x) := by
  have hfield : ("duration_seconds", some (.float (.finite 4)), Shape.float) ∈ sceneFields := by simp [sceneFields]
  rcases @get?_of_dumped lib (fun value => ∃ x, value = .float x) _ _ _ h (by decide) _ _ _ hfield
    (by rintro value ⟨⟩; exact ⟨_, rfl⟩) (fun raw value => validate_float_eq_some) with ⟨value, hget, x, rfl⟩
  exact ⟨x, hget⟩

/-- A float has no overflow, so every valid scene has a place in the story. -/
theorem exists_sceneOf {members entry : Dict Value} (beatIds : List String) (previous : Option Scene) (index : ℕ)
    (h : validateFields lib sceneFields members = some entry) :
    ∃ scene, sceneOf lib beatIds previous index entry = .ok scene := by
  rcases exists_duration h with ⟨x, hget⟩
  have hduration : ∃ duration, coerceDuration lib (.float x) = .ok duration := ⟨_, rfl⟩
  rcases hduration with ⟨duration, hduration⟩
  refine ⟨_, bind_eq_ok.2 ⟨duration, ?_, rfl⟩⟩
  rw [hget]
  exact hduration

/-- A valid script names no scene. -/
theorem exists_scriptTarget (story : StoryDocument) {fields : List (String × Option Value × Shape)}
    (h : validateFields lib fields payload = some structured) (hid : "scene_id" ∉ fields.map Prod.fst)
    (hindex : "scene_index" ∉ fields.map Prod.fst) : ∃ target, scriptTarget story structured = .ok target := by
  have hnames := names_validateFields h
  have hnoId : structured.get? "scene_id" = none := Dict.get?_eq_none_of_notMem (hnames ▸ hid)
  have hnoIndex : structured.get? "scene_index" = none := Dict.get?_eq_none_of_notMem (hnames ▸ hindex)
  have hnamed : namedScene? structured = none := by rw [namedScene?, hnoId]; rfl
  have hnumbered : sceneIndex? structured = none := by rw [sceneIndex?, hnoIndex]; rfl
  rw [scriptTarget, hnamed, hnumbered]
  exact ⟨_, rfl⟩

/-- A payload that passes the schema of its task is merged if and only if it is placeable. -/
theorem mergeTask_iff_placeable {text : TextLibrary} {story : StoryDocument} {task : Task} {asOf : Option String}
    (h : validateResponse lib (writingTask task) payload = some structured) :
    (∃ merged, mergeTask lib text story task structured asOf = .ok merged) ↔ Placeable lib story structured task := by
  cases task with
  | logline =>
    have hfields := (validateResponse_eq_some rfl).1 h
    rcases exists_listed hfields (by decide) List.mem_cons_self with ⟨items, hget, hne, -⟩
    have hitems := entries_of_get? hget
    exact iff_of_true ⟨_, mergeLogline_eq_ok.2 ⟨items, requiredEntries_eq_ok.2 ⟨hitems, hne⟩, rfl⟩⟩ trivial
  | beatSheet =>
    have hfields := (validateResponse_eq_some rfl).1 h
    rcases exists_listed hfields (by decide) List.mem_cons_self with ⟨items, hget, hne, -⟩
    have hitems := entries_of_get? hget
    exact iff_of_true ⟨_, mergeBeatSheet_eq_ok.2 ⟨items, requiredEntries_eq_ok.2 ⟨hitems, hne⟩, rfl⟩⟩ trivial
  | sceneList =>
    have hfields := (validateResponse_eq_some rfl).1 h
    rcases exists_listed hfields (by decide) List.mem_cons_self with ⟨items, hget, hne, hall⟩
    have hitems := entries_of_get? hget
    have hscenes : ∃ scenes, (items.zipIdx.mapM fun item => sceneOf lib (story.beats.map Beat.id)
        (existingByOrder story.scenes item.2) item.2 item.1) = .ok scenes := by
      apply exists_mapM_ok_iff.2
      intro item hitem
      rcases hall item.1 (List.fst_mem_of_mem_zipIdx hitem) with ⟨members, hmembers⟩
      exact exists_sceneOf _ _ _ hmembers
    rcases hscenes with ⟨scenes, hscenes⟩
    refine iff_of_true ⟨{ story with scenes }, ?_⟩ trivial
    exact bind_eq_ok.2 ⟨items, requiredEntries_eq_ok.2 ⟨hitems, hne⟩, bind_eq_ok.2 ⟨scenes, hscenes, rfl⟩⟩
  | prose =>
    constructor
    · intro hmerged
      rcases hmerged with ⟨merged, hmerged⟩
      exact (mergeProse_eq_ok.1 hmerged).1
    · intro hprose
      exact ⟨_, mergeProse_eq_ok.2 ⟨hprose, rfl⟩⟩
  | script =>
    have hfields := (validateResponse_eq_some rfl).1 h
    rcases exists_listed hfields (by decide) List.mem_cons_self with ⟨items, hget, hne, -⟩
    have hitems := entries_of_get? hget
    rcases exists_scriptTarget story hfields (by decide) (by decide) with ⟨target, htarget⟩
    exact iff_of_true ⟨_, mergeScript_eq_ok.2 ⟨items, target, requiredEntries_eq_ok.2 ⟨hitems, hne⟩, htarget, rfl⟩⟩ trivial
  | characterSheet =>
    constructor
    · intro hmerged
      rcases hmerged with ⟨merged, hmerged⟩
      rcases mergeCharacterSheet_eq_ok.1 hmerged with ⟨hname, drafts, hdrafts, -⟩
      exact ⟨hname, drafts, hdrafts⟩
    · intro hplace
      rcases hplace with ⟨hname, drafts, hdrafts⟩
      exact ⟨_, mergeCharacterSheet_eq_ok.2 ⟨hname, drafts, hdrafts, rfl⟩⟩

/-- The result of a text job that passes the schema of its task is applied to a story if and only if it
is placeable there. -/
theorem applyTextResult_of_valid {text : TextLibrary} {story : StoryDocument} {task : Task}
    (h : validateResponse lib (writingTask task) payload = some structured) (job : Option JobId)
    (asOf : Option String) :
    (∃ merged, applyTextResult lib text story task.name structured job asOf = .ok merged) ↔
      Placeable lib story structured task := by
  rw [← @mergeTask_iff_placeable lib payload structured text story task asOf h]
  constructor
  · intro happlied
    rcases happlied with ⟨merged, happlied⟩
    rcases applyTextResult_eq_ok.1 happlied with ⟨named, result, hnamed, hresult, -⟩
    rw [Task.ofName?_name] at hnamed
    cases hnamed
    exact ⟨result, hresult⟩
  · intro hmerged
    rcases hmerged with ⟨result, hresult⟩
    exact ⟨_, applyTextResult_eq_ok.2 ⟨task, result, Task.ofName?_name task, hresult, rfl⟩⟩

end

/-- A chapter of one space passes the schema, and is not applied. -/
theorem not_applied_blank : ¬∃ merged, applyTextResult smallValues plainLibrary { id := "story_1" } "prose"
    [("title", .str ""), ("prose_markdown", .str " ")] (some 7) none = .ok merged := by
  have hvalid : validateResponse smallValues (writingTask .prose) [("prose_markdown", .str " ")] =
      some [("title", .str ""), ("prose_markdown", .str " ")] := rfl
  rw [show "prose" = Task.prose.name from rfl, applyTextResult_of_valid hvalid]
  intro hplace
  exact hplace rfl

end CreativeStudio.Generators
