import CreativeStudio.Story.Schemas
import CreativeStudio.Story.TextUtils
import CreativeStudio.Schemas.Values

/-!
# Merging generated text into a story

A text job answers with a dictionary. What it is merged into depends on its task, and so does
what is matched with what the story has: a scene with the one before it in its place, a chapter
with the one of its title, a character with the draft of its name.
-/

namespace CreativeStudio.Story
open Data Storage

/-- `SUPPORTED_TASKS`. -/
inductive Task
  | logline | beatSheet | sceneList | prose | script | characterSheet
  deriving DecidableEq, Repr

/-- The name of a task. -/
def Task.name : Task → String
  | logline => "logline"
  | beatSheet => "beat_sheet"
  | sceneList => "scene_list"
  | prose => "prose"
  | script => "script"
  | characterSheet => "character_sheet"

/-- `SUPPORTED_TASKS`, in order. -/
def supportedTasks : List Task := [.logline, .beatSheet, .sceneList, .prose, .script, .characterSheet]

/-- The task of a name. -/
def Task.ofName? (name : String) : Option Task := supportedTasks.find? fun task => task.name = name

/-- `DEFAULT_SCENE_DURATION_SECONDS`. -/
def defaultSceneDurationSeconds : PyFloat := .finite 4

/-! ## Reading the payload -/

/-- The dictionaries of `structured.get(key, [])`. The members of a text or of a dictionary are
texts. -/
def entries (structured : Dict Value) (key : String) : Except Exc (List (Dict Value)) :=
  match structured.get? key with
  | none | some (.str _) | some (.obj _) => .ok []
  | some (.arr items) => .ok (items.filterMap JsonOf.obj?)
  | some value => .error (.other s!"'{typeName value}' object is not iterable")

/-- A payload without what its task is about. -/
def containsNo (task : Task) (what : String) : Exc := .value s!"{task.name} payload contains no {what}"

/-- The dictionaries under the key of a task, of which there is one at least. -/
def requiredEntries (task : Task) (structured : Dict Value) (key : String) : Except Exc (List (Dict Value)) := do
  let found ← entries structured key
  if found = [] then throw (containsNo task key)
  return found

section
variable (lib : ValueLibrary) (text : TextLibrary)

/-- `str(entry.get(key, ""))`. -/
def rawField (entry : Dict Value) (key : String) : String := lib.str ((entry.get? key).getD (.str ""))

/-- `str(entry.get(key, "")).strip()`. -/
def textField (entry : Dict Value) (key : String) : String := strip (rawField lib entry key)

/-- `_resolve_beat_id`. A boolean is an integer here. -/
def resolveBeatId (raw : Option Value) (beatIds : List String) : Option String :=
  match raw with
  | some (.str id) => if id ∈ beatIds then some id else none
  | some (.bool b) => beatIds[if b then 1 else 0]?
  | some (.int n) => if 0 ≤ n then beatIds[n.toNat]? else none
  | _ => none

/-- `_coerce_duration`. -/
def coerceDuration (raw : Value) : Except Exc PyFloat :=
  match toPyFloat lib raw with
  | .ok duration => .ok (if duration.nonpos then defaultSceneDurationSeconds else duration)
  | .error .unreadable => .ok defaultSceneDurationSeconds
  | .error .overflow => .error (.other "int too large to convert to float")

/-! ## The mergers -/

/-- `_merge_logline`. -/
def mergeLogline (story : StoryDocument) (structured : Dict Value) : Except Exc StoryDocument := do
  let candidates ← requiredEntries .logline structured "loglines"
  return { story with
    logline := textField lib (candidates.headD []) "text"
    metadata := story.metadata.set "logline_candidates" (.arr (candidates.map .obj)) }

/-- The beat of an entry. -/
def beatOf (index : ℕ) (entry : Dict Value) : Beat where
  id := "beat_" ++ zeroPadded 2 (index + 1)
  act := textField lib entry "act"
  purpose := textField lib entry "purpose"
  summary := textField lib entry "summary"
  order := index

/-- `_merge_beat_sheet`. -/
def mergeBeatSheet (story : StoryDocument) (structured : Dict Value) : Except Exc StoryDocument := do
  let rawBeats ← requiredEntries .beatSheet structured "beats"
  return { story with beats := rawBeats.mapIdx (beatOf lib) }

/-- The last place of a list that satisfies `p`: the one a dictionary built from the list keeps. -/
def lastIndex? {α : Type} (p : α → Bool) : List α → Option ℕ
  | [] => none
  | x :: xs => match lastIndex? p xs with
    | some index => some (index + 1)
    | none => if p x then some 0 else none

/-- The id of the scene in a place. -/
def sceneIdAt (index : ℕ) : String := "scene_" ++ zeroPadded 2 (index + 1)

/-- `existing_by_order.get(index)`. -/
def existingByOrder (scenes : List Scene) (order : ℤ) : Option Scene :=
  (lastIndex? (fun scene : Scene => scene.order = order) scenes).bind fun index => scenes[index]?

/-- The scene of an entry, with what the scene before it in its place had gathered. -/
def sceneOf (beatIds : List String) (previous : Option Scene) (index : ℕ) (entry : Dict Value) :
    Except Exc Scene := do
  let duration ← coerceDuration lib ((entry.get? "duration_seconds").getD .null)
  return {
    id := sceneIdAt index
    order := index
    beatId := resolveBeatId (entry.get? "beat_id") beatIds
    heading := textField lib entry "heading"
    summary := textField lib entry "summary"
    narration := .ofList (collapseWhitespace (rawField lib entry "narration").toList)
    dialogue := previous.elim [] Scene.dialogue
    imagePrompt := textField lib entry "image_prompt"
    imageNegative := textField lib entry "image_negative"
    bgmMood := textField lib entry "bgm_mood"
    durationSeconds := duration
    camera := textField lib entry "camera"
    bibleRefs := previous.elim [] Scene.bibleRefs
    assetIds := previous.elim [] Scene.assetIds
    jobIds := previous.elim [] Scene.jobIds }

/-- `_merge_scene_list`. -/
def mergeSceneList (story : StoryDocument) (structured : Dict Value) : Except Exc StoryDocument := do
  let rawScenes ← requiredEntries .sceneList structured "scenes"
  let scenes ← rawScenes.zipIdx.mapM fun item =>
    sceneOf lib (story.beats.map Beat.id) (existingByOrder story.scenes item.2) item.2 item.1
  return { story with scenes }

/-- The id of the chapter in a place. -/
def chapterIdAt (order : ℕ) : String := "chapter_" ++ zeroPadded 2 (order + 1)

/-- The chapter that takes a place. -/
def chapterAt (order : ℕ) (title prose : String) (asOf : Option String) : Chapter where
  id := chapterIdAt order
  order := order
  title := title
  proseMarkdown := prose
  wordCount := countWords text prose.toList
  continuityAsOfChapterId := asOf
  staleAfterChapterId := none

/-- The chapter to replace. One without a title matches none. -/
def existingIndex (chapters : List Chapter) (title : String) : Option ℕ :=
  chapters.findIdx? fun chapter => title ≠ "" ∧ chapter.title = title

/-- A chapter that comes after a rewritten one. -/
def flagAfter (order : ℕ) (id : String) (existing : Chapter) : Chapter :=
  if existing.order > order then { existing with staleAfterChapterId := some id } else existing

/-- The chapters with one more, or one rewritten. -/
def placeChapter (chapters : List Chapter) (title prose : String) (asOf : Option String) : List Chapter :=
  match existingIndex chapters title with
  | none => chapters ++ [chapterAt text chapters.length title prose asOf]
  | some order =>
    let chapter := chapterAt text order title prose asOf
    (chapters.map (flagAfter order chapter.id)).set order chapter

/-- `_merge_prose`. -/
def mergeProse (story : StoryDocument) (structured : Dict Value) (asOf : Option String) :
    Except Exc StoryDocument := do
  let prose := textField lib structured "prose_markdown"
  if prose = "" then throw (containsNo .prose "prose_markdown")
  return { story with chapters := placeChapter text story.chapters (textField lib structured "title") prose asOf }

/-- `structured.get("scene_id")`, if it is a text that is not empty. -/
def namedScene? (structured : Dict Value) : Option String :=
  ((structured.get? "scene_id").bind JsonOf.str?).filter fun id => id ≠ ""

/-- `structured.get("scene_index")`, if it is an integer and no boolean. -/
def sceneIndex? (structured : Dict Value) : Option ℤ := (structured.get? "scene_index").bind JsonOf.int?

/-- The place of the scene that a script is for: named, numbered, or the only one. -/
def scriptTarget (story : StoryDocument) (structured : Dict Value) : Except Exc (Option ℕ) :=
  match namedScene? structured with
  | some id => match lastIndex? (fun scene => scene.id = id) story.scenes with
    | some index => .ok (some index)
    | none =>
      let names := ", ".intercalate (story.scenes.map Scene.id).eraseDups
      .error (.value (s!"script payload targets scene '{id}', which story '{story.id}' does not have " ++
        "(" ++ (if names = "" then "no scenes" else names) ++ ")"))
  | none => match sceneIndex? structured with
    | some order => match lastIndex? (fun scene => scene.order = order) story.scenes with
      | some index => .ok (some index)
      | none =>
        .error (.value (s!"script payload targets scene_index {order}, which story '{story.id}' does not have " ++
          s!"({story.scenes.length} scenes)"))
    | none => .ok (if story.scenes.length = 1 then some 0 else none)

/-- The line of an entry. -/
def lineOf (entry : Dict Value) : DialogueLine where
  speaker := textField lib entry "speaker"
  text := textField lib entry "text"
  direction := ((entry.get? "direction").filter fun value => value ≠ .null).map fun value => strip (lib.str value)

/-- `model_dump(mode="json")` of a line. -/
def dumpLine (line : DialogueLine) : Value :=
  .obj [("speaker", .str line.speaker), ("text", .str line.text), ("direction", .ofStr? line.direction)]

/-- The story with the lines in a scene, or in its metadata for want of one. -/
def attachLines (story : StoryDocument) (target : Option ℕ) (dialogue : List DialogueLine) : StoryDocument :=
  match target with
  | some index => { story with scenes := story.scenes.modify index fun scene => { scene with dialogue } }
  | none => { story with
      metadata := story.metadata.set "unassigned_script_lines" (.arr (dialogue.map dumpLine)) }

/-- `_merge_script`. -/
def mergeScript (story : StoryDocument) (structured : Dict Value) : Except Exc StoryDocument := do
  let rawLines ← requiredEntries .script structured "lines"
  let target ← scriptTarget story structured
  return attachLines story target (rawLines.map (lineOf lib))

/-- A draft of another character. -/
def otherDraft (name : String) (draft : Dict Value) : Bool := draft.get? "name" ≠ some (.str name)

/-- `_merge_character_sheet`. -/
def mergeCharacterSheet (story : StoryDocument) (structured : Dict Value) : Except Exc StoryDocument := do
  let name := textField lib structured "name"
  if name = "" then throw (containsNo .characterSheet "name")
  let drafts ← entries story.metadata "character_drafts"
  return { story with
    metadata := story.metadata.set "character_drafts"
      (.arr ((drafts.filter (otherDraft name) ++ [structured]).map .obj)) }

/-- `_MERGERS`, and `_merge_prose`. -/
def mergeTask (story : StoryDocument) (task : Task) (structured : Dict Value) (asOf : Option String) :
    Except Exc StoryDocument :=
  match task with
  | .logline => mergeLogline lib story structured
  | .beatSheet => mergeBeatSheet lib story structured
  | .sceneList => mergeSceneList lib story structured
  | .prose => mergeProse lib text story structured asOf
  | .script => mergeScript lib story structured
  | .characterSheet => mergeCharacterSheet lib story structured

/-- The jobs that a story was written by, with one more. -/
def addSource (jobs : List JobId) (job : Option JobId) : List JobId :=
  match job with
  | some job => if job ∈ jobs then jobs else jobs ++ [job]
  | none => jobs

/-- `apply_text_result`. -/
def applyTextResult (story : StoryDocument) (task : String) (structured : Dict Value) (job : Option JobId)
    (asOf : Option String) : Except Exc StoryDocument := do
  match Task.ofName? task with
  | none => throw (.value (s!"Unsupported story task '{task}'; expected one of " ++
      ", ".intercalate (supportedTasks.map Task.name)))
  | some task =>
    let merged ← mergeTask lib text story task structured asOf
    return { merged with sourceJobIds := addSource story.sourceJobIds job }

end

/-! ## The last place that satisfies a predicate -/

section
variable {α : Type} {p : α → Bool}

theorem lastIndex?_eq_none_iff {xs : List α} : lastIndex? p xs = none ↔ ∀ x ∈ xs, ¬p x := by
  induction xs with
  | nil => simp [lastIndex?]
  | cons x xs ih =>
    rw [List.forall_mem_cons, ← ih, lastIndex?]
    cases lastIndex? p xs with
    | none => simp
    | some index => simp

theorem getElem?_of_lastIndex? {xs : List α} {index : ℕ} (h : lastIndex? p xs = some index) :
    ∃ x, xs[index]? = some x ∧ p x := by
  induction xs generalizing index with
  | nil => cases h
  | cons x xs ih =>
    rw [lastIndex?] at h
    cases hrest : lastIndex? p xs with
    | some later =>
      simp only [hrest, Option.some.injEq] at h
      subst h
      simpa using ih hrest
    | none =>
      simp only [hrest] at h
      split at h
      next hp =>
        obtain rfl := Option.some.inj h
        exact ⟨x, rfl, hp⟩
      next => cases h

/-- A place that alone satisfies the predicate is the last one. -/
theorem lastIndex?_eq_some {xs : List α} {index : ℕ} {x : α} (hx : xs[index]? = some x) (hp : p x)
    (honly : ∀ other y, xs[other]? = some y → p y → other = index) : lastIndex? p xs = some index := by
  cases h : lastIndex? p xs with
  | none => exact absurd hp (lastIndex?_eq_none_iff.mp h x (List.mem_of_getElem? hx))
  | some last =>
    obtain ⟨y, hy, hpy⟩ := getElem?_of_lastIndex? h
    rw [honly last y hy hpy]

/-- Only what the predicate says of the elements matters. -/
theorem lastIndex?_map {β : Type} (f : β → α) (xs : List β) : lastIndex? p (xs.map f) = lastIndex? (p ∘ f) xs := by
  induction xs with
  | nil => rfl
  | cons x xs ih => rw [List.map_cons, lastIndex?, lastIndex?, ih]; rfl

end

/-! ## What the mergers return -/

section
variable {lib : ValueLibrary} {text : TextLibrary} {story merged : StoryDocument} {structured : Dict Value}

theorem Task.ofName?_name (task : Task) : Task.ofName? task.name = some task := by
  cases task <;> decide

theorem requiredEntries_eq_ok {task : Task} {key : String} {found : List (Dict Value)} :
    requiredEntries task structured key = .ok found ↔ entries structured key = .ok found ∧ found ≠ [] := by
  unfold requiredEntries
  rcases entries structured key with e | all
  · exact ⟨nofun, fun h => nomatch h.1⟩
  · by_cases hall : all = []
    · subst hall
      exact ⟨nofun, fun h => absurd (Except.ok.inj h.1).symm h.2⟩
    · simp only [Bind.bind, Except.bind, if_neg hall, pure, Except.pure, Except.ok.injEq]
      constructor
      · rintro rfl
        exact ⟨rfl, hall⟩
      · exact fun h => h.1

theorem mergeLogline_eq_ok :
    mergeLogline lib story structured = .ok merged ↔
      ∃ candidates, requiredEntries .logline structured "loglines" = .ok candidates ∧
        merged = { story with
          logline := textField lib (candidates.headD []) "text"
          metadata := story.metadata.set "logline_candidates" (.arr (candidates.map .obj)) } := by
  exact bind_pure_eq_ok

theorem mergeBeatSheet_eq_ok :
    mergeBeatSheet lib story structured = .ok merged ↔
      ∃ rawBeats, requiredEntries .beatSheet structured "beats" = .ok rawBeats ∧
        merged = { story with beats := rawBeats.mapIdx (beatOf lib) } := by
  exact bind_pure_eq_ok

/-- The scenes are those of the entries, in their places. -/
theorem mergeSceneList_eq_ok :
    mergeSceneList lib story structured = .ok merged ↔
      ∃ rawScenes scenes, requiredEntries .sceneList structured "scenes" = .ok rawScenes ∧
        (rawScenes.length = scenes.length ∧ ∀ index (hraw : index < rawScenes.length) (hscene : index < scenes.length),
          sceneOf lib (story.beats.map Beat.id) (existingByOrder story.scenes index) index rawScenes[index] =
            .ok scenes[index]) ∧
        merged = { story with scenes } := by
  simp only [mergeSceneList, bind_eq_ok, pure, Except.pure, Except.ok.injEq, mapM_eq_ok_iff, List.forall₂_iff_get,
    List.length_zipIdx, List.get_eq_getElem, List.getElem_zipIdx, Nat.zero_add]
  constructor
  · rintro ⟨rawScenes, hraw, scenes, hscenes, rfl⟩
    exact ⟨rawScenes, scenes, hraw, hscenes, rfl⟩
  · rintro ⟨rawScenes, scenes, hraw, hscenes, rfl⟩
    exact ⟨rawScenes, hraw, scenes, hscenes, rfl⟩

theorem mergeProse_eq_ok {asOf : Option String} :
    mergeProse lib text story structured asOf = .ok merged ↔
      textField lib structured "prose_markdown" ≠ "" ∧
        merged = { story with
          chapters := placeChapter text story.chapters (textField lib structured "title")
            (textField lib structured "prose_markdown") asOf } := by
  unfold mergeProse
  by_cases h : textField lib structured "prose_markdown" = ""
  · simp [h, throw, throwThe, MonadExceptOf.throw, Bind.bind, Except.bind]
  · simp [h, pure, Except.pure, eq_comm]

theorem mergeScript_eq_ok :
    mergeScript lib story structured = .ok merged ↔
      ∃ rawLines target, requiredEntries .script structured "lines" = .ok rawLines ∧
        scriptTarget story structured = .ok target ∧
        merged = attachLines story target (rawLines.map (lineOf lib)) := by
  simp only [mergeScript, bind_eq_ok, pure, Except.pure, Except.ok.injEq]
  constructor
  · rintro ⟨rawLines, hraw, target, htarget, rfl⟩
    exact ⟨rawLines, target, hraw, htarget, rfl⟩
  · rintro ⟨rawLines, target, hraw, htarget, rfl⟩
    exact ⟨rawLines, hraw, target, htarget, rfl⟩

theorem mergeCharacterSheet_eq_ok :
    mergeCharacterSheet lib story structured = .ok merged ↔
      textField lib structured "name" ≠ "" ∧
        ∃ drafts, entries story.metadata "character_drafts" = .ok drafts ∧
          merged = { story with
            metadata := story.metadata.set "character_drafts"
              (.arr ((drafts.filter (otherDraft (textField lib structured "name")) ++ [structured]).map .obj)) } := by
  unfold mergeCharacterSheet
  by_cases h : textField lib structured "name" = ""
  · simp [h, throw, throwThe, MonadExceptOf.throw, Bind.bind, Except.bind]
  · simp only [h, if_false, ne_eq, not_false_iff, true_and]
    exact bind_pure_eq_ok

theorem applyTextResult_eq_ok {task : String} {job : Option JobId} {asOf : Option String} :
    applyTextResult lib text story task structured job asOf = .ok merged ↔
      ∃ named result, Task.ofName? task = some named ∧ mergeTask lib text story named structured asOf = .ok result ∧
        merged = { result with sourceJobIds := addSource story.sourceJobIds job } := by
  unfold applyTextResult
  cases hname : Task.ofName? task with
  | none => simp [throw, throwThe, MonadExceptOf.throw]
  | some named =>
    simp only [bind_eq_ok, pure, Except.pure, Except.ok.injEq, Option.some.injEq]
    constructor
    · rintro ⟨result, hresult, rfl⟩
      exact ⟨named, result, rfl, hresult, rfl⟩
    · rintro ⟨_, result, rfl, hresult, rfl⟩
      exact ⟨result, hresult, rfl⟩

end

/-- A library that prints what is no list and no dictionary, fractions apart, and reads the texts
of what is no number. -/
def smallValues : ValueLibrary where
  str
    | .null => "None"
    | .bool b => if b then "True" else "False"
    | .int n => toString n
    | .float .nan => "nan"
    | .float .posInf => "inf"
    | .float .negInf => "-inf"
    | .str s => s
    | _ => ""
  repr _ := ""
  general _ := ""
  fixed4 _ := ""
  parseFloat s :=
    if s = "nan" then some .nan else if s = "inf" then some .posInf else if s = "-inf" then some .negInf else none
  pow10 _ := none
  str_str _ := rfl

end CreativeStudio.Story
