import CreativeStudio.Assets.Repository
import CreativeStudio.Data.Floats
import CreativeStudio.Storage.Database

/-!
# Stories and their scenes

A scene has one slot for each role. What fills it is the id of an asset, and the scene
remembers the jobs that were bound to it.
-/

namespace CreativeStudio.Story
open Data Assets Storage

/-- The name of a story file. -/
abbrev StoryId := String

/-- `SCENE_ASSET_ROLES`. -/
def sceneAssetRoles : List String := ["visual", "narration", "music"]

/-- `Beat`. -/
structure Beat where
  id : String
  act : String
  purpose : String
  summary : String
  order : ℤ
  deriving DecidableEq, Repr

/-- `DialogueLine`. -/
structure DialogueLine where
  speaker : String
  text : String
  direction : Option String := none
  deriving DecidableEq, Repr

/-- `Scene`. -/
structure Scene where
  id : String
  order : ℤ := 0
  beatId : Option String := none
  heading : String := ""
  summary : String := ""
  narration : String := ""
  dialogue : List DialogueLine := []
  imagePrompt : String := ""
  imageNegative : String := ""
  bgmMood : String := ""
  durationSeconds : PyFloat := .finite 4
  camera : String := ""
  bibleRefs : List String := []
  assetIds : Dict AssetId := []
  jobIds : List JobId := []
  deriving DecidableEq, Repr

/-- `Chapter`. -/
structure Chapter where
  id : String
  order : ℤ
  title : String := ""
  proseMarkdown : String := ""
  wordCount : ℕ := 0
  continuityAsOfChapterId : Option String := none
  staleAfterChapterId : Option String := none
  deriving DecidableEq, Repr

/-- `StoryDocument`, without the time it was created at. -/
structure StoryDocument where
  id : StoryId
  title : String := ""
  projectId : Option String := none
  logline : String := ""
  premise : String := ""
  genre : String := ""
  tone : String := ""
  audience : String := ""
  language : String := "ja"
  format : String := "short-video"
  structureName : String := "three-act"
  characters : List String := []
  beats : List Beat := []
  scenes : List Scene := []
  chapters : List Chapter := []
  sourceJobIds : List JobId := []
  metadata : Dict Value := []
  updatedAt : ℕ := 0
  deriving DecidableEq, Repr

/-- The asset in the slot of a role. -/
def Scene.slot (scene : Scene) (role : String) : Option AssetId := scene.assetIds.get? role

/-- `scenes_in_order`. -/
def StoryDocument.scenesInOrder (story : StoryDocument) : List Scene :=
  story.scenes.insertionSort fun a b => a.order ≤ b.order

theorem perm_scenesInOrder (story : StoryDocument) : story.scenesInOrder.Perm story.scenes :=
  List.perm_insertionSort _ _

theorem mem_scenesInOrder {story : StoryDocument} {scene : Scene} :
    scene ∈ story.scenesInOrder ↔ scene ∈ story.scenes :=
  (perm_scenesInOrder story).mem_iff

/-- The story files. A file is named after its story; one may hold what does not
validate. -/
structure Stories where
  files : AList fun _ : StoryId => Column StoryDocument
  named : ∀ id story, files.lookup id = some (.value story) → story.id = id

namespace Stories

/-- What the file of a story holds. -/
def file? (stories : Stories) (id : StoryId) : Option (Column StoryDocument) :=
  stories.files.lookup id

/-- `StoryRepository.get`. -/
def get? (stories : Stories) (id : StoryId) : Option StoryDocument :=
  (stories.file? id).bind Column.get?

/-- No story. -/
def empty : Stories := ⟨∅, fun id story h => by simp at h⟩

/-- `_save`. -/
def save (stories : Stories) (story : StoryDocument) : Stories where
  files := stories.files.insert story.id (.value story)
  named id story' h := by
    by_cases hid : id = story.id
    · subst hid
      rw [AList.lookup_insert] at h
      obtain rfl : story = story' := by simpa using h
      rfl
    · rw [AList.lookup_insert_ne hid] at h
      exact stories.named id story' h

theorem file?_save_self (stories : Stories) (story : StoryDocument) :
    (stories.save story).file? story.id = some (.value story) := AList.lookup_insert _

theorem file?_save_of_ne (stories : Stories) (story : StoryDocument) {id : StoryId}
    (h : id ≠ story.id) : (stories.save story).file? id = stories.file? id :=
  AList.lookup_insert_ne h

theorem get?_eq_some {stories : Stories} {id : StoryId} {story : StoryDocument} :
    stories.get? id = some story ↔ stories.file? id = some (.value story) := by
  unfold get?
  rcases stories.file? id with _ | (story' | _) <;> simp [Column.get?]

theorem get?_save {stories : Stories} {story : StoryDocument} {id : StoryId} (h : story.id = id) :
    (stories.save story).get? id = some story := by
  subst h
  exact get?_eq_some.mpr (stories.file?_save_self story)

theorem id_of_get? {stories : Stories} {id : StoryId} {story : StoryDocument}
    (h : stories.get? id = some story) : story.id = id :=
  stories.named id story (get?_eq_some.mp h)

end Stories

end CreativeStudio.Story
