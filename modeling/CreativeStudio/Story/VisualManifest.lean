import CreativeStudio.Prompting.Composer
import CreativeStudio.Story.Schemas

/-!
# The visual requests of a story

A manifest has one request for each scene, with everything that was resolved for it: what the scene
was composed to, and the bible entries that went into it. It says what to do in an order of its own, so
that the order in which a story lists its scenes makes no difference.
-/

namespace CreativeStudio.Story
open Data Prompting

/-- A resolved bible entry, as it was when a scene was composed. -/
structure BibleSnapshotRef where
  bibleId : String
  kind : BibleKind
  name : String
  version : String
  bibleId_ne : bibleId ≠ ""
  version_ne : version ≠ ""
  deriving DecidableEq, Repr

/-- One visual-generation request derived from one scene. -/
structure SceneVisualRequest where
  id : String
  storyId : StoryId
  sceneId : String
  order : ℤ
  prompt : String
  negativePrompt : Option String := none
  visualIntent : String := ""
  durationSeconds : PyFloat := .finite 4
  aspectRatio : String := "16:9"
  characterRefs : List String := []
  locationRefs : List String := []
  styleRefs : List String := []
  bibleSnapshot : List BibleSnapshotRef := []
  referenceAssetIds : List String := []
  seed : Option ℤ := none
  conflicts : List String := []
  deriving DecidableEq, Repr

/-- `x >= 0`, which does not hold of NaN. -/
def nonneg : PyFloat → Bool
  | .finite q => 0 ≤ q
  | .posInf => true
  | .nan | .negInf => false

namespace SceneVisualRequest

/-- The constraints on the fields. -/
structure Valid (request : SceneVisualRequest) : Prop where
  id : request.id ≠ ""
  storyId : request.storyId ≠ ""
  sceneId : request.sceneId ≠ ""
  order : 0 ≤ request.order
  duration : nonneg request.durationSeconds

theorem valid_iff {request : SceneVisualRequest} :
    request.Valid ↔ (request.id ≠ "" ∧ request.storyId ≠ "" ∧ request.sceneId ≠ "") ∧
      0 ≤ request.order ∧ nonneg request.durationSeconds :=
  ⟨fun h => ⟨⟨h.id, h.storyId, h.sceneId⟩, h.order, h.duration⟩, fun h => ⟨h.1.1, h.1.2.1, h.1.2.2, h.2.1, h.2.2⟩⟩

instance (request : SceneVisualRequest) : Decidable request.Valid := decidable_of_iff _ valid_iff.symm

/-- The request, if its fields are as they have to be. -/
def create (request : SceneVisualRequest) : Except Exc SceneVisualRequest :=
  if request.Valid then .ok request else .error (.value s!"{request.sceneId}: invalid visual request")

theorem create_eq_ok {request created : SceneVisualRequest} :
    request.create = .ok created ↔ request.Valid ∧ created = request := by
  unfold create
  split
  next h => simp [h, eq_comm]
  next h => simp [h]

/-- Requests by order, and by id where the order is the same. -/
def Before (a b : SceneVisualRequest) : Prop := a.order < b.order ∨ a.order = b.order ∧ a.id ≤ b.id

instance : DecidableRel Before := fun _ _ => inferInstanceAs (Decidable (_ ∨ _))

instance : Std.Total Before where
  total a b := by
    rcases lt_trichotomy a.order b.order with h | h | h
    · exact .inl (.inl h)
    · exact (le_total a.id b.id).imp (fun hid => .inr ⟨h, hid⟩) fun hid => .inr ⟨h.symm, hid⟩
    · exact .inr (.inl h)

instance : IsTrans SceneVisualRequest Before where
  trans a b c := by
    rintro (hab | ⟨hab, hid⟩) (hbc | ⟨hbc, hid'⟩)
    · exact .inl (hab.trans hbc)
    · exact .inl (hbc ▸ hab)
    · exact .inl (hab ▸ hbc)
    · exact .inr ⟨hab.trans hbc, hid.trans hid'⟩

theorem Before.id_eq {a b : SceneVisualRequest} (h : a.Before b) (h' : b.Before a) : a.id = b.id := by
  rcases h with h | ⟨h, hid⟩
  · rcases h' with h' | ⟨h', -⟩ <;> omega
  · rcases h' with h' | ⟨-, hid'⟩
    · omega
    · exact le_antisymm hid hid'

end SceneVisualRequest

/-! ## Manifests -/

/-- The loop of `_validate_requests`, with the scenes and the ids seen before. -/
def checkRequests (storyId : StoryId) : List String → List String → List SceneVisualRequest → Except Exc Unit
  | _, _, [] => .ok ()
  | scenes, ids, request :: rest =>
    if request.storyId ≠ storyId then .error (.value <|
      s!"visual request '{request.id}' has story_id '{request.storyId}', which does not match manifest " ++
        s!"story_id '{storyId}'; a manifest may only carry requests for the story it was built from.")
    else if request.sceneId ∈ scenes then .error (.value <|
      s!"scene '{request.sceneId}' has more than one visual request in this manifest; every request must " ++
        "trace back to exactly one source scene.")
    else if request.id ∈ ids then .error (.value <|
      s!"duplicate visual request id '{request.id}'; request ids must be unique within a manifest.")
    else checkRequests storyId (request.sceneId :: scenes) (request.id :: ids) rest

/-- What the loop of `_validate_requests` is for. -/
structure Coherent (storyId : StoryId) (requests : List SceneVisualRequest) : Prop where
  story_eq : ∀ request ∈ requests, request.storyId = storyId
  scenes_nodup : (requests.map SceneVisualRequest.sceneId).Nodup
  ids_nodup : (requests.map SceneVisualRequest.id).Nodup

/-- The visual requests of one story, checked. -/
structure SceneVisualManifest where
  storyId : StoryId
  requests : List SceneVisualRequest
  storyId_ne : storyId ≠ ""
  checked : checkRequests storyId [] [] requests = .ok ()

section
variable {storyId : StoryId} {scenes ids : List String} {requests : List SceneVisualRequest}

theorem checkRequests_eq_ok : checkRequests storyId scenes ids requests = .ok () ↔
    Coherent storyId requests ∧ ∀ request ∈ requests, request.sceneId ∉ scenes ∧ request.id ∉ ids := by
  induction requests generalizing scenes ids with
  | nil => simp [checkRequests, show Coherent storyId [] from ⟨by simp, by simp, by simp⟩]
  | cons request rest ih =>
    have hcons : Coherent storyId (request :: rest) ↔ (request.storyId = storyId ∧
        ∀ other ∈ rest, other.sceneId ≠ request.sceneId ∧ other.id ≠ request.id) ∧ Coherent storyId rest := by
      constructor
      · rintro ⟨hstory, hscenes, hids⟩
        simp only [List.map_cons, List.nodup_cons, List.mem_map, not_exists, not_and] at hscenes hids
        rw [List.forall_mem_cons] at hstory
        exact ⟨⟨hstory.1, fun other hother => ⟨hscenes.1 other hother, hids.1 other hother⟩⟩,
          hstory.2, hscenes.2, hids.2⟩
      · rintro ⟨⟨hfirst, hother⟩, hrest⟩
        refine ⟨List.forall_mem_cons.mpr ⟨hfirst, hrest.story_eq⟩, ?_, ?_⟩
        · simpa using ⟨fun other hmem => (hother other hmem).1, hrest.scenes_nodup⟩
        · simpa using ⟨fun other hmem => (hother other hmem).2, hrest.ids_nodup⟩
    rw [checkRequests, hcons, List.forall_mem_cons]
    split
    next h => simp [h]
    next hstory =>
      split
      next h => simp [h]
      next hscene =>
        split
        next h => simp [h]
        next hid =>
          rw [ih]
          simp only [List.mem_cons, not_or, not_not.mp hstory, hscene, hid, not_false_eq_true, true_and, and_self]
          grind

end

namespace SceneVisualManifest

/-- `SceneVisualManifest(...)`. -/
def create (storyId : StoryId) (requests : List SceneVisualRequest) : Except Exc SceneVisualManifest :=
  if hstory : storyId ≠ "" then
    match h : checkRequests storyId [] [] requests with
    | .error e => .error e
    | .ok () => .ok ⟨storyId, requests, hstory, h⟩
  else .error (.value "story_id: String should have at least 1 character")

/-- `requests_in_order`. -/
def requestsInOrder (manifest : SceneVisualManifest) : List SceneVisualRequest :=
  manifest.requests.insertionSort SceneVisualRequest.Before

theorem coherent (manifest : SceneVisualManifest) : Coherent manifest.storyId manifest.requests :=
  (checkRequests_eq_ok.mp manifest.checked).1

theorem create_eq_ok {storyId : StoryId} {requests : List SceneVisualRequest} {manifest : SceneVisualManifest} :
    create storyId requests = .ok manifest ↔
      (storyId ≠ "" ∧ Coherent storyId requests) ∧ manifest.storyId = storyId ∧ manifest.requests = requests := by
  constructor
  · intro h
    unfold create at h
    split at h
    next hstory =>
      split at h
      next => cases h
      next hchecked =>
        cases h
        exact ⟨⟨hstory, (checkRequests_eq_ok.mp hchecked).1⟩, rfl, rfl⟩
    next => cases h
  · rintro ⟨⟨hstory, hcoherent⟩, rfl, rfl⟩
    unfold create
    rw [dif_pos hstory]
    split
    next e he =>
      rw [manifest.checked] at he
      cases he
    next => rfl

theorem mem_requestsInOrder {manifest : SceneVisualManifest} {request : SceneVisualRequest} :
    request ∈ manifest.requestsInOrder ↔ request ∈ manifest.requests :=
  (List.perm_insertionSort _ _).mem_iff

/-- The same requests are gone through in the same order. -/
theorem requestsInOrder_congr {a b : SceneVisualManifest} (h : a.requests.Perm b.requests) :
    a.requestsInOrder = b.requestsInOrder := by
  have hperm : a.requestsInOrder.Perm b.requestsInOrder :=
    (List.perm_insertionSort _ _).trans (h.trans (List.perm_insertionSort _ _).symm)
  refine hperm.eq_of_pairwise ?_ (List.pairwise_insertionSort _ _) (List.pairwise_insertionSort _ _)
  intro x y hx hy hxy hyx
  have hx := mem_requestsInOrder.mp hx
  have hy := h.mem_iff.mpr (mem_requestsInOrder.mp hy)
  exact List.inj_on_of_nodup_map a.coherent.ids_nodup hx hy (hxy.id_eq hyx)

end SceneVisualManifest

/-! ## Building it -/

/-- What the visual requests of a story are made from: the digest of an id, and what was resolved before,
by scene. -/
structure VisualInputs where
  /-- The first 24 digits of `hashlib.sha1`. -/
  digest : String → String
  composedPrompts : Dict ComposedPrompt
  bibleSnapshots : Dict (List BibleSnapshotRef) := []
  visualIntents : Dict String := []
  aspectRatio : String := "16:9"

namespace VisualInputs
variable (inputs : VisualInputs)

/-- `_visual_request_id`. -/
def visualRequestId (storyId : StoryId) (sceneId : String) : String :=
  "visreq_" ++ inputs.digest (storyId ++ ":" ++ sceneId)

/-- The ids of the snapshots of a kind. -/
def refsOf (kind : BibleKind) (snapshot : List BibleSnapshotRef) : List String :=
  (snapshot.filter fun ref => ref.kind = kind).map BibleSnapshotRef.bibleId

/-- The request of a scene that was composed. -/
def requestOf (storyId : StoryId) (scene : Scene) (composed : ComposedPrompt) : SceneVisualRequest :=
  let snapshot := (inputs.bibleSnapshots.get? scene.id).getD []
  { id := inputs.visualRequestId storyId scene.id, storyId, sceneId := scene.id, order := scene.order
    prompt := composed.prompt, negativePrompt := composed.negativePrompt
    visualIntent := (inputs.visualIntents.get? scene.id).getD ""
    durationSeconds := scene.durationSeconds, aspectRatio := inputs.aspectRatio
    characterRefs := refsOf .character snapshot, locationRefs := refsOf .location snapshot
    styleRefs := refsOf .style snapshot, bibleSnapshot := snapshot
    referenceAssetIds := composed.referenceAssetIds, seed := composed.seed, conflicts := composed.conflicts }

/-- The body of the loop of `build_visual_manifest`. -/
def sceneRequest (storyId : StoryId) (scene : Scene) : Except Exc SceneVisualRequest :=
  match inputs.composedPrompts.get? scene.id with
  | none => .error (.value <| s!"scene '{scene.id}' in story '{storyId}' has no composed prompt; every scene " ++
      "must be composed before it can enter the visual manifest")
  | some composed => (inputs.requestOf storyId scene composed).create

/-- `build_visual_manifest`. -/
def buildVisualManifest (story : StoryDocument) : Except Exc SceneVisualManifest := do
  let requests ← story.scenesInOrder.mapM (inputs.sceneRequest story.id)
  SceneVisualManifest.create story.id requests

/-- The scenes can all be requested, each under an id of its own. -/
structure Requestable (story : StoryDocument) : Prop where
  story_ne : story.id ≠ ""
  composed : ∀ scene ∈ story.scenes, (inputs.composedPrompts.get? scene.id).isSome
  scene_ne : ∀ scene ∈ story.scenes, scene.id ≠ ""
  order : ∀ scene ∈ story.scenes, 0 ≤ scene.order
  duration : ∀ scene ∈ story.scenes, nonneg scene.durationSeconds
  ids_nodup : (story.scenes.map fun scene => inputs.visualRequestId story.id scene.id).Nodup

variable {inputs} {story : StoryDocument} {scene : Scene}

theorem visualRequestId_ne (storyId : StoryId) (sceneId : String) : inputs.visualRequestId storyId sceneId ≠ "" := by
  intro h
  have hlength := congrArg String.length h
  simp [visualRequestId] at hlength

theorem sceneRequest_eq_ok {storyId : StoryId} {request : SceneVisualRequest} :
    inputs.sceneRequest storyId scene = .ok request ↔
      ∃ composed, inputs.composedPrompts.get? scene.id = some composed ∧
        (inputs.requestOf storyId scene composed).Valid ∧ request = inputs.requestOf storyId scene composed := by
  unfold sceneRequest
  cases hcomposed : inputs.composedPrompts.get? scene.id with
  | none => simp
  | some composed => simp [SceneVisualRequest.create_eq_ok]

theorem exists_sceneRequest_iff {storyId : StoryId} : (∃ request, inputs.sceneRequest storyId scene = .ok request) ↔
    (inputs.composedPrompts.get? scene.id).isSome ∧ storyId ≠ "" ∧ scene.id ≠ "" ∧ 0 ≤ scene.order ∧
      nonneg scene.durationSeconds := by
  simp only [sceneRequest_eq_ok, SceneVisualRequest.valid_iff, Option.isSome_iff_exists]
  constructor
  · rintro ⟨request, composed, hcomposed, ⟨⟨-, hstory, hscene⟩, horder, hduration⟩, -⟩
    exact ⟨⟨composed, hcomposed⟩, hstory, hscene, horder, hduration⟩
  · rintro ⟨⟨composed, hcomposed⟩, hstory, hscene, horder, hduration⟩
    have hid : (inputs.requestOf storyId scene composed).id ≠ "" := visualRequestId_ne storyId scene.id
    exact ⟨_, composed, hcomposed, ⟨⟨hid, hstory, hscene⟩, horder, hduration⟩, rfl⟩

/-- The request of a scene names it. -/
theorem named_of_sceneRequest {storyId : StoryId} {request : SceneVisualRequest}
    (h : inputs.sceneRequest storyId scene = .ok request) : request.storyId = storyId ∧ request.sceneId = scene.id ∧
      request.id = inputs.visualRequestId storyId scene.id ∧ request.order = scene.order := by
  obtain ⟨composed, -, -, rfl⟩ := sceneRequest_eq_ok.mp h
  exact ⟨rfl, rfl, rfl, rfl⟩

/-- What a story is built to has the requests of its scenes. -/
theorem buildVisualManifest_eq_ok {manifest : SceneVisualManifest} :
    inputs.buildVisualManifest story = .ok manifest ↔
      (story.id ≠ "" ∧ Coherent story.id manifest.requests) ∧ manifest.storyId = story.id ∧
        List.Forall₂ (fun scene request => inputs.sceneRequest story.id scene = .ok request) story.scenesInOrder
          manifest.requests := by
  simp only [buildVisualManifest, bind_eq_ok, mapM_eq_ok_iff, SceneVisualManifest.create_eq_ok]
  constructor
  · rintro ⟨requests, hrequests, hcoherent, hid, rfl⟩
    exact ⟨hcoherent, hid, hrequests⟩
  · rintro ⟨hcoherent, hid, hrequests⟩
    exact ⟨_, hrequests, hcoherent, hid, rfl⟩

/-- The requests are named after the scenes. -/
theorem names_of_built {storyId : StoryId} {scenes : List Scene} {requests : List SceneVisualRequest}
    (h : List.Forall₂ (fun scene request => inputs.sceneRequest storyId scene = .ok request) scenes requests) :
    (∀ request ∈ requests, request.storyId = storyId) ∧
      requests.map SceneVisualRequest.sceneId = scenes.map Scene.id ∧
      requests.map SceneVisualRequest.id = scenes.map fun scene => inputs.visualRequestId storyId scene.id := by
  induction h with
  | nil => simp
  | cons hfirst _ ih =>
    obtain ⟨hstory, hscene, hid, -⟩ := named_of_sceneRequest hfirst
    refine ⟨List.forall_mem_cons.mpr ⟨hstory, ih.1⟩, ?_, ?_⟩
    · rw [List.map_cons, List.map_cons, hscene, ih.2.1]
    · rw [List.map_cons, List.map_cons, hid, ih.2.2]

/-- Distinct ids come from distinct scenes. -/
theorem coherent_of_built {storyId : StoryId} {scenes : List Scene} {requests : List SceneVisualRequest}
    (h : List.Forall₂ (fun scene request => inputs.sceneRequest storyId scene = .ok request) scenes requests) :
    Coherent storyId requests ↔ (scenes.map fun scene => inputs.visualRequestId storyId scene.id).Nodup := by
  obtain ⟨hstory, hscenes, hids⟩ := names_of_built h
  constructor
  · intro hcoherent
    exact hids ▸ hcoherent.ids_nodup
  · intro hnodup
    have hmap : scenes.map (fun scene => inputs.visualRequestId storyId scene.id) =
        (scenes.map Scene.id).map (inputs.visualRequestId storyId) := by rw [List.map_map]; rfl
    refine ⟨hstory, ?_, hids ▸ hnodup⟩
    rw [hscenes]
    rw [hmap] at hnodup
    exact hnodup.of_map _

/-- A manifest is built for the stories that can be requested. -/
theorem exists_buildVisualManifest_iff :
    (∃ manifest, inputs.buildVisualManifest story = .ok manifest) ↔ inputs.Requestable story := by
  have hperm := perm_scenesInOrder story
  have hnodup : (story.scenesInOrder.map fun scene => inputs.visualRequestId story.id scene.id).Nodup ↔
      (story.scenes.map fun scene => inputs.visualRequestId story.id scene.id).Nodup := (hperm.map _).nodup_iff
  have hmapM : (∃ requests, story.scenesInOrder.mapM (inputs.sceneRequest story.id) = .ok requests) ↔
      ∀ scene ∈ story.scenes, (inputs.composedPrompts.get? scene.id).isSome ∧ story.id ≠ "" ∧ scene.id ≠ "" ∧
        0 ≤ scene.order ∧ nonneg scene.durationSeconds := by
    simp only [exists_mapM_ok_iff, exists_sceneRequest_iff, hperm.mem_iff]
  constructor
  · rintro ⟨manifest, h⟩
    obtain ⟨⟨hstory, hcoherent⟩, -, hbuilt⟩ := buildVisualManifest_eq_ok.mp h
    have hscenes := hmapM.mp ⟨_, mapM_eq_ok_iff.mpr hbuilt⟩
    exact ⟨hstory, fun scene hscene => (hscenes scene hscene).1, fun scene hscene => (hscenes scene hscene).2.2.1,
      fun scene hscene => (hscenes scene hscene).2.2.2.1, fun scene hscene => (hscenes scene hscene).2.2.2.2,
      hnodup.mp ((coherent_of_built hbuilt).mp hcoherent)⟩
  · intro h
    obtain ⟨requests, hrequests⟩ := hmapM.mpr fun scene hscene =>
      ⟨h.composed scene hscene, h.story_ne, h.scene_ne scene hscene, h.order scene hscene, h.duration scene hscene⟩
    have hbuilt := mapM_eq_ok_iff.mp hrequests
    have hcoherent := (coherent_of_built hbuilt).mpr (hnodup.mpr h.ids_nodup)
    have hchecked : checkRequests story.id [] [] requests = .ok () := by simp [checkRequests_eq_ok, hcoherent]
    exact ⟨⟨story.id, requests, h.story_ne, hchecked⟩,
      buildVisualManifest_eq_ok.mpr ⟨⟨h.story_ne, hcoherent⟩, rfl, hbuilt⟩⟩

end VisualInputs

/-- **The order of the scenes in the document makes no difference.** A manifest is built for the stories
that can be requested, and what it says to do first does not depend on how the story lists its scenes. -/
theorem requestsInOrder_of_perm {inputs : VisualInputs} {story story' : StoryDocument} (hid : story'.id = story.id)
    (hscenes : story.scenes.Perm story'.scenes) :
    (inputs.Requestable story ↔ ∃ manifest, inputs.buildVisualManifest story = .ok manifest) ∧
      ∀ manifest, inputs.buildVisualManifest story = .ok manifest →
        (manifest.requestsInOrder.map SceneVisualRequest.sceneId).Perm (story.scenes.map Scene.id) ∧
        manifest.requestsInOrder.Pairwise SceneVisualRequest.Before ∧
        ∃ manifest', inputs.buildVisualManifest story' = .ok manifest' ∧
          manifest'.requestsInOrder = manifest.requestsInOrder := by
  refine ⟨VisualInputs.exists_buildVisualManifest_iff.symm, fun manifest h => ?_⟩
  obtain ⟨⟨hstory, hcoherent⟩, -, hbuilt⟩ := VisualInputs.buildVisualManifest_eq_ok.mp h
  have hrequests : manifest.requestsInOrder.Perm manifest.requests := List.perm_insertionSort _ _
  refine ⟨?_, List.pairwise_insertionSort _ _, ?_⟩
  · refine (hrequests.map _).trans ?_
    rw [(VisualInputs.names_of_built hbuilt).2.1]
    exact (perm_scenesInOrder story).map _
  · have hperm : story'.scenesInOrder.Perm story.scenesInOrder :=
      (perm_scenesInOrder story').trans (hscenes.symm.trans (perm_scenesInOrder story).symm)
    -- the scenes of the other story make the same requests, in another order
    obtain ⟨requests, hbuilt', hsame⟩ := List.perm_comp_forall₂ hperm hbuilt
    have hcoherent' : Coherent story.id requests :=
      (VisualInputs.coherent_of_built hbuilt').mpr
        (((hperm.map _).nodup_iff).mpr ((VisualInputs.coherent_of_built hbuilt).mp hcoherent))
    rw [← hid] at hstory hcoherent' hbuilt'
    have hchecked : checkRequests story'.id [] [] requests = .ok () := by simp [checkRequests_eq_ok, hcoherent']
    exact ⟨⟨story'.id, requests, hstory, hchecked⟩,
      VisualInputs.buildVisualManifest_eq_ok.mpr ⟨⟨hstory, hcoherent'⟩, rfl, hbuilt'⟩,
      SceneVisualManifest.requestsInOrder_congr hsame⟩

/-- A scene and its prompt. -/
def composedScene (id : String) : String × ComposedPrompt := (id, {
  prompt := id, negativePrompt := none, seed := none, lora := none, referenceAssetIds := []
  resolvedReferences := [], palette := [], attributes := [], applied := [], conflicts := [] })

/-- Two scenes at the same place of a story. -/
def twinStory : StoryDocument where
  id := "story"
  scenes := [{ id := "b" }, { id := "a" }]

/-- Every id is its own digest. -/
def twinInputs : VisualInputs where
  digest := id
  composedPrompts := [composedScene "a", composedScene "b"]

theorem requestsInOrder_twinStory : ∃ manifest manifest',
    twinInputs.buildVisualManifest twinStory = .ok manifest ∧
    twinInputs.buildVisualManifest { twinStory with scenes := twinStory.scenes.reverse } = .ok manifest' ∧
    manifest'.requestsInOrder = manifest.requestsInOrder := by
  have h := @requestsInOrder_of_perm twinInputs twinStory { twinStory with scenes := twinStory.scenes.reverse } rfl
    (List.reverse_perm _).symm
  obtain ⟨manifest, hmanifest⟩ := h.1.mp ⟨by decide, by decide, by decide, by decide, by decide, by decide⟩
  obtain ⟨-, -, manifest', hmanifest', hsame⟩ := h.2 manifest hmanifest
  exact ⟨manifest, manifest', hmanifest, hmanifest', hsame⟩

example : (twinInputs.buildVisualManifest twinStory).toOption.map
    (fun manifest => manifest.requestsInOrder.map SceneVisualRequest.sceneId) = some ["a", "b"] := by decide +kernel

end CreativeStudio.Story
