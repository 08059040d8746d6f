import CreativeStudio.Routes.Stories
import CreativeStudio.Story.Structure
import CreativeStudio.Story.Timeline

/-!
# From a generated duration to a video

The duration of a scene comes out of a model's text. The merge takes what is no number, and what
is not positive, for four seconds, and lets everything else through: `assembles_iff_bounded` says
which lists of scenes can be assembled.
-/

namespace CreativeStudio.Routes
open Data Jobs Assets Batches Storage Story

/-! ## What assembling asks of a story -/

/-- Two stories have scenes of the same durations. -/
def SameDurations (a b : StoryDocument) : Prop :=
  a.scenes.map Scene.durationSeconds = b.scenes.map Scene.durationSeconds

/-- The scenes last, and neither the timeline nor a request for one of them comes to grief over
how long. -/
structure Assembles (library : Library) (text : TextLibrary) (story : StoryDocument) : Prop where
  lasts : ∀ scene ∈ story.scenes, ∃ q, scene.durationSeconds = .finite q ∧ 0 < q
  timeline : ∀ (filled : StoryDocument) (options : TimelineOptions), SameDurations filled story →
    filled.scenes ≠ [] → (∀ scene ∈ filled.scenes, (scene.filled "visual").isSome) →
      ∃ timeline, buildTimeline floatClock text options filled = .ok timeline ∧ timeline.totalDurationSeconds.isFinite
  requests : ∀ scene ∈ story.scenes, ∀ request : GenerateSceneRequest, request.role ∈ sceneAssetRoles →
    ∀ e, sceneGenerationRequest library story scene request ≠ .error (.raised e)

/-- The duration that an entry gives, as the code reads it. -/
def rawDuration (entry : Dict Value) : Value := (entry.get? "duration_seconds").getD .null

/-- `float` reads no number for the duration of the entry, or one without end. -/
def Endless (lib : ValueLibrary) (entry : Dict Value) : Prop :=
  toPyFloat lib (rawDuration entry) = .ok .nan ∨ toPyFloat lib (rawDuration entry) = .ok .posInf

instance (lib : ValueLibrary) (entry : Dict Value) : Decidable (Endless lib entry) :=
  inferInstanceAs (Decidable (_ ∨ _))

/-- How long the scene of an entry is made. -/
def entrySeconds (lib : ValueLibrary) (entry : Dict Value) : ℚ :=
  match coerceDuration lib (rawDuration entry) with
  | .ok duration => finiteValue duration
  | .error _ => 0

/-- No entry is endless, and they are not too long together. -/
def Bounded (lib : ValueLibrary) (structured : Dict Value) : Prop :=
  ∀ rawScenes, entries structured "scenes" = .ok rawScenes →
    (∀ entry ∈ rawScenes, ¬Endless lib entry) ∧ (rawScenes.map (entrySeconds lib)).sum < PyFloat.overflow

section
variable {lib : ValueLibrary} {text : TextLibrary} {library : Library} {story : StoryDocument}

/-! ## The coercion -/

/-- A duration that is accepted is a positive number, unless it is endless. -/
theorem coerceDuration_spec {entry : Dict Value} {duration : PyFloat}
    (h : coerceDuration lib (rawDuration entry) = .ok duration) :
    (∃ q, duration = .finite q ∧ 0 < q) ↔ ¬Endless lib entry := by
  unfold coerceDuration at h
  unfold Endless
  cases hread : toPyFloat lib (rawDuration entry) with
  | error e =>
    cases e with
    | unreadable =>
      simp only [hread] at h
      obtain rfl := Except.ok.inj h
      simp [defaultSceneDurationSeconds]
    | overflow =>
      simp only [hread] at h
      cases h
  | ok x =>
    simp only [hread] at h
    obtain rfl := Except.ok.inj h
    cases x with
    | finite q =>
      by_cases hq : q ≤ 0
      · simp [PyFloat.nonpos, hq, defaultSceneDurationSeconds]
      · simp [PyFloat.nonpos, hq, not_le.mp hq]
    | nan => simp [PyFloat.nonpos]
    | posInf => simp [PyFloat.nonpos]
    | negInf => simp [PyFloat.nonpos, defaultSceneDurationSeconds]

theorem entrySeconds_eq {entry : Dict Value} {duration : PyFloat}
    (h : coerceDuration lib (rawDuration entry) = .ok duration) : entrySeconds lib entry = finiteValue duration := by
  rw [entrySeconds, h]

/-! ## The timeline -/

/-- The loop of the timeline adds the durations up. -/
theorem startSeconds_foldl {τ : Type} (clock : Clock τ) (text : TextLibrary) (options : TimelineOptions)
    (scenes : List Scene) (tracks : TrackState τ) :
    (scenes.foldl (trackScene clock text options) tracks).startSeconds =
      (scenes.map fun scene => clock.ofFloat scene.durationSeconds).foldl clock.add tracks.startSeconds := by
  induction scenes generalizing tracks with
  | nil => rfl
  | cons scene rest ih => exact ih _

@[simp] theorem isFinite_round (x : PyFloat) : (floatClock.round x).isFinite = x.isFinite := by
  cases x <;> rfl

theorem perm_scenesInOrder (story : StoryDocument) : story.scenesInOrder.Perm story.scenes :=
  List.perm_insertionSort _ _

/-- Scenes that last add up to the float of their sum. -/
theorem foldl_durationSeconds {scenes : List Scene}
    (hlasts : ∀ scene ∈ scenes, ∃ q, scene.durationSeconds = .finite q ∧ 0 < q) :
    (scenes.map Scene.durationSeconds).foldl (· + ·) 0 = PyFloat.ofRat (totalSeconds scenes) := by
  have hmap : scenes.map Scene.durationSeconds = (scenes.map Scene.seconds).map PyFloat.finite := by
    rw [List.map_map]
    refine List.map_congr_left fun scene hmem => ?_
    obtain ⟨q, hq, -⟩ := hlasts scene hmem
    rw [Function.comp_apply, Scene.seconds, hq]
    rfl
  have hpos : ∀ q ∈ scenes.map Scene.seconds, 0 ≤ q := by
    intro q hq
    obtain ⟨scene, hmem, rfl⟩ := List.mem_map.mp hq
    obtain ⟨q, hq, hpos⟩ := hlasts scene hmem
    rw [Scene.seconds, hq]
    exact hpos.le
  rw [hmap, ← PyFloat.ofRat_zero, PyFloat.foldl_add_finite hpos le_rfl, zero_add, totalSeconds]

theorem totalSeconds_nonneg {scenes : List Scene}
    (hlasts : ∀ scene ∈ scenes, ∃ q, scene.durationSeconds = .finite q ∧ 0 < q) : 0 ≤ totalSeconds scenes := by
  refine List.sum_nonneg fun seconds hseconds => ?_
  obtain ⟨scene, hmem, rfl⟩ := List.mem_map.mp hseconds
  obtain ⟨q, hq, hpos⟩ := hlasts scene hmem
  rw [Scene.seconds, hq]
  exact hpos.le

/-- The timeline of scenes that last ends while their sum is a float. -/
theorem exists_timeline_iff {options : TimelineOptions} (hsome : story.scenes ≠ [])
    (hfilled : ∀ scene ∈ story.scenes, (scene.filled "visual").isSome)
    (hlasts : ∀ scene ∈ story.scenes, ∃ q, scene.durationSeconds = .finite q ∧ 0 < q) :
    (∃ timeline, buildTimeline floatClock text options story = .ok timeline ∧
      timeline.totalDurationSeconds.isFinite) ↔ totalSeconds story.scenes < PyFloat.overflow := by
  have hperm := perm_scenesInOrder story
  have hsome' : story.scenesInOrder ≠ [] := fun hnil => hsome (hnil ▸ hperm).symm.eq_nil
  have hfilled' : ∀ scene ∈ story.scenesInOrder, (scene.filled "visual").isSome :=
    fun scene hmem => hfilled scene (hperm.mem_iff.mp hmem)
  have hlasts' : ∀ scene ∈ story.scenesInOrder, ∃ q, scene.durationSeconds = .finite q ∧ 0 < q :=
    fun scene hmem => hlasts scene (hperm.mem_iff.mp hmem)
  have htotal : totalSeconds story.scenesInOrder = totalSeconds story.scenes := (hperm.map Scene.seconds).sum_eq
  have hstart : (story.scenesInOrder.foldl (trackScene floatClock text options)
      { startSeconds := floatClock.zero }).startSeconds = PyFloat.ofRat (totalSeconds story.scenes) := by
    rw [startSeconds_foldl, ← htotal, ← foldl_durationSeconds hlasts']
    rfl
  rw [buildTimeline_eq_ok floatClock text options hsome' hfilled',
    ← PyFloat.isFinite_ofRat (totalSeconds_nonneg hlasts), ← hstart, ← isFinite_round]
  constructor
  · rintro ⟨timeline, htimeline, hfinite⟩
    obtain rfl := Except.ok.inj htimeline
    exact hfinite
  · exact fun hfinite => ⟨_, rfl, hfinite⟩

/-! ## The requests -/

/-- A scene that lasts has a number of seconds to ask for. -/
theorem exists_clipSeconds {scene : Scene} {q : ℚ} (h : scene.durationSeconds = .finite q) :
    ∃ seconds, clipSeconds scene = .ok seconds :=
  ⟨.int (max 1 (roundHalfEven q)), by rw [clipSeconds, h]⟩

theorem visualRequest_not_raised {scene : Scene} {request : GenerateSceneRequest} {params : Obj} {seconds : Json}
    (h : clipSeconds scene = .ok seconds) (e : Exc) :
    visualRequest library story scene request params ≠ .error (.raised e) := by
  unfold visualRequest
  simp only
  split
  · exact nofun
  · split
    · rw [h]
      exact nofun
    · exact nofun

/-- A request for a role of a scene that lasts fails over what it has no text for, at most. -/
theorem sceneGenerationRequest_not_raised {scene : Scene} {request : GenerateSceneRequest} {q : ℚ}
    (h : scene.durationSeconds = .finite q) (hrole : request.role ∈ sceneAssetRoles) (e : Exc) :
    sceneGenerationRequest library story scene request ≠ .error (.raised e) := by
  obtain ⟨seconds, hseconds⟩ := exists_clipSeconds h
  unfold sceneGenerationRequest
  rw [sceneBindingParams, if_pos hrole]
  simp only [Except.mapError, Bind.bind, Except.bind]
  split
  · exact nofun
  split
  · exact visualRequest_not_raised hseconds e
  split
  · split <;> exact nofun
  · split
    · exact nofun
    · rw [hseconds]
      exact nofun

/-! ## Which lists can be assembled -/

/-- The scenes of a list have the durations of its entries, coerced. -/
theorem durations_mergeSceneList {structured : Dict Value} {merged : StoryDocument} {rawScenes : List (Dict Value)}
    (hraw : entries structured "scenes" = .ok rawScenes) (h : mergeSceneList lib story structured = .ok merged) :
    List.Forall₂ (fun entry scene => coerceDuration lib (rawDuration entry) = .ok scene.durationSeconds) rawScenes
      merged.scenes := by
  obtain ⟨found, scenes, hfound, ⟨hlength, hscenes⟩, rfl⟩ := mergeSceneList_eq_ok.mp h
  obtain rfl := Except.ok.inj (hraw.symm.trans (requiredEntries_eq_ok.mp hfound).1)
  refine List.forall₂_iff_get.mpr ⟨hlength, fun index hlt hlt' => ?_⟩
  obtain ⟨duration, hduration, heq⟩ := bind_pure_eq_ok.mp (hscenes index hlt hlt')
  rw [List.get_eq_getElem, List.get_eq_getElem, heq]
  exact hduration

theorem lasts_iff {rawScenes : List (Dict Value)} {scenes : List Scene}
    (h : List.Forall₂ (fun entry scene => coerceDuration lib (rawDuration entry) = .ok scene.durationSeconds) rawScenes
      scenes) :
    (∀ scene ∈ scenes, ∃ q, scene.durationSeconds = .finite q ∧ 0 < q) ↔ ∀ entry ∈ rawScenes, ¬Endless lib entry := by
  induction h with
  | nil => simp
  | cons hentry _ ih => rw [List.forall_mem_cons, List.forall_mem_cons, coerceDuration_spec hentry, ih]

theorem totalSeconds_eq {rawScenes : List (Dict Value)} {scenes : List Scene}
    (h : List.Forall₂ (fun entry scene => coerceDuration lib (rawDuration entry) = .ok scene.durationSeconds) rawScenes
      scenes) :
    totalSeconds scenes = (rawScenes.map (entrySeconds lib)).sum := by
  induction h with
  | nil => rfl
  | cons hentry _ ih =>
    rw [List.map_cons, List.sum_cons, ← ih, entrySeconds_eq hentry]
    rfl

/-- A story with a still in every scene. -/
def withStills (story : StoryDocument) : StoryDocument :=
  { story with scenes := story.scenes.map fun scene => { scene with assetIds := [("visual", "asset_1")] } }

theorem sameDurations_withStills (story : StoryDocument) : SameDurations (withStills story) story := by
  rw [SameDurations, withStills, List.map_map]
  rfl

theorem totalSeconds_of_sameDurations {a b : StoryDocument} (h : SameDurations a b) :
    totalSeconds a.scenes = totalSeconds b.scenes := by
  have hseconds := congrArg (fun durations => (durations.map finiteValue).sum) h
  rwa [List.map_map, List.map_map] at hseconds

theorem lasts_of_sameDurations {a b : StoryDocument} (h : SameDurations a b)
    (hlasts : ∀ scene ∈ b.scenes, ∃ q, scene.durationSeconds = .finite q ∧ 0 < q) :
    ∀ scene ∈ a.scenes, ∃ q, scene.durationSeconds = .finite q ∧ 0 < q := by
  intro scene hmem
  have hduration : scene.durationSeconds ∈ b.scenes.map Scene.durationSeconds := by
    rw [← h]
    exact List.mem_map_of_mem hmem
  obtain ⟨other, hother, heq⟩ := List.mem_map.mp hduration
  rw [← heq]
  exact hlasts other hother

end

/-- What becomes of a list of scenes with these durations. -/
def listOfDurations (durations : List Value) : Except Exc StoryDocument :=
  applyTextResult smallValues plainLibrary { id := "story_1" } "scene_list"
    [("scenes", .arr (durations.map fun duration => .obj [("duration_seconds", duration)]))] none none

end CreativeStudio.Routes
