import CreativeStudio.Story.Timeline
import CreativeStudio.Video.Render

/-!
# Video against timeline

The timeline adds durations up and rounds the sums to milliseconds. The renderer rounds the
duration of each clip to frames on its own, and what it rounds off adds up from clip to clip.
-/

namespace CreativeStudio.Video
open Data Story

/-! ## From the timeline to the clips -/

/-- An entry as the assembly job gets it. -/
def toValue (entry : VisualEntry ℚ) : Value :=
  .obj ([("scene_id", .str entry.sceneId), ("asset_id", .str entry.assetId),
      ("duration_seconds", .float (.finite entry.durationSeconds)), ("transition", .str entry.transition),
      ("motion", .str entry.motion)] ++
    (entry.requestedCamera.map fun camera => ("requested_camera", .str camera)).toList ++
    (entry.path.map fun path => ("path", .str path)).toList)

/-- The frame that a clip begins at. -/
def firstFrame {σ : Type} (clips : List (Clip σ)) (index : ℕ) : ℕ := ((clips.take index).map Clip.frameCount).sum

/-- The time at which the timeline starts a scene. -/
def startSeconds (scenes : List Scene) (index : ℕ) : ℚ := roundMillis (totalSeconds (scenes.take index))

/-- Every clip begins within one frame of the start of its scene, and the video ends within one
frame of the timeline. -/
structure InSync {σ ι φ : Type} (renderer : Renderer σ ι φ) (fps : ℕ) (scenes : List Scene) (timeline : Timeline ℚ)
    (clips : List (Clip σ)) : Prop where
  begins : ∀ index < clips.length, |(firstFrame clips index : ℚ) - fps * startSeconds scenes index| ≤ 1
  ends : |((iterFrames renderer fps [] clips).length : ℚ) - fps * timeline.totalDurationSeconds| ≤ 1

/-- What rounding the duration of a scene to frames adds to it. -/
def frameError (fps : ℕ) (scene : Scene) : ℚ :=
  (max 1 (roundHalfEven (scene.seconds * fps)) : ℤ) - scene.seconds * fps

/-- What rounding a start to milliseconds adds to it. -/
def startError (scenes : List Scene) : ℚ := roundMillis (totalSeconds scenes) - totalSeconds scenes

/-- The errors of the scenes up to any one of them, and of all, add up to one frame at most. -/
def Steady (fps : ℕ) (scenes : List Scene) : Prop :=
  ∀ index ≤ scenes.length,
    |((scenes.take index).map (frameError fps)).sum - fps * startError (scenes.take index)| ≤ 1

instance (fps : ℕ) (scenes : List Scene) : Decidable (Steady fps scenes) :=
  inferInstanceAs (Decidable (∀ index ≤ scenes.length, _))

section
variable {σ ι φ : Type} {renderer : Renderer σ ι φ} {fps : ℕ} {scenes : List Scene}

/-- From the frame that a clip begins at, the video is the one of the clips from there on. -/
theorem drop_iterFrames (renderer : Renderer σ ι φ) (fps : ℕ) (clips : List (Clip σ)) (index : ℕ) :
    (iterFrames renderer fps [] clips).drop (firstFrame clips index) = iterFrames renderer fps [] (clips.drop index) := by
  rw [iterFrames_eq_delivered, iterFrames_eq_delivered]
  induction index generalizing clips with
  | zero => rfl
  | succ index ih =>
    cases clips with
    | nil => rfl
    | cons clip rest =>
      have hfirst : firstFrame (clip :: rest) (index + 1) = clip.frameCount + firstFrame rest index := by
        simp [firstFrame]
      have hdrop : (delivered renderer fps (clip :: rest)).drop clip.frameCount = delivered renderer fps rest :=
        List.drop_left' (length_deliveredClip clip rest)
      rw [hfirst, ← List.drop_drop, hdrop, ih, List.drop_succ_cons]

theorem sum_frameError (fps : ℕ) (scenes : List Scene) :
    (scenes.map (frameError fps)).sum =
      ((scenes.map fun scene => max 1 (roundHalfEven (scene.seconds * fps))).sum : ℤ) - totalSeconds scenes * fps := by
  induction scenes with
  | nil => simp [totalSeconds]
  | cons scene rest ih =>
    have htotal : totalSeconds (scene :: rest) = scene.seconds + totalSeconds rest := rfl
    rw [List.map_cons, List.map_cons, List.sum_cons, List.sum_cons, ih, htotal, frameError]
    push_cast
    ring

/-- The clips have the frames of the durations of their scenes. -/
theorem map_frameCount {lib : ValueLibrary} {text : TextLibrary} {host : AssemblyHost} {generator : AssemblyGenerator}
    {visual : List (VisualEntry ℚ)} {clips : List (Clip String)}
    (hvisual : visual.map VisualEntry.durationSeconds = scenes.map Scene.seconds)
    (h : buildClips lib text host generator fps (visual.map toValue) = .ok clips) :
    clips.map Clip.frameCount = scenes.map fun scene => (max 1 (roundHalfEven (scene.seconds * fps))).toNat := by
  have hmap : (mappings (visual.map toValue)).map (seconds lib) = visual.map VisualEntry.durationSeconds := by
    clear h hvisual
    induction visual with
    | nil => rfl
    | cons entry rest ih =>
      rw [List.map_cons, List.map_cons, ← ih]
      rfl
  have hframes : (fun members => (clipFrames lib fps members).toNat) =
      (fun duration : ℚ => (max 1 (roundHalfEven (duration * fps))).toNat) ∘ seconds lib := rfl
  rw [map_frameCount_of_buildClips h, hframes, ← List.map_map, hmap, hvisual, List.map_map]
  rfl

/-- The frame that a clip begins at, against the time of its scene. -/
theorem firstFrame_sub {clips : List (Clip String)} (index : ℕ)
    (h : clips.map Clip.frameCount = scenes.map fun scene => (max 1 (roundHalfEven (scene.seconds * fps))).toNat) :
    (firstFrame clips index : ℚ) - fps * startSeconds scenes index =
      ((scenes.take index).map (frameError fps)).sum - fps * startError (scenes.take index) := by
  have hsum : (firstFrame clips index : ℤ) =
      ((scenes.take index).map fun scene => max 1 (roundHalfEven (scene.seconds * fps))).sum := by
    rw [firstFrame, List.map_take, h, ← List.map_take, Nat.cast_list_sum, List.map_map]
    refine congrArg List.sum (List.map_congr_left fun scene _ => ?_)
    exact Int.toNat_of_nonneg (zero_le_one.trans (le_max_left ..))
  rw [sum_frameError, ← hsum, Int.cast_natCast, startError, startSeconds]
  ring

/-- The frames of the clips before any scene are off the timeline by what the errors up to that
scene add up to. -/
theorem steady_iff_inSync {lib : ValueLibrary} {text : TextLibrary} {host : AssemblyHost}
    {generator : AssemblyGenerator} {options : TimelineOptions} {story : StoryDocument} {timeline : Timeline ℚ}
    {clips : List (Clip String)} (renderer : Renderer String ι φ)
    (htimeline : buildTimeline millisecondClock text options story = .ok timeline)
    (hclips : buildClips lib text host generator fps (timeline.visual.map toValue) = .ok clips) :
    Steady fps story.scenesInOrder ↔ InSync renderer fps story.scenesInOrder timeline clips := by
  obtain ⟨hscenes, hvisual⟩ := visual_of_buildTimeline htimeline
  have htracks := trackInvariant_foldl roundMillis text options hvisual
  obtain rfl := Except.ok.inj ((buildTimeline_eq_ok millisecondClock text options hscenes hvisual).symm.trans htimeline)
  have hdurations := congrArg (List.map fun entry : String × Option _ × ℚ => entry.2.2) htracks.visual
  rw [List.map_map, List.map_map] at hdurations
  have hframes := map_frameCount hdurations hclips
  have hlength : clips.length = story.scenesInOrder.length := by
    simpa using congrArg List.length hframes
  have htake : story.scenesInOrder.take story.scenesInOrder.length = story.scenesInOrder := List.take_length
  have hall : firstFrame clips story.scenesInOrder.length = (iterFrames renderer fps [] clips).length := by
    rw [iterFrames_eq_delivered, length_delivered, firstFrame, ← hlength, List.take_length]
  have htotal : startSeconds story.scenesInOrder story.scenesInOrder.length =
      roundMillis
        (story.scenesInOrder.foldl (trackScene millisecondClock text options) { startSeconds := 0 }).startSeconds := by
    rw [startSeconds, htake]
    exact congrArg roundMillis htracks.start.symm
  refine ⟨fun h => ⟨fun index hindex => ?_, ?_⟩, fun h index hindex => ?_⟩
  · rw [firstFrame_sub index hframes]
    exact h index (hlength ▸ hindex.le)
  · have hend := h story.scenesInOrder.length le_rfl
    rw [← firstFrame_sub _ hframes, hall, htotal] at hend
    exact hend
  · rw [← firstFrame_sub index hframes]
    rcases Nat.lt_or_eq_of_le hindex with hlt | rfl
    · exact h.begins index (hlength ▸ hlt)
    · rw [hall, htotal]
      exact h.ends

end

/-! ## Three scenes of a quarter of a second over four -/

/-- A story of stills that last as long. -/
def stillStory (durations : List ℚ) : StoryDocument where
  id := "story_1"
  scenes := durations.zipIdx.map fun item =>
    { id := s!"scene_{item.2}", order := item.2, durationSeconds := .finite item.1
      assetIds := [("visual", s!"asset_{item.2}")] }

/-- The clips of such a story at 30 frames per second. -/
def stillClips (durations : List ℚ) : Except Exc (List (Clip String)) := do
  let timeline ← buildTimeline millisecondClock plainLibrary {} (stillStory durations)
  buildClips plainValues plainLibrary plainHost plainGenerator 30 (timeline.visual.map toValue)

theorem exists_stillClips {durations : List ℚ} (h : (stillClips durations).toOption.isSome) :
    ∃ timeline clips, buildTimeline millisecondClock plainLibrary {} (stillStory durations) = .ok timeline ∧
      buildClips plainValues plainLibrary plainHost plainGenerator 30 (timeline.visual.map toValue) = .ok clips := by
  obtain ⟨clips, hclips⟩ := Option.isSome_iff_exists.mp h
  obtain ⟨timeline, htimeline, hclips⟩ := bind_eq_ok.mp (ok_of_toOption hclips)
  exact ⟨timeline, clips, htimeline, hclips⟩

end CreativeStudio.Video
