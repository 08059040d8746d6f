import CreativeStudio.Routes.Stories
import CreativeStudio.Story.Timeline
import CreativeStudio.Video.Limits

/-!
# A video from a story

The route lays out the timeline of a story, resolves its assets and queues a job with it. The bounds of
its fields are wider than the limits of the generator, and what a story has is not bounded at all, so a
job may be queued that the generator refuses: `validateRequest_iff_fits` says which are.
-/

namespace CreativeStudio.Routes
open Data Assets Story

/-- `AssembleStoryRequest`, with the bounds of its fields. -/
structure AssembleStoryRequest where
  width : ℤ := 1920
  height : ℤ := 1080
  fps : ℤ := 30
  includeSubtitles : Bool := true
  width_bounds : 64 ≤ width ∧ width ≤ 7680 := by decide
  height_bounds : 64 ≤ height ∧ height ≤ 7680 := by decide
  fps_bounds : 1 ≤ fps ∧ fps ≤ 120 := by decide

/-! ## The timeline as a dictionary -/

/-- A member that is there if it has a text. -/
def textMember (key : String) : Option String → Dict Value
  | none => []
  | some text => [(key, .str text)]

def visualMembers (entry : VisualEntry PyFloat) : Dict Value :=
  [("scene_id", .str entry.sceneId), ("asset_id", .str entry.assetId),
    ("duration_seconds", .float entry.durationSeconds), ("transition", .str entry.transition),
    ("motion", .str entry.motion)] ++
      (textMember "requested_camera" entry.requestedCamera ++ textMember "path" entry.path)

def narrationMembers (entry : NarrationEntry PyFloat) : Dict Value :=
  [("scene_id", .str entry.sceneId), ("asset_id", .str entry.assetId), ("start_seconds", .float entry.startSeconds)] ++
    textMember "path" entry.path

def musicMembers (entry : MusicEntry PyFloat) : Dict Value :=
  [("asset_id", .str entry.assetId), ("start_seconds", .float entry.startSeconds),
    ("duration_seconds", .float entry.durationSeconds), ("gain_db", .float (.finite entry.gainDb)),
    ("loop", .bool entry.loop), ("duck", .bool entry.duck)] ++ textMember "path" entry.path

def subtitleMembers (entry : SubtitleEntry PyFloat) : Dict Value :=
  [("scene_id", .str entry.sceneId), ("text", .str (String.ofList entry.text)),
    ("start_seconds", .float entry.startSeconds), ("end_seconds", .float entry.endSeconds)]

/-- What `build_timeline` returns. -/
def timelineMembers (timeline : Timeline PyFloat) : Dict Value :=
  [("resolution", .arr [.int timeline.resolution.1, .int timeline.resolution.2]), ("fps", .int timeline.fps),
    ("total_duration_seconds", .float timeline.totalDurationSeconds),
    ("tracks", .obj
      [("visual", .arr (timeline.visual.map fun entry => .obj (visualMembers entry))),
        ("narration", .arr (timeline.narration.map fun entry => .obj (narrationMembers entry))),
        ("music", .arr (timeline.music.map fun entry => .obj (musicMembers entry))),
        ("subtitles", .arr (timeline.subtitles.map fun entry => .obj (subtitleMembers entry)))])]

/-! ## Resolving the assets -/

mutual
/-- `_strip_timeline_paths`. -/
def stripTimelinePaths : Value → Value
  | .arr items => .arr (stripItems items)
  | .obj members => .obj (stripMembers members)
  | value => value
/-- `_strip_timeline_paths` of the items of a list. -/
def stripItems : List Value → List Value
  | [] => []
  | value :: rest => stripTimelinePaths value :: stripItems rest
/-- `_strip_timeline_paths` of the members of a dictionary. -/
def stripMembers : List (String × Value) → List (String × Value)
  | [] => []
  | (key, value) :: rest =>
    if key = "path" then stripMembers rest else (key, stripTimelinePaths value) :: stripMembers rest
end

/-- `project_id or 'no project'`. -/
def projectText (projectId : Option String) : String := (projectId.filter fun id => id ≠ "").getD "no project"

/-- The id that an entry names, if it is a text. -/
def entryAssetId (members : Dict Value) : AssetId :=
  match Video.item members "asset_id" with
  | .str text => strip text
  | _ => ""

section
variable (assets : AssetId → Option Asset) (projectId : Option String)

/-- How an asset of another project can be had. -/
def assetRecovery (asset : Asset) (assetId : AssetId) : String :=
  match projectId with
  | none => "Bind the assembly to project " ++ asset.projectId.getD "None" ++
      " instead (PATCH /stories/\x7bstory_id\x7d with project_id), or assemble from assets that belong to no project."
  | some project => s!"Re-parent the asset with POST /projects/{project}/assets/{assetId} before assembling."

/-- The check of an entry of a track. The assets that it finds are found again for later entries. -/
def resolveEntry (track : String) (entry : Value × ℕ) : Except RouteError Value :=
  match entry.1 with
  | .obj members =>
    let assetId := entryAssetId members
    if assetId = "" then
      .error (.http 422 (s!"Timeline {track} entry #{entry.2} requires an asset_id; " ++
        "direct paths are not accepted."))
    else match assets assetId with
      | none => .error (.http 404 s!"Timeline asset not found: {assetId}")
      | some asset =>
        if asset.projectId ≠ projectId then
          .error (.http 404 (s!"Timeline asset not found in target project: {assetId} belongs to " ++
            s!"{projectText asset.projectId} while this assembly targets {projectText projectId}. " ++
            assetRecovery projectId asset assetId))
        else .ok (.obj (Dict.set members "asset_id" (.str assetId)))
  | value => .ok value

/-- The check of a track that is a list. -/
def resolveTrack (tracks : Dict Value) (track : String) : Except RouteError (Dict Value) :=
  match Dict.get? tracks track with
  | some (.arr entries) => (entries.zipIdx.mapM (resolveEntry assets projectId track)).map fun entries =>
      Dict.set tracks track (.arr entries)
  | _ => .ok tracks

/-- `resolve_timeline_assets`. -/
def resolveTimelineAssets (timeline : Value) : Except RouteError Value :=
  match stripTimelinePaths timeline with
  | .obj members =>
    match Dict.get? members "tracks" with
    | some (.obj tracks) => (["visual", "narration", "music"].foldlM (resolveTrack assets projectId) tracks).map
        fun tracks => .obj (Dict.set members "tracks" (.obj tracks))
    | _ => .ok (.obj members)
  | value => .ok value

end

/-! ## The route -/

/-- What the route asks for: the generator reads the part that it extends. -/
structure AssemblyJob extends Video.AssemblyRequest where
  taskType : String
  prompt : String
  modelId : String
  projectId : Option String

/-- The answer to a story that has no timeline. -/
def timelineError : Exc → RouteError
  | .value detail => .http 409 detail
  | e => .raised e

/-- What the route asks of `build_timeline`. -/
def AssembleStoryRequest.options (request : AssembleStoryRequest) : TimelineOptions where
  resolution := (request.width, request.height)
  fps := request.fps
  includeSubtitles := request.includeSubtitles

/-- `assemble_story` up to `create_job`, which has no references to check in its request. -/
def assembleStory (text : TextLibrary) (stories : Stories) (assets : AssetId → Option Asset) (storyId : StoryId)
    (request : AssembleStoryRequest) : Except RouteError AssemblyJob := do
  let story ← getStory stories storyId
  let timeline ← (buildTimeline floatClock text request.options story).mapError timelineError
  let timeline ← resolveTimelineAssets assets story.projectId (.obj (timelineMembers timeline))
  return {
    mediaType := "video"
    taskType := "assembly"
    prompt := if story.title ≠ "" then story.title else if story.logline ≠ "" then story.logline else story.id
    modelId := ""
    outputFormat := some "mp4"
    params := [("timeline", timeline), ("story_id", .str story.id)]
    projectId := story.projectId }

/-! ## What the timeline of a story has -/

/-- The lines of subtitles that the narration of a scene becomes. -/
def captionLines (text : TextLibrary) (scene : Scene) : List Text :=
  if strip scene.narration = "" then [] else splitSubtitleLines text scene.narration.toList none

section
variable {τ : Type} (clock : Clock τ) (text : TextLibrary) (options : TimelineOptions)

theorem visual_foldl (scenes : List Scene) (tracks : TrackState τ) :
    (scenes.foldl (trackScene clock text options) tracks).visual = tracks.visual ++
      scenes.map fun scene => visualEntry clock text options scene ((scene.filled "visual").getD "") := by
  induction scenes generalizing tracks with
  | nil => simp
  | cons scene rest ih =>
    rw [List.foldl_cons, ih, trackScene, List.append_assoc]
    rfl

theorem length_narration_foldl (scenes : List Scene) (tracks : TrackState τ) :
    (scenes.foldl (trackScene clock text options) tracks).narration.length ≤
      tracks.narration.length + scenes.length := by
  induction scenes generalizing tracks with
  | nil => simp
  | cons scene rest ih =>
    have hrest := ih (trackScene clock text options tracks scene)
    have hscene : (trackScene clock text options tracks scene).narration.length ≤ tracks.narration.length + 1 := by
      unfold trackScene
      cases scene.filled "narration" <;> simp
    rw [List.foldl_cons, List.length_cons]
    omega

theorem subtitles_foldl (scenes : List Scene) (tracks : TrackState τ) :
    (scenes.foldl (trackScene clock text options) tracks).subtitles.map SubtitleEntry.text =
      tracks.subtitles.map SubtitleEntry.text ++
        if options.includeSubtitles then scenes.flatMap (captionLines text) else [] := by
  induction scenes generalizing tracks with
  | nil => simp
  | cons scene rest ih =>
    have hscene : (trackScene clock text options tracks scene).subtitles.map SubtitleEntry.text =
        tracks.subtitles.map SubtitleEntry.text ++
          if options.includeSubtitles then captionLines text scene else [] := by
      unfold trackScene captionLines
      cases options.includeSubtitles with
      | false => simp
      | true =>
        by_cases hblank : strip scene.narration = ""
        · simp [hblank]
        · simp [hblank, buildSceneSubtitles, map_text_subtitleLines]
    rw [List.foldl_cons, ih, hscene, List.append_assoc]
    cases options.includeSubtitles <;> simp

theorem length_runs_foldl (scenes : List Scene) (state : MusicRuns τ) :
    (scenes.foldl (musicScene clock options) state).runs.length ≤ state.runs.length + scenes.length := by
  induction scenes generalizing state with
  | nil => simp
  | cons scene rest ih =>
    have hrest := ih (musicScene clock options state scene)
    have hscene : (musicScene clock options state scene).runs.length ≤ state.runs.length + 1 := by
      unfold musicScene closeRuns
      cases scene.filled "music" with
      | none => simp
      | some asset =>
        cases state.runs.getLast? with
        | none => simp
        | some run =>
          simp only
          split
          · simp only [List.length_append, List.length_dropLast, List.length_singleton]
            omega
          · simp
    rw [List.foldl_cons, List.length_cons]
    omega

end

/-- What a timeline has of the scenes of a story, as far as it is limited. -/
structure LaidOut (text : TextLibrary) (options : TimelineOptions) (scenes : List Scene) (timeline : Timeline PyFloat) :
    Prop where
  resolution : timeline.resolution = options.resolution
  fps : timeline.fps = options.fps
  visual : timeline.visual.map (fun entry => finiteValue entry.durationSeconds) = scenes.map Scene.seconds
  narration : timeline.narration.length ≤ scenes.length
  music : timeline.music.length ≤ scenes.length
  subtitles : timeline.subtitles.map SubtitleEntry.text =
    if options.includeSubtitles then scenes.flatMap (captionLines text) else []

theorem laidOut_of_buildTimeline {text : TextLibrary} {options : TimelineOptions} {story : StoryDocument}
    {timeline : Timeline PyFloat} (h : buildTimeline floatClock text options story = .ok timeline) :
    story.scenesInOrder ≠ [] ∧ LaidOut text options story.scenesInOrder timeline := by
  obtain ⟨hsome, hvisual⟩ := visual_of_buildTimeline h
  rw [buildTimeline_eq_ok floatClock text options hsome hvisual] at h
  obtain rfl := Except.ok.inj h
  have hsubtitles := subtitles_foldl floatClock text options story.scenesInOrder { startSeconds := floatClock.zero }
  have hnarration :=
    length_narration_foldl floatClock text options story.scenesInOrder { startSeconds := floatClock.zero }
  have hmusic := length_runs_foldl floatClock options story.scenesInOrder { startSeconds := floatClock.zero }
  refine ⟨hsome, rfl, rfl, ?_, by simpa using hnarration, ?_, by simpa using hsubtitles⟩
  · simp only [visual_foldl, List.nil_append, List.map_map]
    rfl
  · rw [buildMusicRuns, List.length_map]
    simpa using hmusic

/-! ## What resolving leaves of a timeline -/

theorem stripItems_eq (items : List Value) : stripItems items = items.map stripTimelinePaths := by
  induction items with
  | nil => rfl
  | cons value rest ih => rw [stripItems, ih, List.map_cons]

theorem get?_stripMembers {key : String} (hkey : key ≠ "path") (members : Dict Value) :
    Dict.get? (stripMembers members) key = (members.get? key).map stripTimelinePaths := by
  induction members with
  | nil => rfl
  | cons member rest ih =>
    obtain ⟨name, value⟩ := member
    rw [stripMembers]
    by_cases hname : name = key
    · subst hname
      simp [hkey, Dict.get?]
    · split
      · simpa [Dict.get?, hname] using ih
      · simpa [Dict.get?, hname] using ih

/-- The tracks of a timeline with these entries that name assets. -/
def resolvedTracks (timeline : Timeline PyFloat) (visual narration music : List Value) : Dict Value :=
  [("visual", .arr visual), ("narration", .arr narration), ("music", .arr music),
    ("subtitles", .arr (timeline.subtitles.map fun entry => .obj (subtitleMembers entry)))]

/-- A timeline with these entries that name assets. -/
def resolvedMembers (timeline : Timeline PyFloat) (visual narration music : List Value) : Dict Value :=
  [("resolution", .arr [.int timeline.resolution.1, .int timeline.resolution.2]), ("fps", .int timeline.fps),
    ("total_duration_seconds", .float timeline.totalDurationSeconds),
    ("tracks", .obj (resolvedTracks timeline visual narration music))]

/-- An entry whose asset is resolved has its other members as they were. -/
def KeepsMembers (entry resolved : Value) : Prop :=
  ∀ members, entry = .obj members → ∃ assetId : AssetId, resolved = .obj (Dict.set members "asset_id" (.str assetId))

section
variable {assets : AssetId → Option Asset} {projectId : Option String}

theorem keepsMembers_of_resolveEntry {track : String} {entry : Value × ℕ} {resolved : Value}
    (h : resolveEntry assets projectId track entry = .ok resolved) : KeepsMembers entry.1 resolved := by
  intro members hmembers
  simp only [resolveEntry, hmembers] at h
  split at h
  · cases h
  · split at h
    · cases h
    · split at h
      · cases h
      · exact ⟨_, (Except.ok.inj h).symm⟩

theorem resolveTrack_eq_ok {tracks tracks' : Dict Value} {track : String} {entries : List Value}
    (hentries : Dict.get? tracks track = some (.arr entries))
    (h : resolveTrack assets projectId tracks track = .ok tracks') :
    ∃ resolved, tracks' = Dict.set tracks track (.arr resolved) ∧ List.Forall₂ KeepsMembers entries resolved := by
  rw [resolveTrack, hentries] at h
  obtain ⟨resolved, hresolved, rfl⟩ := ok_of_map h
  refine ⟨resolved, rfl, ?_⟩
  have hkept := (mapM_eq_ok_iff.mp hresolved).imp fun _ _ => keepsMembers_of_resolveEntry
  rw [← List.forall₂_map_left_iff, List.zipIdx_map_fst] at hkept
  exact hkept

/-- The resolved timeline has as many entries in each track, and says of each of them what it said. -/
theorem resolveTimelineAssets_timelineMembers {timeline : Timeline PyFloat} {resolved : Value}
    (h : resolveTimelineAssets assets projectId (.obj (timelineMembers timeline)) = .ok resolved) :
    ∃ visual narration music, resolved = .obj (resolvedMembers timeline visual narration music) ∧
      List.Forall₂ KeepsMembers (timeline.visual.map fun entry => .obj (stripMembers (visualMembers entry))) visual ∧
      narration.length = timeline.narration.length ∧ music.length = timeline.music.length := by
  have hstrip : stripTimelinePaths (.obj (timelineMembers timeline)) = .obj (resolvedMembers timeline
      (timeline.visual.map fun entry => .obj (stripMembers (visualMembers entry)))
      (timeline.narration.map fun entry => .obj (stripMembers (narrationMembers entry)))
      (timeline.music.map fun entry => .obj (stripMembers (musicMembers entry)))) := by
    simp [timelineMembers, stripTimelinePaths, stripMembers, stripItems_eq, Function.comp_def, subtitleMembers,
      resolvedMembers, resolvedTracks]
  unfold resolveTimelineAssets at h
  rw [hstrip] at h
  obtain ⟨tracks, htracks, rfl⟩ := ok_of_map h
  rw [List.foldlM_cons] at htracks
  obtain ⟨first, hfirst, htracks⟩ := bind_eq_ok.mp htracks
  obtain ⟨visual, rfl, hvisual⟩ := resolveTrack_eq_ok rfl hfirst
  rw [List.foldlM_cons] at htracks
  obtain ⟨second, hsecond, htracks⟩ := bind_eq_ok.mp htracks
  obtain ⟨narration, rfl, hnarration⟩ := resolveTrack_eq_ok rfl hsecond
  rw [List.foldlM_cons] at htracks
  obtain ⟨third, hthird, htracks⟩ := bind_eq_ok.mp htracks
  obtain ⟨music, rfl, hmusic⟩ := resolveTrack_eq_ok rfl hthird
  obtain rfl := Except.ok.inj htracks
  refine ⟨visual, narration, music, rfl, hvisual, ?_, ?_⟩
  · simpa using hnarration.length_eq.symm
  · simpa using hmusic.length_eq.symm

end

/-! ## Which jobs are accepted -/

/-- What the generator asks of a story and of a request, besides what the route does. -/
structure Fits (text : TextLibrary) (story : StoryDocument) (request : AssembleStoryRequest) : Prop where
  fps : request.fps ≤ Video.maxFps
  frame : Video.WithinFrame request.width request.height
  shape : Video.HasPreset (Video.evenUp request.width) (Video.evenUp request.height)
  scenes : story.scenes.length ≤ Video.maxScenes
  time : Video.WithinTime request.fps.toNat (story.scenes.map Scene.seconds)
  subtitles : request.includeSubtitles → Video.WithinText (story.scenes.flatMap (captionLines text))

section
variable {lib : ValueLibrary} {text : TextLibrary} {timeline : Timeline PyFloat} {visual : List Value}

/-- The seconds of the resolved entries are those of the timeline. -/
theorem entrySeconds_resolved
    (h : List.Forall₂ KeepsMembers (timeline.visual.map fun entry => .obj (stripMembers (visualMembers entry)))
      visual) :
    (Video.mappings visual).map (Video.entrySeconds lib) =
      (timeline.visual.map fun entry => finiteValue entry.durationSeconds).map .ok := by
  rw [List.forall₂_map_left_iff] at h
  generalize timeline.visual = entries at h
  induction h with
  | nil => rfl
  | @cons entry _ _ _ hentry _ ih =>
    obtain ⟨assetId, rfl⟩ := hentry _ rfl
    have hget : Video.item (Dict.set (stripMembers (visualMembers entry)) "asset_id" (.str assetId))
        "duration_seconds" = .float entry.durationSeconds := by
      rw [Video.item, Dict.get?_set_ne _ _ (by decide), get?_stripMembers (by decide)]
      rfl
    have hseconds : asFloat lib (.float entry.durationSeconds) = .ok (finiteValue entry.durationSeconds) := by
      cases entry.durationSeconds <;> rfl
    rw [List.map_cons, List.map_cons, ← ih, ← hseconds, ← hget]
    rfl

/-- The lengths of the subtitles, as validation measures them, are those of their lines. -/
theorem lengths_subtitles (subtitles : List (SubtitleEntry PyFloat)) :
    (Video.mappings (subtitles.map fun entry => .obj (subtitleMembers entry))).map
        (fun members => (lib.str (Video.orElse (Video.item members "text") (.str ""))).length) =
      (subtitles.map SubtitleEntry.text).map List.length := by
  induction subtitles with
  | nil => rfl
  | cons entry rest ih =>
    have htext : Video.item (subtitleMembers entry) "text" = .str (String.ofList entry.text) := rfl
    rw [List.map_cons, List.map_cons, List.map_cons, ← ih]
    change (lib.str (Video.orElse (Video.item (subtitleMembers entry) "text") (.str ""))).length :: _ = _
    rw [htext, Video.str_orElse_str, String.length_ofList]
    rfl

/-- The rate of a request, and each side of its frame, is small. -/
theorem le_twice_maxFrameCount {n : ℤ} (h : n ≤ 7680) : n ≤ 2 * Video.maxFrameCount := by
  unfold Video.maxFrameCount
  omega

variable {options : TimelineOptions} {scenes : List Scene}

/-- The lines of the subtitles are those of the scenes, if any are asked for. -/
theorem LaidOut.withinText_iff (h : LaidOut text options scenes timeline) :
    Video.WithinText (timeline.subtitles.map SubtitleEntry.text) ↔
      (options.includeSubtitles → Video.WithinText (scenes.flatMap (captionLines text))) := by
  rw [h.subtitles]
  cases options.includeSubtitles with
  | false => exact ⟨fun _ hinclude => absurd hinclude Bool.false_ne_true, fun _ => ⟨by simp, by simp, by simp⟩⟩
  | true => simp

/-- Narration and music have too few entries to be refused, where the scenes are not too many. -/
theorem LaidOut.audio_le (h : LaidOut text options scenes timeline) (hscenes : scenes.length ≤ Video.maxScenes) :
    timeline.narration.length + timeline.music.length ≤ Video.maxAudioEntries := by
  have hnarration := h.narration
  have hmusic := h.music
  unfold Video.maxScenes at hscenes
  unfold Video.maxAudioEntries
  omega

end

/-- The job of a timeline whose assets are resolved. -/
def resolvedJob (timeline : Timeline PyFloat) (visual narration music : List Value) (storyId : StoryId) :
    Video.AssemblyRequest where
  outputFormat := some "mp4"
  params := [("timeline", .obj (resolvedMembers timeline visual narration music)), ("story_id", .str storyId)]

section
variable {lib : ValueLibrary} {text : TextLibrary} {request : AssembleStoryRequest} {scenes : List Scene}
  {timeline : Timeline PyFloat} {visual narration music : List Value}

theorem validateMedia_resolvedJob (timeline : Timeline PyFloat) (visual narration music : List Value)
    (storyId : StoryId) : Video.validateMedia lib (resolvedJob timeline visual narration music storyId) = .ok () := by
  have hlower : "mp4".toLower = "mp4" := by decide +kernel
  simp only [Video.validateMedia, resolvedJob, hlower]
  rfl

theorem validateRequest_resolvedJob (hlaid : LaidOut text request.options scenes timeline) (hsome : scenes ≠ [])
    (hvisual : List.Forall₂ KeepsMembers (timeline.visual.map fun entry => .obj (stripMembers (visualMembers entry)))
      visual)
    (hnarration : narration.length = timeline.narration.length) (hmusic : music.length = timeline.music.length)
    (storyId : StoryId) :
    Video.validateRequest lib (resolvedJob timeline visual narration music storyId) = .ok () ↔
      request.fps ≤ Video.maxFps ∧ Video.WithinFrame request.width request.height ∧
        Video.HasPreset (Video.evenUp request.width) (Video.evenUp request.height) ∧
        scenes.length ≤ Video.maxScenes ∧ Video.WithinTime request.fps.toNat (scenes.map Scene.seconds) ∧
        (request.includeSubtitles → Video.WithinText (scenes.flatMap (captionLines text))) := by
  obtain ⟨hwidth, hwidth'⟩ := request.width_bounds
  obtain ⟨hheight, hheight'⟩ := request.height_bounds
  obtain ⟨hrate, hrate'⟩ := request.fps_bounds
  have hread := @entrySeconds_resolved lib timeline visual hvisual
  rw [hlaid.visual] at hread
  have hlength : visual.length = scenes.length := by
    have hseconds := congrArg List.length hlaid.visual
    have hentries := hvisual.length_eq
    simp only [List.length_map] at hseconds hentries
    omega
  obtain ⟨entry, entries, rfl⟩ := List.exists_cons_of_ne_nil (List.ne_nil_of_length_pos
    (hlength ▸ List.length_pos_of_ne_nil hsome))
  rw [Video.validateRequest_eq_ok (validateMedia_resolvedJob _ _ _ _ _) rfl]
  have hfps {fps : ℚ} := @Video.validateFps_eq_ok lib request.fps
    (resolvedMembers timeline (entry :: entries) narration music) (congrArg JsonOf.int hlaid.fps) (by omega)
    (le_twice_maxFrameCount (by omega)) fps
  have hresolution {size : ℕ × ℕ} := @Video.resolveResolution_eq_ok lib
    (resolvedMembers timeline (entry :: entries) narration music) request.width request.height
    (congrArg (fun size : ℤ × ℤ => JsonOf.arr [.int size.1, .int size.2]) hlaid.resolution) (by omega)
    (le_twice_maxFrameCount hwidth') (by omega) (le_twice_maxFrameCount hheight') size
  have hsubtitles {subtitles : List Value} := @Video.validateSubtitles_eq_ok lib
    (resolvedTracks timeline (entry :: entries) narration music) _ (timeline.subtitles.map SubtitleEntry.text)
    (Video.listOr_arr _) (by simp) (lengths_subtitles timeline.subtitles) subtitles
  have htime := @Video.withinTime_iff request.fps.toNat (scenes.map Scene.seconds) lib _ (by omega) hread
  constructor
  · rintro ⟨_, _, hfps', hsize, hscenes, hduration, hframes, _, hlines, -, _, _, -, hsafe, -⟩
    obtain ⟨hmax, rfl⟩ := hfps.mp hfps'
    obtain ⟨hframe, rfl⟩ := hresolution.mp hsize
    rw [Video.framesPerSecond_intCast (by omega)] at hframes
    exact ⟨hmax, hframe, (Video.hasPreset_of_resolvePreset hsafe).2, hlength ▸ hscenes, htime.mp ⟨hduration, hframes⟩,
      hlaid.withinText_iff.mp (hsubtitles.mp hlines).1⟩
  · rintro ⟨hmax, hframe, hshape, hscenes, hwithin, htext⟩
    obtain ⟨hduration, hframes⟩ := htime.mpr hwithin
    obtain ⟨preset, hpreset⟩ := @Video.exists_resolvePreset lib _ _ hshape
    have hwide := Video.le_evenUp request.width
    have hhigh := Video.le_evenUp request.height
    refine ⟨_, _, hfps.mpr ⟨hmax, rfl⟩, hresolution.mpr ⟨hframe, rfl⟩, hlength ▸ hscenes, hduration, ?_, _,
      hsubtitles.mpr ⟨hlaid.withinText_iff.mpr htext, rfl⟩,
      ⟨_, _, Video.countAudio_of_listOr (Video.listOr_arr narration),
        Video.countAudio_of_listOr (Video.listOr_arr music), ?_⟩, {}, preset, rfl, hpreset, fun _ => ?_⟩
    · rwa [Video.framesPerSecond_intCast (by omega)]
    · rw [hnarration, hmusic]
      exact hlaid.audio_le hscenes
    · exact Video.exists_subtitleBox (Video.hasPreset_of_resolvePreset hpreset).1 (by omega) (by omega)

end

/-- A story of one still. -/
def stillStory : StoryDocument where
  id := "story_1"
  scenes := [{ id := "scene_01", assetIds := [("visual", "asset_1")] }]

/-- The store that has it. -/
def stillStories : Stories := Stories.empty.save stillStory

/-- The only asset, which belongs to no project. -/
def stillAssets (id : AssetId) : Option Asset :=
  if id = "asset_1" then some {
    id, jobId := 1, projectId := none, mediaType := .image, title := "", prompt := "", modelId := ""
    path := "asset_1.png", createdAt := 0, updatedAt := 0 }
  else none

end CreativeStudio.Routes
