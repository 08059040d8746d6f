import CreativeStudio.Story.Schemas
import CreativeStudio.Story.TextUtils
import CreativeStudio.Schemas.Errors
import Mathlib.Data.List.SplitBy
import Mathlib.Tactic.Linarith
import Mathlib.Tactic.Positivity
import Mathlib.Tactic.Ring

/-!
# The timeline of a story

Four tracks are laid out over the scenes in order, each with a clock of its own: a still or
clip for every scene, the narration, one entry of music for each run of scenes that share it,
and subtitles whose lines share the time of their scene by length.

The clocks are parameters: `exactClock` has exact times, `millisecondClock` rounds what an
entry says to milliseconds, and `floatClock` has the range of floats.
-/

namespace CreativeStudio.Story
open Data Assets

/-- The arithmetic of a timeline. -/
structure Clock (τ : Type) where
  /-- `float(scene.duration_seconds)`. -/
  ofFloat : PyFloat → τ
  zero : τ
  add : τ → τ → τ
  /-- `duration * (count / total)`. -/
  share : τ → ℕ → ℕ → τ
  /-- `round(time, 3)`. -/
  round : τ → τ

/-- `round(time, 3)` of an exact number. -/
def roundMillis (time : ℚ) : ℚ := roundHalfEven (time * 1000) / 1000

/-- The number a finite float is. -/
def finiteValue : PyFloat → ℚ
  | .finite q => q
  | _ => 0

/-- Exact times, rounded where the timeline says them. -/
def roundedClock (round : ℚ → ℚ) : Clock ℚ where
  ofFloat := finiteValue
  zero := 0
  add := (· + ·)
  share duration count total := duration * (count / total)
  round

/-- Exact times that are not rounded. -/
def exactClock : Clock ℚ := roundedClock id

/-- Exact times, rounded to milliseconds. -/
def millisecondClock : Clock ℚ := roundedClock roundMillis

/-- Times with the range of floats. -/
def floatClock : Clock PyFloat where
  ofFloat := id
  zero := 0
  add := (· + ·)
  share duration count total := match duration with
    | .finite q => .ofRat (q * (count / total))
    | x => x
  round
    | .finite q => .finite (roundMillis q)
    | x => x

/-! ## Camera motions -/

/-- `SUPPORTED_MOTIONS`. -/
def supportedMotions : List String := ["none", "ken_burns_in", "ken_burns_out", "pan_left", "pan_right"]

/-- `_MOTION_ALIASES`. -/
def motionAliases : Dict String :=
  [("push in", "ken_burns_in"), ("pushin", "ken_burns_in"), ("slow push in", "ken_burns_in"),
    ("zoom in", "ken_burns_in"), ("dolly in", "ken_burns_in"), ("pull out", "ken_burns_out"),
    ("pull back", "ken_burns_out"), ("zoom out", "ken_burns_out"), ("dolly out", "ken_burns_out"),
    ("pan left", "pan_left"), ("truck left", "pan_left"), ("pan right", "pan_right"), ("truck right", "pan_right"),
    ("static", "none"), ("still", "none"), ("locked off", "none"), ("fixed", "none")]

/-- `normalize_motion`. -/
def normalizeMotion (lib : TextLibrary) (rawCamera defaultMotion : String) : String × Bool :=
  let text := lib.lower (strip rawCamera)
  if text = "" then (defaultMotion, false)
  else if text ∈ supportedMotions then (text, false)
  else
    let spaced := text.toList.map fun c => if c = '_' ∨ c = '-' then ' ' else c
    let words := (splitWords spaced).map String.ofList
    if "_".intercalate words ∈ supportedMotions then ("_".intercalate words, true)
    else match motionAliases.get? (" ".intercalate words) with
      | some aliased => (aliased, true)
      | none => (defaultMotion, true)

/-! ## The tracks -/

structure VisualEntry (τ : Type) where
  sceneId : String
  assetId : AssetId
  durationSeconds : τ
  transition : String
  motion : String
  requestedCamera : Option String
  path : Option String
  deriving DecidableEq, Repr

structure NarrationEntry (τ : Type) where
  sceneId : String
  assetId : AssetId
  startSeconds : τ
  path : Option String
  deriving DecidableEq, Repr

structure MusicEntry (τ : Type) where
  assetId : AssetId
  startSeconds : τ
  durationSeconds : τ
  gainDb : ℚ
  loop : Bool
  duck : Bool
  path : Option String
  deriving DecidableEq, Repr

structure SubtitleEntry (τ : Type) where
  sceneId : String
  text : Text
  startSeconds : τ
  endSeconds : τ
  deriving DecidableEq, Repr

structure Timeline (τ : Type) where
  resolution : ℤ × ℤ
  fps : ℤ
  totalDurationSeconds : τ
  visual : List (VisualEntry τ)
  narration : List (NarrationEntry τ)
  music : List (MusicEntry τ)
  subtitles : List (SubtitleEntry τ)
  deriving DecidableEq, Repr

/-- The keyword arguments of `build_timeline`. -/
structure TimelineOptions where
  resolution : ℤ × ℤ := (1920, 1080)
  fps : ℤ := 30
  assetPathLookup : Option (AssetId → Option String) := none
  defaultMotion : String := "ken_burns_in"
  transition : String := "crossfade"
  includeSubtitles : Bool := true
  musicGainDb : ℚ := -14

/-- The asset in a slot, if there is one: an empty id is none. -/
def Scene.filled (scene : Scene) (role : String) : Option AssetId := (scene.slot role).filter fun asset => asset ≠ ""

/-- The path that `_with_path` adds to an entry. -/
def withPath (options : TimelineOptions) (asset : AssetId) : Option String :=
  (options.assetPathLookup.bind fun lookup => lookup asset).filter fun path => path ≠ ""

section
variable {τ : Type} (clock : Clock τ) (lib : TextLibrary) (options : TimelineOptions)

/-- The loop of `_build_scene_subtitles`, from the line at `cursor` on. -/
def subtitleLines (scene : Scene) (start : τ) (totalCharacters : ℕ) (cursor : τ) : List Text → List (SubtitleEntry τ)
  | [] => []
  | line :: rest =>
    let duration := clock.ofFloat scene.durationSeconds
    let stop := if rest = [] then clock.add start duration
      else clock.add cursor (clock.share duration line.length totalCharacters)
    { sceneId := scene.id, text := line, startSeconds := clock.round cursor, endSeconds := clock.round stop } ::
      subtitleLines scene start totalCharacters stop rest

/-- `_build_scene_subtitles`. -/
def buildSceneSubtitles (scene : Scene) (start : τ) : List (SubtitleEntry τ) :=
  let lines := splitSubtitleLines lib scene.narration.toList none
  subtitleLines clock scene start (lines.map List.length).sum start lines

/-- The variables of the loop of `build_timeline`. -/
structure TrackState (τ : Type) where
  startSeconds : τ
  visual : List (VisualEntry τ) := []
  narration : List (NarrationEntry τ) := []
  subtitles : List (SubtitleEntry τ) := []

/-- The entry of a scene on the visual track. -/
def visualEntry (scene : Scene) (asset : AssetId) : VisualEntry τ :=
  let motion := normalizeMotion lib scene.camera options.defaultMotion
  { sceneId := scene.id, assetId := asset, durationSeconds := clock.ofFloat scene.durationSeconds
    transition := options.transition, motion := motion.1
    requestedCamera := if motion.2 then some scene.camera else none, path := withPath options asset }

/-- The body of the loop of `build_timeline`. -/
def trackScene (tracks : TrackState τ) (scene : Scene) : TrackState τ where
  -- every scene has a visual asset here
  visual := tracks.visual ++ [visualEntry clock lib options scene ((scene.filled "visual").getD "")]
  narration := match scene.filled "narration" with
    | some asset => tracks.narration ++
      [{ sceneId := scene.id, assetId := asset, startSeconds := clock.round tracks.startSeconds,
         path := withPath options asset }]
    | none => tracks.narration
  subtitles := if options.includeSubtitles ∧ strip scene.narration ≠ "" then
      tracks.subtitles ++ buildSceneSubtitles clock lib scene tracks.startSeconds
    else tracks.subtitles
  startSeconds := clock.add tracks.startSeconds (clock.ofFloat scene.durationSeconds)

/-- A run of music and its `_open` flag. -/
structure MusicRun (τ : Type) where
  entry : MusicEntry τ
  isOpen : Bool

/-- The variables of the loop of `_build_music_runs`. -/
structure MusicRuns (τ : Type) where
  startSeconds : τ
  runs : List (MusicRun τ) := []

def closeRuns (runs : List (MusicRun τ)) : List (MusicRun τ) := runs.map fun run => { run with isOpen := false }

/-- A run that begins with a scene. -/
def newRun (start : τ) (scene : Scene) (asset : AssetId) : MusicRun τ where
  entry := { assetId := asset, startSeconds := clock.round start
             durationSeconds := clock.round (clock.ofFloat scene.durationSeconds)
             gainDb := options.musicGainDb, loop := true, duck := true, path := withPath options asset }
  isOpen := true

/-- A run that goes on with a scene. -/
def MusicRun.extend (run : MusicRun τ) (scene : Scene) : MusicRun τ :=
  { run with
    entry := { run.entry with
      durationSeconds := clock.round (clock.add run.entry.durationSeconds (clock.ofFloat scene.durationSeconds)) } }

/-- The body of the loop of `_build_music_runs`. -/
def musicScene (state : MusicRuns τ) (scene : Scene) : MusicRuns τ where
  startSeconds := clock.add state.startSeconds (clock.ofFloat scene.durationSeconds)
  runs := match scene.filled "music" with
    | none => closeRuns state.runs
    | some asset =>
      match state.runs.getLast? with
      | some run =>
        if run.entry.assetId = asset ∧ run.isOpen then state.runs.dropLast ++ [run.extend clock scene]
        else closeRuns state.runs ++ [newRun clock options state.startSeconds scene asset]
      | none => closeRuns state.runs ++ [newRun clock options state.startSeconds scene asset]

/-- `_build_music_runs`. -/
def buildMusicRuns (scenes : List Scene) : List (MusicEntry τ) :=
  ((scenes.foldl (musicScene clock options) { startSeconds := clock.zero }).runs).map MusicRun.entry

/-- `build_timeline`. -/
def buildTimeline (story : StoryDocument) : Except Exc (Timeline τ) :=
  let scenes := story.scenesInOrder
  if scenes = [] then .error (.value s!"Story '{story.id}' has no scenes to assemble.")
  else
    let withoutVisual := scenes.filter fun scene => scene.filled "visual" = none
    if withoutVisual ≠ [] then
      .error (.value ("Cannot build a timeline: scenes are missing a visual asset: " ++
        ", ".intercalate (withoutVisual.map Scene.id)))
    else
      let tracks := scenes.foldl (trackScene clock lib options) { startSeconds := clock.zero }
      .ok {
        resolution := options.resolution
        fps := options.fps
        totalDurationSeconds := clock.round tracks.startSeconds
        visual := tracks.visual
        narration := tracks.narration
        music := buildMusicRuns clock options scenes
        subtitles := tracks.subtitles }

end

/-! ## Where the scenes are -/

/-- How long a scene lasts. -/
def Scene.seconds (scene : Scene) : ℚ := finiteValue scene.durationSeconds

/-- How long scenes last together. -/
def totalSeconds (scenes : List Scene) : ℚ := (scenes.map Scene.seconds).sum

/-- Each scene with the sum of the durations before it. -/
def placed (scenes : List Scene) : List (ℚ × Scene) :=
  scenes.zipIdx.map fun item => (totalSeconds (scenes.take item.2), item.1)

@[simp] theorem totalSeconds_nil : totalSeconds [] = 0 := rfl

@[simp] theorem totalSeconds_concat (scenes : List Scene) (scene : Scene) :
    totalSeconds (scenes ++ [scene]) = totalSeconds scenes + scene.seconds := by
  simp [totalSeconds]

@[simp] theorem placed_nil : placed [] = [] := rfl

@[simp] theorem placed_concat (scenes : List Scene) (scene : Scene) :
    placed (scenes ++ [scene]) = placed scenes ++ [(totalSeconds scenes, scene)] := by
  have hold : ∀ item ∈ scenes.zipIdx, (scenes ++ [scene]).take item.2 = scenes.take item.2 := by
    intro item hitem
    rw [List.take_append_of_le_length]
    exact (List.snd_lt_of_mem_zipIdx hitem).le.trans (by simp)
  rw [placed, List.zipIdx_append, List.map_append]
  congr 1
  · exact List.map_congr_left fun item hitem => by rw [hold item hitem]
  · simp

theorem placed_snd (scenes : List Scene) : (placed scenes).map Prod.snd = scenes := by
  simp [placed, Function.comp_def]

/-! ## What tiling means -/

/-- Cues that follow each other from one time to another, each of some length. -/
def Consecutive (start stop : ℚ) : List (SubtitleEntry ℚ) → Prop
  | [] => start = stop
  | cue :: rest => cue.startSeconds = start ∧ start < cue.endSeconds ∧ Consecutive cue.endSeconds stop rest

/-- The cues of a scene at its place: they fill its time and carry its narration. -/
structure Captions (place : ℚ × Scene) (cues : List (SubtitleEntry ℚ)) : Prop where
  blank : strip place.2.narration = "" → cues = []
  fill : strip place.2.narration ≠ "" → Consecutive place.1 (place.1 + place.2.seconds) cues
  scene : ∀ cue ∈ cues, cue.sceneId = place.2.id
  carry : cues.flatMap (fun cue => visible cue.text) = visible place.2.narration.toList

/-- Two scenes have the same music, or both none. -/
def sameMusic (a b : ℚ × Scene) : Bool := a.2.filled "music" = b.2.filled "music"

/-- The music of a run of scenes, with its start and its duration. -/
def runMusic : List (ℚ × Scene) → Option (AssetId × ℚ × ℚ)
  | [] => none
  | place :: rest => (place.2.filled "music").map fun asset =>
    (asset, place.1, totalSeconds ((place :: rest).map Prod.snd))

/-- The music of an entry, with its start and its duration. -/
def MusicEntry.span {τ : Type} (entry : MusicEntry τ) : AssetId × τ × τ :=
  (entry.assetId, entry.startSeconds, entry.durationSeconds)

/-- The timeline tiles the scenes: every track has what the scenes have, where they are. -/
structure Tiles (options : TimelineOptions) (scenes : List Scene) (timeline : Timeline ℚ) : Prop where
  visual : timeline.visual.map (fun entry => (entry.sceneId, some entry.assetId, entry.durationSeconds)) =
    scenes.map fun scene => (scene.id, scene.filled "visual", scene.seconds)
  narration : timeline.narration.map (fun entry => (entry.sceneId, entry.assetId, entry.startSeconds)) =
    (placed scenes).filterMap fun place =>
      (place.2.filled "narration").map fun asset => (place.2.id, asset, place.1)
  subtitles : options.includeSubtitles →
    ∃ groups, timeline.subtitles = groups.flatten ∧ List.Forall₂ Captions (placed scenes) groups
  /-- The maximal runs of scenes with the same music, without those that have none. -/
  music : timeline.music.map MusicEntry.span = ((placed scenes).splitBy sameMusic).filterMap runMusic
  musicApart : timeline.music.Pairwise fun a b => a.startSeconds + a.durationSeconds ≤ b.startSeconds
  total : timeline.totalDurationSeconds = totalSeconds scenes

/-! ## Subtitles -/

section
variable {lib : TextLibrary} {scene : Scene} {start : ℚ}

theorem map_text_subtitleLines {τ : Type} (clock : Clock τ) (start : τ) (total : ℕ) (cursor : τ) (lines : List Text) :
    (subtitleLines clock scene start total cursor lines).map SubtitleEntry.text = lines := by
  induction lines generalizing cursor with
  | nil => rfl
  | cons line rest ih => rw [subtitleLines, List.map_cons, ih]

theorem sceneId_subtitleLines {τ : Type} (clock : Clock τ) (start : τ) (total : ℕ) (cursor : τ) (lines : List Text) :
    ∀ cue ∈ subtitleLines clock scene start total cursor lines, cue.sceneId = scene.id := by
  induction lines generalizing cursor with
  | nil => exact nofun
  | cons line rest ih => exact List.forall_mem_cons.mpr ⟨rfl, ih _⟩

/-- The lines from one on fill the rest of the time: `before` characters have been shown. -/
theorem consecutive_subtitleLines (hduration : 0 < scene.seconds) {total before : ℕ} {lines : List Text}
    (hlines : ∀ line ∈ lines, line ≠ []) (hsome : lines ≠ [])
    (htotal : before + (lines.map List.length).sum = total) {cursor : ℚ}
    (hcursor : cursor = start + scene.seconds * (before / total)) :
    Consecutive cursor (start + scene.seconds) (subtitleLines exactClock scene start total cursor lines) := by
  induction lines generalizing before cursor with
  | nil => exact absurd rfl hsome
  | cons line rest ih =>
    obtain ⟨hline, hrest⟩ := List.forall_mem_cons.mp hlines
    rw [List.map_cons, List.sum_cons] at htotal
    have hlength : 0 < line.length := List.length_pos_of_ne_nil hline
    have hpos : (0 : ℚ) < total := by exact_mod_cast (by omega : 0 < total)
    by_cases hlast : rest = []
    · subst hlast
      rw [List.map_nil, List.sum_nil, Nat.add_zero] at htotal
      have hbefore : (before : ℚ) / total < 1 := by
        rw [div_lt_one hpos]
        exact_mod_cast (by omega : before < total)
      have hlt : cursor < start + scene.seconds := by
        have hmul := mul_lt_mul_of_pos_left hbefore hduration
        rw [hcursor]
        linarith
      simpa [subtitleLines, Consecutive, exactClock, roundedClock, Scene.seconds] using hlt
    · have hstop : cursor + scene.seconds * (line.length / total) =
          start + scene.seconds * ((before + line.length : ℕ) / total) := by
        rw [hcursor, Nat.cast_add]
        ring
      have hshare : 0 < scene.seconds * (line.length / total) :=
        mul_pos hduration (div_pos (by exact_mod_cast hlength) hpos)
      rw [subtitleLines, if_neg hlast]
      exact ⟨rfl, lt_add_of_pos_right cursor hshare, ih hrest hlast (by omega) hstop⟩

theorem visible_eq_nil_iff (text : Text) : visible text = [] ↔ stripText text = [] := by
  constructor
  · intro h
    have hspace : ∀ c ∈ text, isSpace c := by simpa [visible, List.filter_eq_nil_iff] using h
    rw [stripText, List.dropWhile_eq_nil_iff.mpr hspace]
    rfl
  · intro h
    rw [← visible_stripText, h]
    rfl

theorem strip_eq_empty_iff (text : String) : strip text = "" ↔ visible text.toList = [] := by
  rw [visible_eq_nil_iff, ← String.toList_inj, strip, String.toList_ofList]
  rfl

/-- The cues of a scene fill its time and carry its narration. -/
theorem captions_buildSceneSubtitles (lib : TextLibrary) (start : ℚ) (hduration : 0 < scene.seconds) :
    Captions (start, scene)
      (if strip scene.narration ≠ "" then buildSceneSubtitles exactClock lib scene start else []) := by
  obtain ⟨hcarry, hlines⟩ := splitSubtitleLines_spec lib scene.narration.toList none
  by_cases hblank : strip scene.narration = ""
  · rw [if_neg (not_not_intro hblank)]
    exact ⟨fun _ => rfl, fun h => absurd hblank h, nofun, ((strip_eq_empty_iff _).mp hblank).symm⟩
  · rw [if_pos hblank]
    refine ⟨fun h => absurd h hblank, fun _ => ?_, sceneId_subtitleLines _ _ _ _ _, ?_⟩
    · have hsome : splitSubtitleLines lib scene.narration.toList none ≠ [] := by
        intro hnil
        rw [hnil] at hcarry
        exact hblank ((strip_eq_empty_iff _).mpr hcarry.symm)
      exact consecutive_subtitleLines hduration hlines hsome (Nat.zero_add _) (by simp)
    · rw [← hcarry, buildSceneSubtitles, ← List.flatMap_map SubtitleEntry.text visible, map_text_subtitleLines]

end

/-! ## Music -/

/-- Adding one element to a list that is split into runs extends the last run or begins one. -/
theorem splitBy_concat {α : Type} {r : α → α → Bool} {items : List α} (hne : items ≠ []) (a : α)
    (hlast : r (items.getLast hne) a) :
    ∃ init run hrun, items.splitBy r = init ++ [run] ∧ run.getLast hrun = items.getLast hne ∧
      (items ++ [a]).splitBy r = init ++ [run ++ [a]] := by
  have hsplit : items.splitBy r ≠ [] := List.splitBy_ne_nil.mpr hne
  obtain ⟨init, run, heq⟩ : ∃ init run, items.splitBy r = init ++ [run] :=
    ⟨_, _, (List.dropLast_append_getLast hsplit).symm⟩
  have hrun : run ≠ [] := List.ne_nil_of_mem_splitBy (heq ▸ List.mem_append_right init List.mem_cons_self)
  have hgetLast : run.getLast hrun = items.getLast hne := by
    have hflatten := List.flatten_splitBy r items
    rw [heq, List.flatten_append, List.flatten_singleton] at hflatten
    simp only [← hflatten, List.getLast_append_of_ne_nil _ hrun]
  refine ⟨init, run, hrun, heq, hgetLast, ?_⟩
  obtain ⟨hflatten, hnil, hruns, hchain⟩ := List.splitBy_eq_iff.mp heq
  rw [List.splitBy_eq_iff]
  refine ⟨by simp [hflatten], by simpa [hrun] using hnil, ?_, ?_⟩
  · intro group hgroup
    rcases List.mem_append.mp hgroup with hinit | hgroup
    · exact hruns group (List.mem_append_left _ hinit)
    · obtain rfl := List.mem_singleton.mp hgroup
      refine List.isChain_append.mpr ⟨hruns run (by simp), .singleton a, fun x hx y hy => ?_⟩
      obtain rfl : a = y := by simpa using hy
      obtain ⟨-, rfl⟩ := List.mem_getLast?_eq_getLast hx
      rw [hgetLast]
      exact hlast
  · rw [List.isChain_append] at hchain ⊢
    refine ⟨hchain.1, .singleton _, fun x hx y hy => ?_⟩
    obtain rfl : run ++ [a] = y := by simpa using hy
    obtain ⟨hx', hrun', hdiff⟩ := hchain.2.2 x hx run (by simp)
    refine ⟨hx', by simp, ?_⟩
    rw [List.head_append_of_ne_nil hrun']
    exact hdiff

/-- The scenes of a run have the music of its last one. -/
theorem runMusic_eq {run : List (ℚ × Scene)} (hrun : run ≠ []) (hchain : run.IsChain fun a b => sameMusic a b)
    {asset : Option AssetId} (hlast : (run.getLast hrun).2.filled "music" = asset) :
    runMusic run = asset.map fun asset => (asset, (run.head hrun).1, totalSeconds (run.map Prod.snd)) := by
  have hsame : run.Pairwise fun a b => a.2.filled "music" = b.2.filled "music" := by
    have htrans : IsTrans (ℚ × Scene) fun a b => a.2.filled "music" = b.2.filled "music" := ⟨fun _ _ _ => Eq.trans⟩
    exact List.isChain_iff_pairwise.mp (hchain.imp fun a b h => by simpa [sameMusic] using h)
  cases run with
  | nil => exact absurd rfl hrun
  | cons place rest =>
    have hfirst : place.2.filled "music" = asset := by
      rcases List.mem_cons.mp (List.getLast_mem hrun) with hhead | hrest
      · rw [← hlast, hhead]
      · rw [← hlast]
        exact (List.pairwise_cons.mp hsame).1 _ hrest
    rw [runMusic, hfirst]
    rfl

/-- The entries of a loop over the music. -/
def MusicRuns.entries {τ : Type} (state : MusicRuns τ) : List (MusicEntry τ) := state.runs.map MusicRun.entry

/-- An entry of music ends before another one starts. -/
def MusicEntry.Before (a b : MusicEntry ℚ) : Prop := a.startSeconds + a.durationSeconds ≤ b.startSeconds

/-- What the loop over the music knows after some scenes. -/
structure MusicInvariant (scenes : List Scene) (state : MusicRuns ℚ) : Prop where
  start : state.startSeconds = totalSeconds scenes
  spans : state.entries.map MusicEntry.span = ((placed scenes).splitBy sameMusic).filterMap runMusic
  /-- The last run is open just when the last scene has its music. -/
  isOpen : ∀ asset, (∃ scene ∈ scenes.getLast?, scene.filled "music" = some asset) ↔
    ∃ run ∈ state.runs.getLast?, run.entry.assetId = asset ∧ run.isOpen
  ends : ∀ entry ∈ state.entries, entry.startSeconds + entry.durationSeconds ≤ state.startSeconds
  apart : state.entries.Pairwise MusicEntry.Before

section
variable {options : TimelineOptions} {scenes : List Scene} {scene : Scene} {state : MusicRuns ℚ}

@[simp] theorem map_entry_closeRuns {τ : Type} (runs : List (MusicRun τ)) :
    (closeRuns runs).map MusicRun.entry = runs.map MusicRun.entry := by
  simp [closeRuns]

theorem isOpen_closeRuns {τ : Type} (runs : List (MusicRun τ)) :
    ∀ run ∈ (closeRuns runs).getLast?, run.isOpen = false := by
  intro run hrun
  obtain ⟨old, -, rfl⟩ := List.mem_map.mp (List.mem_of_getLast? hrun)
  rfl

theorem getLast_placed (hne : placed scenes ≠ []) : ((placed scenes).getLast hne).2 ∈ scenes.getLast? := by
  have hmap : ((placed scenes).map Prod.snd).getLast? = some ((placed scenes).getLast hne).2 := by
    rw [List.getLast?_map, List.getLast?_eq_getLast_of_ne_nil hne]
    rfl
  rwa [placed_snd] at hmap

/-- A scene with the music of the scene before it makes the last run longer. -/
theorem runs_of_same (hsame : ∃ last ∈ scenes.getLast?, last.filled "music" = scene.filled "music") :
    ∃ init run run' start duration, (placed scenes).splitBy sameMusic = init ++ [run] ∧
      (placed (scenes ++ [scene])).splitBy sameMusic = init ++ [run'] ∧
      runMusic run = (scene.filled "music").map (fun asset => (asset, start, duration)) ∧
      runMusic run' = (scene.filled "music").map fun asset => (asset, start, duration + scene.seconds) := by
  obtain ⟨last, hlast, hmusic⟩ := hsame
  have hne : placed scenes ≠ [] := by
    intro hnil
    have hscenes := placed_snd scenes
    rw [hnil] at hscenes
    rw [← hscenes] at hlast
    cases hlast
  have heq : ((placed scenes).getLast hne).2 = last := Option.some.inj ((getLast_placed hne).symm.trans hlast)
  have hlastSame : sameMusic ((placed scenes).getLast hne) (totalSeconds scenes, scene) := by
    simp [sameMusic, heq, hmusic]
  obtain ⟨init, run, hrun, hsplit, hgetLast, hconcat⟩ := splitBy_concat hne (totalSeconds scenes, scene) hlastSame
  rw [← placed_concat] at hconcat
  have hmem : run ∈ (placed scenes).splitBy sameMusic := by simp [hsplit]
  have hmem' : run ++ [(totalSeconds scenes, scene)] ∈ (placed (scenes ++ [scene])).splitBy sameMusic := by
    rw [hconcat]
    exact List.mem_append_right init List.mem_cons_self
  refine ⟨init, run, run ++ [(totalSeconds scenes, scene)], (run.head hrun).1, totalSeconds (run.map Prod.snd),
    hsplit, hconcat, ?_, ?_⟩
  · refine runMusic_eq hrun (List.isChain_of_mem_splitBy hmem) ?_
    rw [hgetLast, heq, hmusic]
  · have hmusic' : ((run ++ [(totalSeconds scenes, scene)]).getLast (by simp)).2.filled "music" =
        scene.filled "music" := by rw [List.getLast_append_singleton]
    rw [runMusic_eq _ (List.isChain_of_mem_splitBy hmem') hmusic', List.head_append_of_ne_nil hrun,
      List.map_append, List.map_singleton, totalSeconds_concat]

/-- A scene with other music than the scene before it begins a run. -/
theorem runs_of_ne (hdiff : ¬∃ last ∈ scenes.getLast?, last.filled "music" = scene.filled "music") :
    (placed (scenes ++ [scene])).splitBy sameMusic =
      (placed scenes).splitBy sameMusic ++ [[(totalSeconds scenes, scene)]] := by
  rw [placed_concat]
  refine List.splitBy_append_cons [] fun place hplace => ?_
  obtain ⟨hne, rfl⟩ := List.mem_getLast?_eq_getLast hplace
  by_contra hsame
  exact hdiff ⟨_, getLast_placed hne, by simpa [sameMusic] using hsame⟩

@[simp] theorem runMusic_singleton (start : ℚ) (scene : Scene) :
    runMusic [(start, scene)] = (scene.filled "music").map fun asset => (asset, start, scene.seconds) := by
  simp [runMusic, totalSeconds]

/-- A scene without music closes the runs. -/
theorem MusicInvariant.silent (h : MusicInvariant scenes state) (hscene : scene.filled "music" = none)
    (hduration : 0 ≤ scene.seconds) : MusicInvariant (scenes ++ [scene]) (musicScene exactClock options state scene) := by
  have hruns : (musicScene exactClock options state scene).runs = closeRuns state.runs := by
    simp only [musicScene, hscene]
  have hentries : (musicScene exactClock options state scene).entries = state.entries := by
    rw [MusicRuns.entries, hruns, map_entry_closeRuns]
    rfl
  have hstart : (musicScene exactClock options state scene).startSeconds = state.startSeconds + scene.seconds := rfl
  refine ⟨by rw [hstart, h.start, totalSeconds_concat], ?_, fun asset => ?_, ?_, hentries ▸ h.apart⟩
  · rw [hentries, h.spans]
    by_cases hsame : ∃ last ∈ scenes.getLast?, last.filled "music" = scene.filled "music"
    · obtain ⟨init, run, run', start, duration, hsplit, hsplit', hrun, hrun'⟩ := runs_of_same hsame
      rw [hscene] at hrun hrun'
      rw [hsplit, hsplit', List.filterMap_append, List.filterMap_append]
      simp [hrun, hrun']
    · rw [runs_of_ne hsame, List.filterMap_append]
      simp [hscene]
  · rw [hruns]
    constructor
    · rintro ⟨last, hlast, hmusic⟩
      obtain rfl : scene = last := by simpa using hlast
      rw [hscene] at hmusic
      cases hmusic
    · rintro ⟨run, hrun, -, hopen⟩
      rw [isOpen_closeRuns _ run hrun] at hopen
      cases hopen
  · rw [hentries, hstart]
    exact fun entry hentry => (h.ends entry hentry).trans (le_add_of_nonneg_right hduration)

/-- The run of a scene is open after it. -/
theorem isOpen_concat {runs : List (MusicRun ℚ)} {run : MusicRun ℚ} {asset : AssetId}
    (hscene : scene.filled "music" = some asset) (hrun : run.entry.assetId = asset ∧ run.isOpen) (other : AssetId) :
    (∃ last ∈ (scenes ++ [scene]).getLast?, last.filled "music" = some other) ↔
      ∃ last ∈ (runs ++ [run]).getLast?, last.entry.assetId = other ∧ last.isOpen := by
  rw [List.getLast?_concat, List.getLast?_concat]
  simp only [Option.mem_def, Option.some.injEq, exists_eq_left', hscene, hrun.1, hrun.2, and_true]

/-- A scene with the music of the scene before it goes on with the last run. -/
theorem MusicInvariant.extend (h : MusicInvariant scenes state) {asset : AssetId}
    (hscene : scene.filled "music" = some asset) (hsame : ∃ last ∈ scenes.getLast?, last.filled "music" = some asset)
    (hduration : 0 ≤ scene.seconds) : MusicInvariant (scenes ++ [scene]) (musicScene exactClock options state scene) := by
  obtain ⟨run, hrun, hasset, hopen⟩ := (h.isOpen asset).mp hsame
  have hlast : state.runs.getLast? = some run := hrun
  obtain ⟨init, hsplitRuns⟩ : ∃ init, state.runs = init ++ [run] := List.getLast?_eq_some_iff.mp hlast
  have hruns : (musicScene exactClock options state scene).runs = init ++ [run.extend exactClock scene] := by
    simp only [musicScene, hscene, hlast]
    rw [if_pos ⟨hasset, hopen⟩, hsplitRuns, List.dropLast_concat]
  have hold : state.entries = init.map MusicRun.entry ++ [run.entry] := by
    rw [MusicRuns.entries, hsplitRuns, List.map_append, List.map_singleton]
  have hnew : (musicScene exactClock options state scene).entries =
      init.map MusicRun.entry ++ [(run.extend exactClock scene).entry] := by
    rw [MusicRuns.entries, hruns, List.map_append, List.map_singleton]
  have hspan : (run.extend exactClock scene).entry.span =
      (asset, run.entry.startSeconds, run.entry.durationSeconds + scene.seconds) := by
    rw [← hasset]
    rfl
  have hstart : (musicScene exactClock options state scene).startSeconds = state.startSeconds + scene.seconds := rfl
  have hends := h.ends
  have hapart := h.apart
  rw [hold, List.forall_mem_append] at hends
  rw [hold, List.pairwise_append] at hapart
  refine ⟨by rw [hstart, h.start, totalSeconds_concat], ?_, fun asset' => ?_, ?_, ?_⟩
  · rw [← hscene] at hsame
    obtain ⟨groups, group, group', start, duration, hsplit, hsplit', hgroup, hgroup'⟩ := runs_of_same hsame
    have hspans := h.spans
    rw [hscene] at hgroup hgroup'
    rw [hold, hsplit, List.map_append, List.filterMap_append] at hspans
    rw [hnew, hsplit', List.map_append, List.filterMap_append]
    simp only [List.map_singleton, List.filterMap_cons, List.filterMap_nil, hgroup, hgroup', Option.map_some,
      hspan] at hspans ⊢
    obtain ⟨hinit, hlastSpan⟩ := List.append_inj' hspans rfl
    have hlastSpan : (run.entry.assetId, run.entry.startSeconds, run.entry.durationSeconds) =
      (asset, start, duration) := List.singleton_inj.mp hlastSpan
    simp only [Prod.mk.injEq] at hlastSpan
    rw [hinit, hlastSpan.2.1, hlastSpan.2.2]
  · have hopen' : (run.extend exactClock scene).entry.assetId = asset ∧ (run.extend exactClock scene).isOpen :=
      ⟨hasset, hopen⟩
    rw [hruns]
    exact isOpen_concat hscene hopen' asset'
  · rw [hnew, hstart, List.forall_mem_append]
    refine ⟨fun entry hentry => (hends.1 entry hentry).trans (le_add_of_nonneg_right hduration), ?_⟩
    rintro entry hentry
    obtain rfl := List.mem_singleton.mp hentry
    have hend := hends.2 run.entry (by simp)
    show run.entry.startSeconds + (run.entry.durationSeconds + scene.seconds) ≤ state.startSeconds + scene.seconds
    linarith
  · rw [hnew, List.pairwise_append]
    refine ⟨hapart.1, List.pairwise_singleton _ _, fun entry hentry last hlast => ?_⟩
    obtain rfl := List.mem_singleton.mp hlast
    exact hapart.2.2 entry hentry run.entry (by simp)

/-- A scene with other music begins a run. -/
theorem MusicInvariant.begin (h : MusicInvariant scenes state) {asset : AssetId}
    (hscene : scene.filled "music" = some asset) (hdiff : ¬∃ last ∈ scenes.getLast?, last.filled "music" = some asset)
    (hduration : 0 ≤ scene.seconds) : MusicInvariant (scenes ++ [scene]) (musicScene exactClock options state scene) := by
  have hruns : (musicScene exactClock options state scene).runs =
      closeRuns state.runs ++ [newRun exactClock options state.startSeconds scene asset] := by
    simp only [musicScene, hscene]
    cases hlast : state.runs.getLast? with
    | none => rfl
    | some run =>
      have hclosed : ¬(run.entry.assetId = asset ∧ run.isOpen) := fun hrun =>
        hdiff ((h.isOpen asset).mpr ⟨run, hlast, hrun⟩)
      simp only [if_neg hclosed]
  have hnew : (musicScene exactClock options state scene).entries =
      state.entries ++ [(newRun exactClock options state.startSeconds scene asset).entry] := by
    rw [MusicRuns.entries, hruns, List.map_append, map_entry_closeRuns, List.map_singleton]
    rfl
  have hspan : (newRun exactClock options state.startSeconds scene asset).entry.span =
      (asset, state.startSeconds, scene.seconds) := rfl
  have hstart : (musicScene exactClock options state scene).startSeconds = state.startSeconds + scene.seconds := rfl
  refine ⟨by rw [hstart, h.start, totalSeconds_concat], ?_, fun asset' => ?_, ?_, ?_⟩
  · rw [← hscene] at hdiff
    rw [hnew, runs_of_ne hdiff, List.map_append, List.filterMap_append, h.spans, List.map_singleton, hspan, h.start]
    simp [hscene]
  · rw [hruns]
    exact isOpen_concat hscene ⟨rfl, rfl⟩ asset'
  · rw [hnew, hstart, List.forall_mem_append]
    refine ⟨fun entry hentry => (h.ends entry hentry).trans (le_add_of_nonneg_right hduration), ?_⟩
    intro entry hentry
    obtain rfl := List.mem_singleton.mp hentry
    exact le_rfl
  · rw [hnew, List.pairwise_append]
    refine ⟨h.apart, List.pairwise_singleton _ _, fun entry hentry last hlast => ?_⟩
    obtain rfl := List.mem_singleton.mp hlast
    exact h.ends entry hentry

/-- The loop over the music keeps its invariant. -/
theorem musicInvariant_foldl (options : TimelineOptions) (hdurations : ∀ scene ∈ scenes, 0 ≤ scene.seconds) :
    MusicInvariant scenes (scenes.foldl (musicScene exactClock options) { startSeconds := 0 }) := by
  induction scenes using List.reverseRecOn with
  | nil => exact ⟨rfl, rfl, fun asset => by simp, nofun, .nil⟩
  | append_singleton scenes scene ih =>
    obtain ⟨hdurations, hduration⟩ := List.forall_mem_append.mp hdurations
    have hduration := hduration scene List.mem_cons_self
    have h := ih hdurations
    rw [List.foldl_append, List.foldl_cons, List.foldl_nil]
    cases hscene : scene.filled "music" with
    | none => exact h.silent hscene hduration
    | some asset =>
      by_cases hsame : ∃ last ∈ scenes.getLast?, last.filled "music" = some asset
      · exact h.extend hscene hsame hduration
      · exact h.begin hscene hsame hduration

end

/-! ## The whole timeline -/

/-- The cues of a scene at its place. -/
def placeCues (clock : Clock ℚ) (lib : TextLibrary) (place : ℚ × Scene) : List (SubtitleEntry ℚ) :=
  if strip place.2.narration ≠ "" then buildSceneSubtitles clock lib place.2 place.1 else []

/-- What the loop over the scenes knows after some of them. -/
structure TrackInvariant (round : ℚ → ℚ) (lib : TextLibrary) (options : TimelineOptions) (scenes : List Scene)
    (tracks : TrackState ℚ) : Prop where
  start : tracks.startSeconds = totalSeconds scenes
  visual : tracks.visual.map (fun entry => (entry.sceneId, some entry.assetId, entry.durationSeconds)) =
    scenes.map fun scene => (scene.id, scene.filled "visual", scene.seconds)
  narration : tracks.narration.map (fun entry => (entry.sceneId, entry.assetId, entry.startSeconds)) =
    (placed scenes).filterMap fun place =>
      (place.2.filled "narration").map fun asset => (place.2.id, asset, round place.1)
  subtitles : options.includeSubtitles →
    tracks.subtitles = (placed scenes).flatMap (placeCues (roundedClock round) lib)

section
variable {round : ℚ → ℚ} {lib : TextLibrary} {options : TimelineOptions} {scenes : List Scene} {scene : Scene}
  {tracks : TrackState ℚ}

theorem TrackInvariant.step (h : TrackInvariant round lib options scenes tracks)
    (hvisual : (scene.filled "visual").isSome) :
    TrackInvariant round lib options (scenes ++ [scene]) (trackScene (roundedClock round) lib options tracks scene) := by
  obtain ⟨asset, hasset⟩ := Option.isSome_iff_exists.mp hvisual
  refine ⟨?_, ?_, ?_, fun hinclude => ?_⟩
  · rw [totalSeconds_concat, ← h.start]
    rfl
  · rw [trackScene, List.map_append, List.map_append, h.visual, hasset]
    simp [visualEntry, hasset, roundedClock, Scene.seconds]
  · rw [placed_concat, List.filterMap_append, ← h.narration]
    cases hnarration : scene.filled "narration" with
    | none => simp [trackScene, hnarration]
    | some narration => simp [trackScene, hnarration, roundedClock, h.start]
  · rw [placed_concat, List.flatMap_append, List.flatMap_singleton, placeCues, ← h.subtitles hinclude, ← h.start]
    by_cases hblank : strip scene.narration = ""
    · simp [trackScene, hblank]
    · simp [trackScene, hblank, hinclude]

theorem trackInvariant_foldl (round : ℚ → ℚ) (lib : TextLibrary) (options : TimelineOptions)
    (hvisual : ∀ scene ∈ scenes, (scene.filled "visual").isSome) :
    TrackInvariant round lib options scenes
      (scenes.foldl (trackScene (roundedClock round) lib options) { startSeconds := 0 }) := by
  induction scenes using List.reverseRecOn with
  | nil => exact ⟨rfl, rfl, rfl, fun _ => rfl⟩
  | append_singleton scenes scene ih =>
    obtain ⟨hscenes, hscene⟩ := List.forall_mem_append.mp hvisual
    rw [List.foldl_append, List.foldl_cons, List.foldl_nil]
    exact (ih hscenes).step (hscene scene List.mem_cons_self)

/-- A story whose scenes have their visuals has a timeline. -/
theorem buildTimeline_eq_ok {τ : Type} (clock : Clock τ) (lib : TextLibrary) (options : TimelineOptions)
    {story : StoryDocument} (hscenes : story.scenesInOrder ≠ [])
    (hvisual : ∀ scene ∈ story.scenesInOrder, (scene.filled "visual").isSome) :
    buildTimeline clock lib options story = .ok {
      resolution := options.resolution
      fps := options.fps
      totalDurationSeconds := clock.round (story.scenesInOrder.foldl (trackScene clock lib options)
        { startSeconds := clock.zero }).startSeconds
      visual := (story.scenesInOrder.foldl (trackScene clock lib options) { startSeconds := clock.zero }).visual
      narration := (story.scenesInOrder.foldl (trackScene clock lib options)
        { startSeconds := clock.zero }).narration
      music := buildMusicRuns clock options story.scenesInOrder
      subtitles := (story.scenesInOrder.foldl (trackScene clock lib options)
        { startSeconds := clock.zero }).subtitles } := by
  have hall : (story.scenesInOrder.filter fun scene => scene.filled "visual" = none) = [] := by
    rw [List.filter_eq_nil_iff]
    intro scene hmem
    simpa [← Option.isSome_iff_ne_none] using hvisual scene hmem
  rw [buildTimeline, if_neg hscenes, if_neg (not_not_intro hall)]

/-- A story that has a timeline has scenes, and a visual for each of them. -/
theorem visual_of_buildTimeline {τ : Type} {clock : Clock τ} {story : StoryDocument} {timeline : Timeline τ}
    (h : buildTimeline clock lib options story = .ok timeline) :
    story.scenesInOrder ≠ [] ∧ ∀ scene ∈ story.scenesInOrder, (scene.filled "visual").isSome := by
  unfold buildTimeline at h
  simp only at h
  split at h
  · cases h
  next hscenes =>
    split at h
    · cases h
    next hall =>
      refine ⟨hscenes, fun scene hmem => ?_⟩
      have hnot := List.filter_eq_nil_iff.mp (not_not.mp hall) scene hmem
      simpa [← Option.isSome_iff_ne_none] using hnot

end

/-- The timeline of a story with a visual and a positive duration for every scene tiles it. -/
theorem buildTimeline_tiles (lib : TextLibrary) (options : TimelineOptions) (story : StoryDocument)
    (hscenes : story.scenes ≠ []) (hvisual : ∀ scene ∈ story.scenes, (scene.filled "visual").isSome)
    (hdurations : ∀ scene ∈ story.scenes, ∃ seconds, scene.durationSeconds = .finite seconds ∧ 0 < seconds) :
    ∃ timeline, buildTimeline exactClock lib options story = .ok timeline ∧
      Tiles options story.scenesInOrder timeline := by
  have hsome : story.scenesInOrder ≠ [] := by
    intro hnil
    have hperm := List.perm_insertionSort (fun a b : Scene => a.order ≤ b.order) story.scenes
    rw [StoryDocument.scenesInOrder] at hnil
    rw [hnil] at hperm
    exact hscenes hperm.nil_eq.symm
  have hvisual' : ∀ scene ∈ story.scenesInOrder, (scene.filled "visual").isSome := fun scene hmem =>
    hvisual scene (mem_scenesInOrder.mp hmem)
  have hpos : ∀ scene ∈ story.scenesInOrder, 0 < scene.seconds := by
    intro scene hmem
    obtain ⟨seconds, hseconds, hpos⟩ := hdurations scene (mem_scenesInOrder.mp hmem)
    rw [Scene.seconds, hseconds]
    exact hpos
  have htracks := trackInvariant_foldl id lib options hvisual'
  have hmusic := musicInvariant_foldl options fun scene hmem => (hpos scene hmem).le
  refine ⟨_, buildTimeline_eq_ok exactClock lib options hsome hvisual', ?_⟩
  refine ⟨htracks.visual, htracks.narration, fun hinclude => ?_, hmusic.spans, hmusic.apart, htracks.start⟩
  refine ⟨(placed story.scenesInOrder).map (placeCues exactClock lib), htracks.subtitles hinclude, ?_⟩
  rw [List.forall₂_map_right_iff, List.forall₂_same]
  intro place hmem
  refine captions_buildSceneSubtitles lib place.1 (hpos place.2 ?_)
  rw [← placed_snd story.scenesInOrder]
  exact List.mem_map_of_mem hmem

/-- Two scenes that share their music, the first one narrated. -/
def scoredStory : StoryDocument where
  id := "story_1"
  scenes := [
    { id := "scene_01", order := 0, narration := "雨が降る。", durationSeconds := .finite (5 / 2)
      assetIds := [("visual", "asset_1"), ("narration", "asset_2"), ("music", "asset_3")] },
    { id := "scene_02", order := 1, durationSeconds := .finite 4
      assetIds := [("visual", "asset_4"), ("music", "asset_3")] }]

theorem tiles_scoredStory : ∃ timeline, buildTimeline exactClock plainLibrary {} scoredStory = .ok timeline ∧
    Tiles {} scoredStory.scenesInOrder timeline := by
  refine buildTimeline_tiles plainLibrary {} scoredStory (by decide) (by decide) fun scene hmem => ?_
  simp only [scoredStory, List.mem_cons, List.not_mem_nil, or_false] at hmem
  rcases hmem with rfl | rfl
  · exact ⟨5 / 2, rfl, by norm_num⟩
  · exact ⟨4, rfl, by norm_num⟩

end CreativeStudio.Story
