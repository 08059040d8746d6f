import CreativeStudio.Video.Assembly
import Mathlib.Algebra.BigOperators.Ring.Finset
import Mathlib.Data.List.ReduceOption
import Mathlib.Tactic.Linarith
import Mathlib.Tactic.Ring

/-!
# Which accepted timelines render

Validation bounds what a render may cost, and skips what rendering rejects: entries that are no
mappings, last no time or name no source. It sums seconds where the audio mix counts rendered
frames, and never looks at the numbers of the audio and subtitle entries.
-/

namespace CreativeStudio.Video
open Data Story

/-! ## What a request has -/

namespace AssemblyRequest
variable (request : AssemblyRequest)

def timeline : Dict Value := (item request.params "timeline").obj?.getD []

def tracks : Dict Value := (item request.timeline "tracks").obj?.getD []

def track (name : String) : List Value := (listOr (item request.tracks name)).getD []

def fps (lib : ValueLibrary) : ℕ := framesPerSecond (floatValue lib (item request.timeline "fps"))

end AssemblyRequest

/-- How long an entry lasts. -/
def seconds (lib : ValueLibrary) (members : Dict Value) : ℚ := floatValue lib (item members "duration_seconds")

/-- The frames of the clip of an entry. -/
def clipFrames (lib : ValueLibrary) (fps : ℕ) (members : Dict Value) : ℤ :=
  max 1 (roundHalfEven (seconds lib members * fps))

/-- The frames of the visual track, clip by clip. -/
def renderedFrames (lib : ValueLibrary) (fps : ℕ) (entries : List (Dict Value)) : ℤ :=
  (entries.map (clipFrames lib fps)).sum

/-- An entry says where its file is. -/
def Named (generator : AssemblyGenerator) (members : Dict Value) : Prop :=
  (item members "asset_id").truthy ∨ generator.allowDirectPaths ∧ (item members "path").truthy

/-- A product of a number of an entry and a rate can be rounded. -/
def Scalable (lib : ValueLibrary) (value : Value) (rate : ℕ) : Prop :=
  InFloatRange lib value ∧ |floatValue lib value * rate| < PyFloat.overflow

/-- Every named asset resolves to a file. -/
def AssetsResolve (lib : ValueLibrary) (host : AssemblyHost) (generator : AssemblyGenerator)
    (request : AssemblyRequest) : Prop :=
  ∀ name ∈ ["visual", "narration", "music"], ∀ members ∈ mappings (request.track name),
    Named generator members → resolveSource lib host generator members ≠ none

section
variable {lib : ValueLibrary} {text : TextLibrary} {host : AssemblyHost} {generator : AssemblyGenerator}
  {request : AssemblyRequest}

theorem visualTrack_eq_ok {timeline tracks : Dict Value} {visual : List Value}
    (h : visualTrack request = .ok (timeline, tracks, visual)) :
    timeline = request.timeline ∧ tracks = request.tracks ∧ visual = request.track "visual" := by
  unfold visualTrack at h
  split at h
  next field fields htimeline =>
    simp only at h
    split at h
    next tracks' htracks =>
      split at h
      next entry entries hvisual =>
        simp only [Except.ok.injEq, Prod.mk.injEq] at h
        obtain ⟨rfl, rfl, rfl⟩ := h
        have htimeline' : request.timeline = field :: fields := by
          rw [AssemblyRequest.timeline, htimeline]
          rfl
        have htracks' : request.tracks = tracks' := by
          rw [AssemblyRequest.tracks, htimeline', htracks]
          rfl
        refine ⟨htimeline'.symm, htracks'.symm, ?_⟩
        rw [AssemblyRequest.track, htracks', hvisual]
        rfl
      next => cases h
    next => cases h
  next => cases h

theorem entrySeconds_eq_ok {members : Dict Value} {duration : ℚ} :
    entrySeconds lib members = .ok duration ↔
      InFloatRange lib (item members "duration_seconds") ∧ seconds lib members = duration :=
  asFloat_eq_ok

/-- What validation has seen of an accepted request. -/
structure Accepted (lib : ValueLibrary) (request : AssemblyRequest) (size : ℕ × ℕ) (style : SubtitleStyle)
    (safeArea : SafeAreaPreset) : Prop where
  visual : visualTrack request = .ok (request.timeline, request.tracks, request.track "visual")
  rate : asFloat lib (item request.timeline "fps") = .ok (floatValue lib (item request.timeline "fps"))
  resolution : resolveResolution lib request.timeline = .ok size
  durations : ∀ members ∈ mappings (request.track "visual"), InFloatRange lib (item members "duration_seconds")
  frames : ∃ count, countFrames lib (request.fps lib) (mappings (request.track "visual")) = .ok count ∧
    count ≤ maxFrameCount
  styled : SubtitleStyle.fromParams lib (item request.params "subtitle_style") = .ok style
  preset : resolveSafeArea lib (item request.params "safe_area_preset_id") size = .ok safeArea
  box : request.track "subtitles" ≠ [] → ∃ box, resolveSubtitleBox lib safeArea size style = .ok box

theorem inFloatRange_of_validateDuration {entries : List (Dict Value)} (h : validateDuration lib entries = .ok ()) :
    ∀ members ∈ entries, InFloatRange lib (item members "duration_seconds") := by
  obtain ⟨total, htotal, -⟩ := bind_eq_ok.mp h
  clear h
  generalize (0 : PyFloat) = start at htotal
  induction entries generalizing start with
  | nil => exact nofun
  | cons members rest ih =>
    rw [List.foldlM_cons] at htotal
    obtain ⟨next, hnext, hrest⟩ := bind_eq_ok.mp htotal
    obtain ⟨duration, hduration, -⟩ := bind_eq_ok.mp hnext
    exact List.forall_mem_cons.mpr ⟨exists_asFloat_iff.mp ⟨duration, hduration⟩, ih next hrest⟩

theorem track_of_listOr {tracks : Dict Value} {name : String} {entries : List Value} (htracks : request.tracks = tracks)
    (h : listOr (item tracks name) = some entries) : request.track name = entries := by
  rw [AssemblyRequest.track, htracks, h]
  rfl

theorem track_subtitles {subtitles : List Value} (h : validateSubtitles lib request.tracks = .ok subtitles) :
    request.track "subtitles" = subtitles := by
  unfold validateSubtitles at h
  split at h
  · cases h
  next entries hentries =>
    simp only at h
    split at h
    · cases h
    · split at h
      · cases h
      · split at h
        · cases h
        · obtain rfl := Except.ok.inj h
          exact track_of_listOr rfl hentries

theorem accepted_of_validateRequest (h : validateRequest lib request = .ok ()) :
    ∃ size style safeArea, Accepted lib request size style safeArea := by
  unfold validateRequest at h
  obtain ⟨⟨⟩, -, h⟩ := bind_eq_ok.mp h
  obtain ⟨⟨timeline, tracks, visual⟩, htrack, h⟩ := bind_eq_ok.mp h
  simp only at h
  obtain ⟨rfl, rfl, rfl⟩ := visualTrack_eq_ok htrack
  obtain ⟨fps, hfps, h⟩ := bind_eq_ok.mp h
  obtain ⟨size, hsize, h⟩ := bind_eq_ok.mp h
  split at h
  · cases h
  obtain ⟨⟨⟩, hduration, h⟩ := bind_eq_ok.mp h
  obtain ⟨count, hcount, h⟩ := bind_eq_ok.mp h
  split at h
  · cases h
  next hbound =>
    obtain ⟨subtitles, hsubtitles, h⟩ := bind_eq_ok.mp h
    obtain ⟨narrationCount, -, h⟩ := bind_eq_ok.mp h
    obtain ⟨musicCount, -, h⟩ := bind_eq_ok.mp h
    split at h
    · cases h
    obtain ⟨style, hstyle, h⟩ := bind_eq_ok.mp h
    obtain ⟨safeArea, hsafeArea, h⟩ := bind_eq_ok.mp h
    have hrate : asFloat lib (item request.timeline "fps") = .ok fps := by
      obtain ⟨fps', hfps', hrest⟩ := bind_eq_ok.mp hfps
      simp only at hrest
      split at hrest
      · cases hrest
      split at hrest
      · cases hrest
      obtain rfl := Except.ok.inj hrest
      exact hfps'
    obtain ⟨-, hvalue⟩ := asFloat_eq_ok.mp hrate
    refine ⟨size, style, safeArea, htrack, hvalue ▸ hrate, hsize, inFloatRange_of_validateDuration hduration, ?_, hstyle,
      hsafeArea, fun hsome => ?_⟩
    · rw [AssemblyRequest.fps, hvalue]
      exact ⟨count, hcount, not_lt.mp hbound⟩
    · rw [track_subtitles hsubtitles] at hsome
      rw [if_pos hsome] at h
      obtain ⟨box, hbox, -⟩ := bind_eq_ok.mp h
      exact ⟨box, hbox⟩

/-! ## Clips -/

/-- An entry becomes a clip. -/
structure Clippable (lib : ValueLibrary) (generator : AssemblyGenerator) (entry : Value) (members : Dict Value) :
    Prop where
  mapping : entry = .obj members
  lasts : 0 < seconds lib members
  named : Named generator members

/-- The clip of an entry. -/
structure ClipOf (lib : ValueLibrary) (host : AssemblyHost) (generator : AssemblyGenerator) (fps : ℕ)
    (members : Dict Value) (clip : Clip String) : Prop where
  source : resolveSource lib host generator members = some clip.source
  frameCount : clip.frameCount = (clipFrames lib fps members).toNat

theorem resolveSource_of_not_named {members : Dict Value} (h : ¬Named generator members) :
    resolveSource lib host generator members = none := by
  obtain ⟨hasset, hpath⟩ : (item members "asset_id").truthy = false ∧
      ¬(generator.allowDirectPaths ∧ (item members "path").truthy) := by simpa [Named, not_or] using h
  have hdirect : (generator.allowDirectPaths && (item members "path").truthy) = false := by
    rw [Bool.eq_false_iff]
    simpa using hpath
  unfold resolveSource
  simp only [hasset, hdirect, Bool.false_and]
  cases generator.assetPathLookup <;> rfl

theorem entryFrames_eq_ok {fps : ℕ} {duration : ℚ} {frames : ℤ} :
    entryFrames fps duration = .ok frames ↔
      |duration * fps| < PyFloat.overflow ∧ max 1 (roundHalfEven (duration * fps)) = frames := by
  constructor
  · intro h
    obtain ⟨n, hn, rfl⟩ := ok_of_map h
    obtain ⟨hlt, rfl⟩ := roundScaled_eq_ok.mp hn
    exact ⟨hlt, rfl⟩
  · rintro ⟨hlt, rfl⟩
    rw [entryFrames, roundScaled_eq_ok.mpr ⟨hlt, rfl⟩]
    rfl

/-- What one turn of the loop over the visual entries does with an entry that becomes a clip. -/
theorem clipStep_of_clippable (text : TextLibrary) {fps : ℕ} (index : ℕ) (state : ClipLoop) {entry : Value}
    {members : Dict Value}
    (h : Clippable lib generator entry members) (hrange : InFloatRange lib (item members "duration_seconds"))
    (hframes : |seconds lib members * fps| < PyFloat.overflow)
    (hsource : resolveSource lib host generator members ≠ none) :
    ∃ clip, clipStep lib text host generator fps state (entry, index) =
      .ok { state with clips := state.clips ++ [clip] } := by
  obtain ⟨source, hsource⟩ := Option.ne_none_iff_exists'.mp hsource
  have hduration : entrySeconds lib members = .ok (seconds lib members) := asFloat_of_inFloatRange hrange
  have hentry := entryFrames_eq_ok.mpr ⟨hframes, rfl⟩
  let sceneId := lib.str (orElse (item members "scene_id") (orElse (item members "asset_id") (.str s!"#{index}")))
  rw [h.mapping]
  refine ⟨buildClip lib text members sceneId source (clipFrames lib fps members), ?_⟩
  simp only [clipStep, hduration, Bind.bind, Except.bind, if_neg (not_le.mpr h.lasts), hsource, hentry]
  rfl

/-- One turn either makes a clip, of an entry that can become one, or notes what is wrong. -/
theorem clippable_of_clipStep {fps index : ℕ} {state state' : ClipLoop} {entry : Value}
    (h : clipStep lib text host generator fps state (entry, index) = .ok state')
    (hunresolved : state'.unresolved = []) (hinvalid : state'.invalidDuration = []) :
    ∃ members clip, Clippable lib generator entry members ∧ ClipOf lib host generator fps members clip ∧
      state.unresolved = [] ∧ state.invalidDuration = [] ∧ state'.clips = state.clips ++ [clip] := by
  unfold clipStep at h
  split at h
  next members hentry =>
    obtain ⟨duration, hduration, h⟩ := bind_eq_ok.mp h
    obtain ⟨-, rfl⟩ := entrySeconds_eq_ok.mp hduration
    split at h
    · obtain rfl := Except.ok.inj h
      simp at hinvalid
    next hlasts =>
      split at h
      · obtain rfl := Except.ok.inj h
        simp at hunresolved
      next source hsource =>
        obtain ⟨frames, hframes, h⟩ := bind_eq_ok.mp h
        obtain ⟨-, rfl⟩ := entryFrames_eq_ok.mp hframes
        obtain rfl := Except.ok.inj h
        have hnamed : Named generator members := by
          by_contra hnot
          rw [resolveSource_of_not_named hnot] at hsource
          cases hsource
        exact ⟨members, _, ⟨hentry, not_le.mp hlasts, hnamed⟩, ⟨hsource, rfl⟩, hunresolved, hinvalid, rfl⟩
  next => cases h

/-- The loop over entries that all become clips. -/
theorem foldlM_clipStep (text : TextLibrary) {fps : ℕ} {entries : List Value} (state : ClipLoop) (start : ℕ)
    (hrange : ∀ members ∈ mappings entries, InFloatRange lib (item members "duration_seconds"))
    (hframes : ∀ members ∈ mappings entries, |seconds lib members * fps| < PyFloat.overflow)
    (hsources : ∀ members ∈ mappings entries, Named generator members → resolveSource lib host generator members ≠ none)
    (h : ∀ entry ∈ entries, ∃ members, Clippable lib generator entry members) :
    ∃ state', (entries.zipIdx start).foldlM (clipStep lib text host generator fps) state = .ok state' ∧
      state'.unresolved = state.unresolved ∧ state'.invalidDuration = state.invalidDuration := by
  induction entries generalizing state start with
  | nil => exact ⟨state, rfl, rfl, rfl⟩
  | cons entry rest ih =>
    obtain ⟨⟨members, hentry⟩, hrest⟩ := List.forall_mem_cons.mp h
    have hmappings : mappings (entry :: rest) = members :: mappings rest := by
      rw [hentry.mapping]
      rfl
    rw [hmappings, List.forall_mem_cons] at hrange hframes hsources
    obtain ⟨clip, hstep⟩ := clipStep_of_clippable text start state hentry hrange.1 hframes.1
      (hsources.1 hentry.named)
    obtain ⟨state', hfold, hunresolved, hinvalid⟩ :=
      ih { state with clips := state.clips ++ [clip] } (start + 1) hrange.2 hframes.2 hsources.2 hrest
    refine ⟨state', ?_, hunresolved, hinvalid⟩
    rw [List.zipIdx_cons, List.foldlM_cons, hstep]
    exact hfold

theorem clippable_of_foldlM {fps : ℕ} {entries : List Value} {state state' : ClipLoop} (start : ℕ)
    (h : (entries.zipIdx start).foldlM (clipStep lib text host generator fps) state = .ok state')
    (hunresolved : state'.unresolved = []) (hinvalid : state'.invalidDuration = []) :
    (∀ entry ∈ entries, ∃ members, Clippable lib generator entry members) ∧
      state.unresolved = [] ∧ state.invalidDuration = [] ∧
      ∃ clips, state'.clips = state.clips ++ clips ∧
        List.Forall₂ (ClipOf lib host generator fps) (mappings entries) clips := by
  induction entries generalizing state start with
  | nil =>
    obtain rfl : state = state' := Except.ok.inj h
    exact ⟨nofun, hunresolved, hinvalid, [], (List.append_nil _).symm, .nil⟩
  | cons entry rest ih =>
    rw [List.zipIdx_cons, List.foldlM_cons] at h
    obtain ⟨next, hnext, hrest⟩ := bind_eq_ok.mp h
    obtain ⟨hclippable, hunresolved', hinvalid', clips, hclips, hrest⟩ := ih (start + 1) hrest
    obtain ⟨members, clip, hentry, hclip, hunresolved, hinvalid, hnext⟩ :=
      clippable_of_clipStep hnext hunresolved' hinvalid'
    have hmappings : mappings (entry :: rest) = members :: mappings rest := by
      rw [hentry.mapping]
      rfl
    refine ⟨List.forall_mem_cons.mpr ⟨⟨members, hentry⟩, hclippable⟩, hunresolved, hinvalid, clip :: clips, ?_, ?_⟩
    · rw [hclips, hnext, List.append_assoc, List.singleton_append]
    · rw [hmappings]
      exact .cons hclip hrest

theorem ClipLoop.close_eq_ok {state : ClipLoop} {clips : List (Clip String)} :
    state.close = .ok clips ↔ state.unresolved = [] ∧ state.invalidDuration = [] ∧ state.clips = clips := by
  unfold close
  by_cases hunresolved : state.unresolved = []
  · by_cases hinvalid : state.invalidDuration = []
    · simp [hunresolved, hinvalid]
    · simp [hunresolved, hinvalid]
  · simp [hunresolved]

/-- The clips that are built are those of the entries, one for each. -/
theorem clippable_of_buildClips {fps : ℕ} {entries : List Value} {clips : List (Clip String)}
    (h : buildClips lib text host generator fps entries = .ok clips) :
    (∀ entry ∈ entries, ∃ members, Clippable lib generator entry members) ∧
      List.Forall₂ (ClipOf lib host generator fps) (mappings entries) clips := by
  obtain ⟨state, hfold, hclose⟩ := bind_eq_ok.mp h
  obtain ⟨hunresolved, hinvalid, rfl⟩ := ClipLoop.close_eq_ok.mp hclose
  obtain ⟨hclippable, -, -, clips, hclips, hforall⟩ := clippable_of_foldlM 0 hfold hunresolved hinvalid
  rw [hclips]
  exact ⟨hclippable, hforall⟩

theorem map_frameCount_of_buildClips {fps : ℕ} {entries : List Value} {clips : List (Clip String)}
    (h : buildClips lib text host generator fps entries = .ok clips) :
    clips.map Clip.frameCount = (mappings entries).map fun members => (clipFrames lib fps members).toNat := by
  have hclips := (clippable_of_buildClips h).2
  rw [← List.forall₂_eq_eq_eq, List.forall₂_map_left_iff, List.forall₂_map_right_iff]
  exact hclips.flip.imp fun _ _ hclip => hclip.frameCount

theorem one_le_clipFrames (lib : ValueLibrary) (fps : ℕ) (members : Dict Value) : 1 ≤ clipFrames lib fps members :=
  le_max_left ..

theorem sum_frameCount {fps : ℕ} {entries : List Value} {clips : List (Clip String)}
    (h : buildClips lib text host generator fps entries = .ok clips) :
    ((clips.map Clip.frameCount).sum : ℤ) = renderedFrames lib fps (mappings entries) := by
  rw [map_frameCount_of_buildClips h, renderedFrames, Nat.cast_list_sum, List.map_map]
  refine congrArg List.sum (List.map_congr_left fun members _ => ?_)
  exact Int.toNat_of_nonneg (zero_le_one.trans (one_le_clipFrames lib fps members))

theorem buildClips_of_clippable (text : TextLibrary) {fps : ℕ} {entries : List Value}
    (hrange : ∀ members ∈ mappings entries, InFloatRange lib (item members "duration_seconds"))
    (hframes : ∀ members ∈ mappings entries, |seconds lib members * fps| < PyFloat.overflow)
    (hsources : ∀ members ∈ mappings entries, Named generator members → resolveSource lib host generator members ≠ none)
    (h : ∀ entry ∈ entries, ∃ members, Clippable lib generator entry members) :
    ∃ clips, buildClips lib text host generator fps entries = .ok clips := by
  obtain ⟨state, hfold, hunresolved, hinvalid⟩ := foldlM_clipStep text {} 0 hrange hframes hsources h
  exact ⟨state.clips, bind_eq_ok.mpr ⟨state, hfold, ClipLoop.close_eq_ok.mpr ⟨hunresolved, hinvalid, rfl⟩⟩⟩

/-- Validation counts the frames of entries that all last some time. -/
theorem countFrames_spec {fps : ℕ} {entries : List (Dict Value)} {count : ℤ}
    (h : countFrames lib fps entries = .ok count) (hlast : ∀ members ∈ entries, 0 < seconds lib members) :
    count = renderedFrames lib fps entries ∧ ∀ members ∈ entries, |seconds lib members * fps| < PyFloat.overflow := by
  suffices hfold : ∀ start : ℤ, entries.foldlM (countEntry lib fps) start = .ok count →
      count = start + renderedFrames lib fps entries ∧
        ∀ members ∈ entries, |seconds lib members * fps| < PyFloat.overflow by
    simpa using hfold 0 h
  clear h
  induction entries with
  | nil =>
    intro start h
    obtain rfl : start = count := Except.ok.inj h
    exact ⟨by simp [renderedFrames], nofun⟩
  | cons members rest ih =>
    intro start h
    obtain ⟨hmembers, hrest⟩ := List.forall_mem_cons.mp hlast
    rw [List.foldlM_cons] at h
    obtain ⟨next, hnext, hfold⟩ := bind_eq_ok.mp h
    obtain ⟨duration, hduration, hstep⟩ := bind_eq_ok.mp hnext
    obtain ⟨-, rfl⟩ := entrySeconds_eq_ok.mp hduration
    rw [if_pos hmembers] at hstep
    obtain ⟨frames, hframes, hnext⟩ := bind_eq_ok.mp hstep
    obtain ⟨hlt, rfl⟩ := entryFrames_eq_ok.mp hframes
    obtain rfl := Except.ok.inj hnext
    obtain ⟨hcount, hlts⟩ := ih hrest _ hfold
    refine ⟨?_, List.forall_mem_cons.mpr ⟨hlt, hlts⟩⟩
    rw [hcount, renderedFrames, renderedFrames, List.map_cons, List.sum_cons, clipFrames]
    ring

/-! ## Subtitles -/

/-- The times of a subtitle that has a text can be read. -/
def Timed (lib : ValueLibrary) (members : Dict Value) : Prop :=
  shownText lib members ≠ "" →
    InFloatRange lib (item members "start_seconds") ∧ InFloatRange lib (item members "end_seconds")

/-- A subtitle is shown for some time. -/
def Shown (lib : ValueLibrary) (members : Dict Value) : Prop :=
  shownText lib members ≠ "" ∧
    floatValue lib (item members "start_seconds") < floatValue lib (item members "end_seconds")

theorem exists_normalizeSubtitle_ok_iff {members : Dict Value} :
    (∃ subtitle, normalizeSubtitle lib members = .ok subtitle) ↔ Timed lib members := by
  unfold normalizeSubtitle Timed
  by_cases hblank : shownText lib members = ""
  · exact ⟨fun _ h => absurd hblank h, fun _ => ⟨none, if_pos hblank⟩⟩
  · constructor
    · rintro ⟨subtitle, h⟩ -
      rw [if_neg hblank] at h
      obtain ⟨start, hstart, h⟩ := bind_eq_ok.mp h
      obtain ⟨stop, hstop, -⟩ := bind_eq_ok.mp h
      exact ⟨exists_asFloat_iff.mp ⟨start, hstart⟩, exists_asFloat_iff.mp ⟨stop, hstop⟩⟩
    · intro h
      obtain ⟨hstart, hstop⟩ := h hblank
      rw [if_neg hblank, asFloat_of_inFloatRange hstart, asFloat_of_inFloatRange hstop]
      exact ⟨_, rfl⟩

theorem normalizeSubtitle_eq_ok {members : Dict Value} {subtitle : Option Subtitle}
    (h : normalizeSubtitle lib members = .ok subtitle) : subtitle.isSome ↔ Shown lib members := by
  unfold normalizeSubtitle at h
  by_cases hblank : shownText lib members = ""
  · obtain rfl : none = subtitle := Except.ok.inj ((if_pos hblank).symm.trans h)
    simp [Shown, hblank]
  · rw [if_neg hblank] at h
    obtain ⟨start, hstart, h⟩ := bind_eq_ok.mp h
    obtain ⟨stop, hstop, h⟩ := bind_eq_ok.mp h
    obtain ⟨-, rfl⟩ := asFloat_eq_ok.mp hstart
    obtain ⟨-, rfl⟩ := asFloat_eq_ok.mp hstop
    obtain rfl := Except.ok.inj h
    split
    next hle => simp [Shown, not_lt.mpr hle]
    next hlt => simp [Shown, hblank, not_le.mp hlt]

/-- Subtitles are normalized exactly when the times of all that have a text can be read. -/
theorem exists_normalizeSubtitles_ok_iff {entries : List Value} :
    (∃ subtitles, normalizeSubtitles lib entries = .ok subtitles) ↔
      ∀ members ∈ mappings entries, Timed lib members := by
  simp only [← exists_normalizeSubtitle_ok_iff]
  rw [← exists_mapM_ok_iff]
  constructor
  · rintro ⟨subtitles, h⟩
    obtain ⟨normalized, hnormalized, -⟩ := bind_eq_ok.mp h
    exact ⟨normalized, hnormalized⟩
  · rintro ⟨normalized, hnormalized⟩
    exact ⟨_, bind_eq_ok.mpr ⟨normalized, hnormalized, rfl⟩⟩

theorem mem_of_mapM {α β ε : Type} {f : β → Except ε α} {items : List β} {values : List α}
    (h : items.mapM f = .ok values) : ∀ a ∈ values, ∃ b ∈ items, f b = .ok a := by
  induction items generalizing values with
  | nil =>
    obtain rfl : [] = values := Except.ok.inj h
    exact nofun
  | cons b rest ih =>
    rw [List.mapM_cons] at h
    obtain ⟨a, ha, h⟩ := bind_eq_ok.mp h
    obtain ⟨others, hothers, h⟩ := bind_eq_ok.mp h
    obtain rfl : a :: others = values := Except.ok.inj h
    refine List.forall_mem_cons.mpr ⟨⟨b, List.mem_cons_self, ha⟩, fun other hother => ?_⟩
    obtain ⟨b', hb', heq⟩ := ih hothers other hother
    exact ⟨b', List.mem_cons_of_mem _ hb', heq⟩

theorem mem_mapM {α β : Type} {f : β → Except Exc α} {items : List β} {values : List α}
    (h : items.mapM f = .ok values) : ∀ b ∈ items, ∃ a ∈ values, f b = .ok a := by
  induction items generalizing values with
  | nil => exact nofun
  | cons b rest ih =>
    rw [List.mapM_cons] at h
    obtain ⟨a, ha, h⟩ := bind_eq_ok.mp h
    obtain ⟨others, hothers, h⟩ := bind_eq_ok.mp h
    obtain rfl : a :: others = values := Except.ok.inj h
    refine List.forall_mem_cons.mpr ⟨⟨a, List.mem_cons_self, ha⟩, fun b' hb' => ?_⟩
    obtain ⟨a', ha', heq⟩ := ih hothers b' hb'
    exact ⟨a', List.mem_cons_of_mem _ ha', heq⟩

/-- Some subtitle is left exactly when one is shown. -/
theorem normalizeSubtitles_ne_nil_iff {entries : List Value} {subtitles : List Subtitle}
    (h : normalizeSubtitles lib entries = .ok subtitles) :
    subtitles ≠ [] ↔ ∃ members ∈ mappings entries, Shown lib members := by
  obtain ⟨normalized, hnormalized, hsorted⟩ := bind_eq_ok.mp h
  obtain rfl := Except.ok.inj hsorted
  have hne : normalized.reduceOption.insertionSort (fun a b => a.le b) ≠ [] ↔ ∃ subtitle, some subtitle ∈ normalized := by
    rw [← List.length_pos_iff_ne_nil, List.length_pos_iff_exists_mem]
    simp only [List.mem_insertionSort, List.reduceOption_mem_iff]
  rw [hne]
  constructor
  · rintro ⟨subtitle, hmem⟩
    obtain ⟨members, hmembers, hok⟩ := mem_of_mapM hnormalized _ hmem
    exact ⟨members, hmembers, (normalizeSubtitle_eq_ok hok).mp rfl⟩
  · rintro ⟨members, hmembers, hshown⟩
    obtain ⟨subtitle, hmem, hok⟩ := mem_mapM hnormalized members hmembers
    obtain ⟨subtitle, rfl⟩ := Option.isSome_iff_exists.mp ((normalizeSubtitle_eq_ok hok).mpr hshown)
    exact ⟨subtitle, hmem⟩

/-- The font of a style can be loaded at its size, and its lines have a height. -/
def Legible (host : AssemblyHost) (size : ℕ × ℕ) (style : SubtitleStyle) : Prop :=
  ∃ font height, styleFont host size.2 style = .ok font ∧ lineHeight font style.lineSpacing = .ok height

theorem exists_buildSubtitleCues_ok_iff {size : ℕ × ℕ} {box : PixelRegion} {style : SubtitleStyle}
    {subtitles : List Subtitle} :
    (∃ cues, buildSubtitleCues host size box style subtitles = .ok cues) ↔ Legible host size style := by
  constructor
  · rintro ⟨cues, h⟩
    obtain ⟨font, hfont, h⟩ := bind_eq_ok.mp h
    obtain ⟨height, hheight, -⟩ := bind_eq_ok.mp h
    exact ⟨font, height, hfont, hheight⟩
  · rintro ⟨font, height, hfont, hheight⟩
    exact ⟨_, bind_eq_ok.mpr ⟨font, hfont, bind_eq_ok.mpr ⟨height, hheight, rfl⟩⟩⟩

/-! ## Audio -/

/-- The sample that an entry of audio starts at. -/
def startsAt (lib : ValueLibrary) (generator : AssemblyGenerator) (members : Dict Value) : ℤ :=
  max 0 (roundHalfEven (floatValue lib (item members "start_seconds") * generator.sampleRate))

/-- The numbers of a music entry can be used, as far as they are: one that starts after the end
is skipped, and so is one without a file. -/
structure Playable (lib : ValueLibrary) (generator : AssemblyGenerator) (totalSamples : ℤ) (members : Dict Value) :
    Prop where
  starts : Scalable lib (item members "start_seconds") generator.sampleRate
  plays : startsAt lib generator members < totalSamples → Named generator members →
    Scalable lib (item members "duration_seconds") generator.sampleRate ∧ InFloatRange lib (item members "gain_db") ∧
      (lib.pow10 (floatValue lib (item members "gain_db") / 20)).isSome

theorem bind_roundScaled_eq_ok {value : Value} {rate : ℕ} {n : ℤ} :
    (do roundScaled (← asFloat lib value) rate) = .ok n ↔
      Scalable lib value rate ∧ roundHalfEven (floatValue lib value * rate) = n := by
  rw [bind_eq_ok]
  simp only [asFloat_eq_ok, roundScaled_eq_ok, Scalable]
  constructor
  · rintro ⟨q, ⟨hrange, rfl⟩, hlt, hn⟩
    exact ⟨⟨hrange, hlt⟩, hn⟩
  · rintro ⟨⟨hrange, hlt⟩, hn⟩
    exact ⟨_, ⟨hrange, rfl⟩, hlt, hn⟩

theorem exists_startSample_ok_iff {members : Dict Value} :
    (∃ start, startSample lib generator members = .ok start) ↔
      Scalable lib (item members "start_seconds") generator.sampleRate := by
  constructor
  · rintro ⟨start, h⟩
    obtain ⟨q, hq, h⟩ := bind_eq_ok.mp h
    obtain ⟨n, hn, -⟩ := bind_eq_ok.mp h
    exact (bind_roundScaled_eq_ok.mp (bind_eq_ok.mpr ⟨q, hq, hn⟩)).1
  · intro h
    obtain ⟨q, hq, hn⟩ := bind_eq_ok.mp (bind_roundScaled_eq_ok.mpr ⟨h, rfl⟩)
    exact ⟨_, bind_eq_ok.mpr ⟨q, hq, bind_eq_ok.mpr ⟨_, hn, rfl⟩⟩⟩

theorem startSample_eq_ok {members : Dict Value} {start : ℤ} (h : startSample lib generator members = .ok start) :
    start = startsAt lib generator members := by
  obtain ⟨q, hq, h⟩ := bind_eq_ok.mp h
  obtain ⟨n, hn, h⟩ := bind_eq_ok.mp h
  obtain ⟨-, rfl⟩ := bind_roundScaled_eq_ok.mp (bind_eq_ok.mpr ⟨q, hq, hn⟩)
  exact (Except.ok.inj h).symm

theorem exists_mixNarration_ok_iff {members : Dict Value} (totalSamples : ℤ) (unresolved : List String) :
    (∃ unresolved', mixNarration lib host generator totalSamples unresolved members = .ok unresolved') ↔
      Scalable lib (item members "start_seconds") generator.sampleRate := by
  rw [← exists_startSample_ok_iff]
  constructor
  · rintro ⟨unresolved', h⟩
    obtain ⟨start, hstart, -⟩ := bind_eq_ok.mp h
    exact ⟨start, hstart⟩
  · rintro ⟨start, hstart⟩
    rw [mixNarration, hstart]
    simp only [Bind.bind, Except.bind]
    split
    · exact ⟨_, rfl⟩
    · split <;> exact ⟨_, rfl⟩

theorem exists_mixMusic_ok_iff {members : Dict Value}
    (hsource : Named generator members → resolveSource lib host generator members ≠ none) (totalSamples : ℤ)
    (unresolved : List String) :
    (∃ unresolved', mixMusic lib host generator totalSamples unresolved members = .ok unresolved') ↔
      Playable lib generator totalSamples members := by
  constructor
  · rintro ⟨unresolved', h⟩
    obtain ⟨start, hstart, h⟩ := bind_eq_ok.mp h
    refine ⟨exists_startSample_ok_iff.mp ⟨start, hstart⟩, fun hbefore hnamed => ?_⟩
    obtain rfl := startSample_eq_ok hstart
    rw [if_neg (by omega)] at h
    split at h
    next hnone => exact absurd hnone (hsource hnamed)
    next =>
      obtain ⟨duration, hduration, h⟩ := bind_eq_ok.mp h
      obtain ⟨wanted, hwanted, h⟩ := bind_eq_ok.mp h
      obtain ⟨gain, hgain, h⟩ := bind_eq_ok.mp h
      obtain ⟨hrange, rfl⟩ := asFloat_eq_ok.mp hgain
      refine ⟨(bind_roundScaled_eq_ok.mp (bind_eq_ok.mpr ⟨duration, hduration, hwanted⟩)).1, hrange, ?_⟩
      split at h
      · cases h
      next hpow => rw [hpow, Option.isSome_some]
  · intro h
    obtain ⟨start, hstart⟩ := exists_startSample_ok_iff.mpr h.starts
    obtain rfl := startSample_eq_ok hstart
    rw [mixMusic, hstart]
    simp only [Bind.bind, Except.bind]
    split
    · exact ⟨_, rfl⟩
    next hbefore =>
      split
      · exact ⟨_, rfl⟩
      next source hfound =>
        have hnamed : Named generator members := by
          by_contra hnot
          rw [resolveSource_of_not_named hnot] at hfound
          cases hfound
        obtain ⟨⟨hduration, hlt⟩, hgain, hpow⟩ := h.plays (by omega) hnamed
        obtain ⟨factor, hpow⟩ := Option.isSome_iff_exists.mp hpow
        rw [asFloat_of_inFloatRange hduration, asFloat_of_inFloatRange hgain]
        simp only [roundScaled_eq_ok.mpr ⟨hlt, rfl⟩, hpow]
        exact ⟨_, rfl⟩

/-- The samples of a delivery. -/
def totalSamples (generator : AssemblyGenerator) (totalSeconds : ℚ) : ℤ :=
  max 1 (roundHalfEven (totalSeconds * generator.sampleRate))

/-- A delivery of ten minutes at most is within the budget of the mix. -/
theorem totalSamples_le (generator : AssemblyGenerator) {totalSeconds : ℚ} (h : totalSeconds ≤ maxTotalDurationSeconds) :
    totalSamples generator totalSeconds ≤ maxAudioMixSampleFrames := by
  have hrate : (generator.sampleRate : ℚ) ≤ 48000 := by exact_mod_cast generator.sampleRate_le
  have hpos : (0 : ℚ) ≤ generator.sampleRate := Nat.cast_nonneg _
  have hround : roundHalfEven (totalSeconds * generator.sampleRate) ≤ maxAudioMixSampleFrames := by
    refine roundHalfEven_le ?_
    have hmul : totalSeconds * generator.sampleRate ≤ 600 * generator.sampleRate :=
      mul_le_mul_of_nonneg_right h hpos
    have hbudget : ((maxAudioMixSampleFrames : ℤ) : ℚ) = 600 * 48000 := by norm_num [maxAudioMixSampleFrames]
    rw [hbudget]
    linarith
  exact max_le (by decide) hround

/-- The mix succeeds exactly when the delivery is not too long and every number it uses is
usable. -/
theorem exists_buildAudioMix_ok_iff {totalSeconds : ℚ}
    (hsource : ∀ members ∈ mappings (request.track "music"),
      Named generator members → resolveSource lib host generator members ≠ none) :
    (∃ unresolved, buildAudioMix lib host generator request.tracks totalSeconds = .ok unresolved) ↔
      totalSeconds ≤ maxTotalDurationSeconds ∧
        (∀ members ∈ mappings (request.track "narration"),
          Scalable lib (item members "start_seconds") generator.sampleRate) ∧
        ∀ members ∈ mappings (request.track "music"),
          Playable lib generator (totalSamples generator totalSeconds) members := by
  have hnarration (unresolved : List String) :
      (∃ unresolved', (mappings (request.track "narration")).foldlM
        (mixNarration lib host generator (totalSamples generator totalSeconds)) unresolved = .ok unresolved') ↔
          ∀ members ∈ mappings (request.track "narration"),
            Scalable lib (item members "start_seconds") generator.sampleRate := by
    refine exists_foldlM_ok_iff ?_ unresolved
    exact fun unresolved members _ => exists_mixNarration_ok_iff _ unresolved
  have hmusic (unresolved : List String) :
      (∃ unresolved', (mappings (request.track "music")).foldlM
        (mixMusic lib host generator (totalSamples generator totalSeconds)) unresolved = .ok unresolved') ↔
          ∀ members ∈ mappings (request.track "music"),
            Playable lib generator (totalSamples generator totalSeconds) members := by
    refine exists_foldlM_ok_iff ?_ unresolved
    exact fun unresolved members hmem => exists_mixMusic_ok_iff (hsource members hmem) _ unresolved
  unfold buildAudioMix
  simp only
  by_cases hlong : maxTotalDurationSeconds < totalSeconds ∨
      maxAudioMixSampleFrames < max 1 (roundHalfEven (totalSeconds * generator.sampleRate))
  · rw [if_pos hlong]
    have hnot : ¬totalSeconds ≤ maxTotalDurationSeconds := by
      intro hle
      rcases hlong with hlt | hlt
      · exact absurd hle (not_le.mpr hlt)
      · exact absurd (totalSamples_le generator hle) (not_le.mpr hlt)
    exact ⟨fun ⟨_, h⟩ => (nomatch h), fun h => absurd h.1 hnot⟩
  · rw [if_neg hlong]
    rw [not_or, not_lt] at hlong
    constructor
    · rintro ⟨unresolved', h⟩
      obtain ⟨unresolved, hfirst, hsecond⟩ := bind_eq_ok.mp h
      exact ⟨hlong.1, (hnarration []).mp ⟨unresolved, hfirst⟩, (hmusic unresolved).mp ⟨unresolved', hsecond⟩⟩
    · rintro ⟨-, hstarts, hplays⟩
      obtain ⟨unresolved, hfirst⟩ := (hnarration []).mpr hstarts
      obtain ⟨unresolved', hsecond⟩ := (hmusic unresolved).mpr hplays
      exact ⟨unresolved', bind_eq_ok.mpr ⟨unresolved, hfirst, hsecond⟩⟩

/-! ## The whole render -/

/-- The seconds of video that the visual track renders to. -/
def renderedSeconds (lib : ValueLibrary) (request : AssemblyRequest) : ℚ :=
  renderedFrames lib (request.fps lib) (mappings (request.track "visual")) / request.fps lib

/-- What validation does not see to. -/
structure Renderable (lib : ValueLibrary) (host : AssemblyHost) (generator : AssemblyGenerator)
    (request : AssemblyRequest) : Prop where
  visual : ∀ entry ∈ request.track "visual", ∃ members, Clippable lib generator entry members
  /-- The frames of the clips, each rounded on its own, fit into ten minutes. -/
  duration : renderedSeconds lib request ≤ maxTotalDurationSeconds
  subtitles : ∀ members ∈ mappings (request.track "subtitles"), Timed lib members
  legible : (∃ members ∈ mappings (request.track "subtitles"), Shown lib members) →
    ∀ size style, resolveResolution lib request.timeline = .ok size →
      SubtitleStyle.fromParams lib (item request.params "subtitle_style") = .ok style → Legible host size style
  narration : ∀ members ∈ mappings (request.track "narration"),
    Scalable lib (item members "start_seconds") generator.sampleRate
  music : ∀ members ∈ mappings (request.track "music"),
    Playable lib generator (totalSamples generator (renderedSeconds lib request)) members

theorem exists_subtitleCues_ok_iff {size : ℕ × ℕ} {style : SubtitleStyle} {safeArea : SafeAreaPreset}
    {subtitles : List Subtitle} (hbox : subtitles ≠ [] → ∃ box, resolveSubtitleBox lib safeArea size style = .ok box) :
    (∃ cues, subtitleCues lib host safeArea size style subtitles = .ok cues) ↔
      (subtitles ≠ [] → Legible host size style) := by
  unfold subtitleCues
  by_cases hnil : subtitles = []
  · rw [if_pos hnil]
    exact ⟨fun _ h => absurd hnil h, fun _ => ⟨[], rfl⟩⟩
  · rw [if_neg hnil]
    obtain ⟨box, hbox⟩ := hbox hnil
    have hcues : (∃ cues, buildSubtitleCues host size box style subtitles = .ok cues) ↔ Legible host size style :=
      exists_buildSubtitleCues_ok_iff
    rw [← hcues]
    constructor
    · rintro ⟨cues, h⟩ -
      obtain ⟨box', hbox', h⟩ := bind_eq_ok.mp h
      obtain rfl : box = box' := Except.ok.inj (hbox.symm.trans hbox')
      exact ⟨cues, h⟩
    · intro h
      obtain ⟨cues, hok⟩ := h hnil
      exact ⟨cues, bind_eq_ok.mpr ⟨box, hbox, hok⟩⟩

/-- The entries that become clips, with what validation has counted of them. -/
theorem renderedFrames_of_accepted {size : ℕ × ℕ} {style : SubtitleStyle} {safeArea : SafeAreaPreset}
    (h : Accepted lib request size style safeArea)
    (hvisual : ∀ entry ∈ request.track "visual", ∃ members, Clippable lib generator entry members) :
    countFrames lib (request.fps lib) (mappings (request.track "visual")) =
        .ok (renderedFrames lib (request.fps lib) (mappings (request.track "visual"))) ∧
      ∀ members ∈ mappings (request.track "visual"), |seconds lib members * request.fps lib| < PyFloat.overflow := by
  have hlast : ∀ members ∈ mappings (request.track "visual"), 0 < seconds lib members := by
    intro members hmem
    obtain ⟨entry, hentry, hobj⟩ := List.mem_filterMap.mp hmem
    obtain ⟨members', hclip⟩ := hvisual entry hentry
    rw [hclip.mapping] at hobj
    obtain rfl : members' = members := Option.some.inj hobj
    exact hclip.lasts
  obtain ⟨count, hcount, -⟩ := h.frames
  obtain ⟨rfl, hframes⟩ := countFrames_spec hcount hlast
  exact ⟨hcount, hframes⟩

/-- An accepted request has a place for the subtitles that it shows. -/
theorem Accepted.box_of_ne_nil {size : ℕ × ℕ} {style : SubtitleStyle} {safeArea : SafeAreaPreset}
    (h : Accepted lib request size style safeArea) {subtitles : List Subtitle}
    (hsubtitles : normalizeSubtitles lib (request.track "subtitles") = .ok subtitles) (hne : subtitles ≠ []) :
    ∃ box, resolveSubtitleBox lib safeArea size style = .ok box := by
  obtain ⟨members, hmem, -⟩ := (normalizeSubtitles_ne_nil_iff hsubtitles).mp hne
  apply h.box
  intro hnil
  rw [hnil] at hmem
  cases hmem

/-- Before the mix, an accepted request gets as far as its clips and its cues. -/
theorem exists_generate_ok_iff {size : ℕ × ℕ} {style : SubtitleStyle} {safeArea : SafeAreaPreset}
    (h : Accepted lib request size style safeArea) {delivery : Delivery} :
    generate lib text host generator request = .ok delivery ↔
      ∃ clips subtitles cues unresolved,
        buildClips lib text host generator (request.fps lib) (request.track "visual") = .ok clips ∧
        normalizeSubtitles lib (request.track "subtitles") = .ok subtitles ∧
        subtitleCues lib host safeArea size style subtitles = .ok cues ∧
        buildAudioMix lib host generator request.tracks ((clips.map Clip.frameCount).sum / request.fps lib) =
          .ok unresolved ∧
        delivery = ⟨size, request.fps lib, clips, cues, unresolved⟩ := by
  unfold generate
  rw [h.visual]
  simp only [bind_eq_ok, h.resolution, h.rate, h.styled, h.preset, Except.ok.injEq, exists_eq_left']
  constructor
  · rintro ⟨clips, hclips, subtitles, hsubtitles, cues, hcues, unresolved, hmix, hdelivery⟩
    exact ⟨clips, subtitles, cues, unresolved, hclips, hsubtitles, hcues, hmix, (Except.ok.inj hdelivery).symm⟩
  · rintro ⟨clips, subtitles, cues, unresolved, hclips, hsubtitles, hcues, hmix, rfl⟩
    exact ⟨clips, hclips, subtitles, hsubtitles, cues, hcues, unresolved, hmix, rfl⟩

end

/-! ## Two timelines -/

/-- A library that prints texts only, and knows that a gain of thousands is too loud. -/
def plainValues : ValueLibrary where
  str
    | .str s => s
    | _ => ""
  repr _ := ""
  general _ := ""
  fixed4 _ := ""
  parseFloat _ := none
  pow10 x := if x < 308 then some 1 else none
  str_str _ := rfl

/-- A host where every file is there and no font is found. -/
def plainHost : AssemblyHost where
  isFile _ := true
  truetype _ _ := .error .os
  defaultFont _ := .ok ⟨10, fun line => 8 * line.length⟩

/-- A generator that finds every asset. -/
def plainGenerator : AssemblyGenerator where
  assetPathLookup := some fun asset => some asset

/-- An entry of the visual track. -/
def still (asset : String) (duration : ℚ) : Value :=
  .obj [("asset_id", .str asset), ("duration_seconds", .float (.finite duration))]

/-- A request for a timeline of these visual entries. -/
def assemblyOf (visual : List Value) : AssemblyRequest where
  params := [("timeline", .obj [("fps", .int 30), ("tracks", .obj [("visual", .arr visual)])])]

theorem assetsResolve_assemblyOf {visual : List Value}
    (h : ∀ members ∈ mappings visual, resolveSource plainValues plainHost plainGenerator members ≠ none)
    (hvisual : (assemblyOf visual).track "visual" = visual) :
    AssetsResolve plainValues plainHost plainGenerator (assemblyOf visual) := by
  intro name hname members hmem _
  simp only [List.mem_cons, List.not_mem_nil, or_false] at hname
  rcases hname with rfl | rfl | rfl
  · rw [hvisual] at hmem
    exact h members hmem
  · cases hmem
  · cases hmem

end CreativeStudio.Video
