import CreativeStudio.Video.Render

/-!
# The files that a render opens

The sources of the clips are opened once everything that is shown is laid out, and those of the audio
entry by entry, until one raises. A file that cannot be decoded ends a render too, so that what is
opened then is the beginning of what is said here.
-/

namespace CreativeStudio.Video
open Data Story

section
variable (lib : ValueLibrary) (text : TextLibrary) (host : AssemblyHost) (generator : AssemblyGenerator)

/-- What `generate` has when the video is rendered. -/
structure Layout where
  tracks : Dict Value
  size : ℕ × ℕ
  fps : ℕ
  clips : List (Clip String)
  cues : List SubtitleCue

/-- `duration_rendered`. -/
def Layout.seconds (layout : Layout) : ℚ := (layout.clips.map Clip.frameCount).sum / layout.fps

/-- `generate`, up to the video. -/
def layOut (request : AssemblyRequest) : Except Exc Layout := do
  let (timeline, tracks, visual) ← visualTrack request
  let size ← resolveResolution lib timeline
  let fps := framesPerSecond (← asFloat lib (item timeline "fps"))
  let clips ← buildClips lib text host generator fps visual
  let style ← SubtitleStyle.fromParams lib (item request.params "subtitle_style")
  let safeArea ← resolveSafeArea lib (item request.params "safe_area_preset_id") size
  let subtitles ← normalizeSubtitles lib ((listOr (item tracks "subtitles")).getD [])
  let cues ← subtitleCues lib host safeArea size style subtitles
  return { tracks, size, fps, clips, cues }

/-- The file that the turn of an audio entry finds, if it starts before the end. -/
def soundFile (totalSamples : ℤ) (members : Dict Value) : Option String :=
  match startSample lib generator members with
  | .ok start => if totalSamples - start ≤ 0 then none else resolveSource lib host generator members
  | .error _ => none

/-- The file that the turn of a music entry opens: how much is wanted of it is read before. -/
def musicFile (totalSamples : ℤ) (members : Dict Value) : Option String :=
  match (do roundScaled (← asFloat lib (item members "duration_seconds")) generator.sampleRate) with
  | .ok _ => soundFile lib host generator totalSamples members
  | .error _ => none

/-- The files that the turns of some entries open, up to the first that raises. -/
def openedBy (file : Dict Value → Option String) (turn : List String → Dict Value → Except Exc (List String))
    (unresolved : List String) : List (Dict Value) → List String
  | [] => []
  | members :: rest => (file members).toList ++
      match turn unresolved members with
      | .ok unresolved => openedBy file turn unresolved rest
      | .error _ => []

/-- The files that `_build_audio_mix` opens. -/
def openedSounds (tracks : Dict Value) (totalSeconds : ℚ) : List String :=
  let samples := totalSamples generator totalSeconds
  let entries (track : String) := mappings ((listOr (item tracks track)).getD [])
  if maxTotalDurationSeconds < totalSeconds ∨ maxAudioMixSampleFrames < samples then []
  else
    openedBy (soundFile lib host generator samples) (mixNarration lib host generator samples) []
        (entries "narration") ++
      match (entries "narration").foldlM (mixNarration lib host generator samples) [] with
      | .ok unresolved =>
        openedBy (musicFile lib host generator samples) (mixMusic lib host generator samples) unresolved
          (entries "music")
      | .error _ => []

/-- The files that the job of a request opens: it is validated first. -/
def openedFiles (request : AssemblyRequest) : List String :=
  match validateRequest lib request with
  | .error _ => []
  | .ok () => match layOut lib text host generator request with
    | .error _ => []
    | .ok layout => layout.clips.map Clip.source ++ openedSounds lib host generator layout.tracks layout.seconds

/-- What is laid out is rendered, and the audio is mixed last. -/
theorem generate_eq (request : AssemblyRequest) :
    generate lib text host generator request = do
      let layout ← layOut lib text host generator request
      let unresolvedAudio ← buildAudioMix lib host generator layout.tracks layout.seconds
      return { size := layout.size, fps := layout.fps, clips := layout.clips, cues := layout.cues,
               unresolvedAudio } := by
  simp only [generate, layOut, bind_assoc, pure_bind]
  rfl

end

section
variable {lib : ValueLibrary} {text : TextLibrary} {host : AssemblyHost} {generator : AssemblyGenerator}
  {request : AssemblyRequest} {path : String}

/-! ## One entry after the other -/

theorem mem_of_mem_openedBy {file : Dict Value → Option String}
    {turn : List String → Dict Value → Except Exc (List String)} {unresolved : List String}
    {entries : List (Dict Value)} (h : path ∈ openedBy file turn unresolved entries) :
    ∃ members ∈ entries, file members = some path := by
  induction entries generalizing unresolved with
  | nil => cases h
  | cons members rest ih =>
    rw [openedBy, List.mem_append] at h
    rcases h with hfirst | hrest
    · exact ⟨members, List.mem_cons_self .., Option.mem_toList.mp hfirst⟩
    · split at hrest
      · obtain ⟨other, hmem, hfile⟩ := ih hrest
        exact ⟨other, List.mem_cons_of_mem _ hmem, hfile⟩
      · cases hrest

/-- Entries none of which raises are all opened. -/
theorem mem_openedBy_iff {file : Dict Value → Option String}
    {turn : List String → Dict Value → Except Exc (List String)} {unresolved unresolved' : List String}
    {entries : List (Dict Value)} (h : entries.foldlM turn unresolved = .ok unresolved') :
    path ∈ openedBy file turn unresolved entries ↔ ∃ members ∈ entries, file members = some path := by
  refine ⟨mem_of_mem_openedBy, ?_⟩
  induction entries generalizing unresolved with
  | nil => simp
  | cons members rest ih =>
    rw [List.foldlM_cons] at h
    obtain ⟨next, hnext, hrest⟩ := bind_eq_ok.mp h
    rintro ⟨other, hmem, hfile⟩
    rw [openedBy, hnext, List.mem_append]
    rcases List.mem_cons.mp hmem with rfl | hmem
    · exact .inl (Option.mem_toList.mpr hfile)
    · exact .inr (ih hrest ⟨other, hmem, hfile⟩)

theorem resolveSource_of_soundFile {samples : ℤ} {members : Dict Value}
    (h : soundFile lib host generator samples members = some path) :
    resolveSource lib host generator members = some path := by
  unfold soundFile at h
  split at h
  · split at h
    · cases h
    · exact h
  · cases h

theorem soundFile_of_musicFile {samples : ℤ} {members : Dict Value}
    (h : musicFile lib host generator samples members = some path) :
    soundFile lib host generator samples members = some path := by
  unfold musicFile at h
  split at h
  · exact h
  · cases h

/-- An entry whose start can be read opens its file exactly when it starts before the end. -/
theorem soundFile_eq_some {samples : ℤ} {members : Dict Value}
    (h : Scalable lib (item members "start_seconds") generator.sampleRate) :
    soundFile lib host generator samples members = some path ↔
      startsAt lib generator members < samples ∧ resolveSource lib host generator members = some path := by
  obtain ⟨start, hstart⟩ := exists_startSample_ok_iff.mpr h
  obtain rfl := startSample_eq_ok hstart
  rw [soundFile, hstart]
  simp only
  split
  · exact ⟨nofun, fun hboth => by omega⟩
  · exact ⟨fun hsource => ⟨by omega, hsource⟩, And.right⟩

/-! ## What is opened -/

/-- The sources of the clips are those of the entries, one for each. -/
theorem mem_map_source_iff {fps : ℕ} {entries : List (Dict Value)} {clips : List (Clip String)}
    (h : List.Forall₂ (ClipOf lib host generator fps) entries clips) :
    path ∈ clips.map Clip.source ↔ ∃ members ∈ entries, resolveSource lib host generator members = some path := by
  induction h with
  | nil => simp
  | cons hclip _ ih =>
    rw [List.map_cons, List.mem_cons, ih, List.exists_mem_cons_iff, hclip.source, Option.some.injEq, eq_comm]

/-- What an accepted request is laid out as. -/
theorem layOut_eq_ok {size : ℕ × ℕ} {style : SubtitleStyle} {safeArea : SafeAreaPreset}
    (h : Accepted lib request size style safeArea) {layout : Layout}
    (hlayout : layOut lib text host generator request = .ok layout) :
    layout.tracks = request.tracks ∧ layout.fps = request.fps lib ∧
      buildClips lib text host generator (request.fps lib) (request.track "visual") = .ok layout.clips := by
  unfold layOut at hlayout
  rw [h.visual] at hlayout
  simp only [bind_eq_ok, h.resolution, h.rate, h.styled, h.preset, Except.ok.injEq, exists_eq_left'] at hlayout
  obtain ⟨clips, hclips, _, _, cues, _, hlayout⟩ := hlayout
  obtain rfl := Except.ok.inj hlayout
  exact ⟨rfl, rfl, hclips⟩

/-- A video lasts as long as the entries of its visual track, frame by frame. -/
theorem Layout.seconds_eq {layout : Layout} (hfps : layout.fps = request.fps lib)
    (hclips : buildClips lib text host generator (request.fps lib) (request.track "visual") = .ok layout.clips) :
    layout.seconds = renderedSeconds lib request := by
  rw [Layout.seconds, renderedSeconds, hfps, ← sum_frameCount hclips, Int.cast_natCast]

/-- Every file that is opened is that of an entry. -/
theorem exists_of_mem_openedFiles (h : path ∈ openedFiles lib text host generator request) :
    ∃ track ∈ ["visual", "narration", "music"], ∃ members ∈ mappings (request.track track),
      resolveSource lib host generator members = some path := by
  unfold openedFiles at h
  split at h
  · cases h
  next hvalid =>
    obtain ⟨size, style, safeArea, haccepted⟩ := accepted_of_validateRequest hvalid
    split at h
    · cases h
    next layout hlayout =>
      obtain ⟨htracks, -, hclips⟩ := layOut_eq_ok haccepted hlayout
      rw [List.mem_append] at h
      rcases h with hvisual | hsound
      · exact ⟨"visual", by simp, (mem_map_source_iff (clippable_of_buildClips hclips).2).mp hvisual⟩
      · rw [htracks, openedSounds] at hsound
        simp only at hsound
        split at hsound
        · cases hsound
        · rcases List.mem_append.mp hsound with hnarration | hmusic
          · obtain ⟨members, hmem, hfile⟩ := mem_of_mem_openedBy hnarration
            exact ⟨"narration", by simp, members, hmem, resolveSource_of_soundFile hfile⟩
          · split at hmusic
            · obtain ⟨members, hmem, hfile⟩ := mem_of_mem_openedBy hmusic
              exact ⟨"music", by simp, members, hmem, resolveSource_of_soundFile (soundFile_of_musicFile hfile)⟩
            · cases hmusic

/-- A music entry whose turn does not raise opens the file that it has. -/
theorem musicFile_eq_some {samples : ℤ} {members : Dict Value} {unresolved unresolved' : List String}
    (h : mixMusic lib host generator samples unresolved members = .ok unresolved') :
    musicFile lib host generator samples members = some path ↔
      startsAt lib generator members < samples ∧ resolveSource lib host generator members = some path := by
  obtain ⟨start, hstart, h⟩ := bind_eq_ok.mp h
  have hstarts := exists_startSample_ok_iff.mp ⟨start, hstart⟩
  rw [← soundFile_eq_some hstarts]
  refine ⟨soundFile_of_musicFile, fun hsound => ?_⟩
  obtain ⟨hbefore, hsource⟩ := (soundFile_eq_some hstarts).mp hsound
  obtain rfl := startSample_eq_ok hstart
  rw [if_neg (by omega), hsource] at h
  obtain ⟨duration, hduration, h⟩ := bind_eq_ok.mp h
  obtain ⟨wanted, hwanted, -⟩ := bind_eq_ok.mp h
  rw [musicFile, bind_eq_ok.mpr ⟨duration, hduration, hwanted⟩]
  exact hsound

/-- A mix that is made is within its budget, and no turn of its entries raises. -/
theorem buildAudioMix_eq_ok {tracks : Dict Value} {totalSeconds : ℚ} {unresolved : List String}
    (h : buildAudioMix lib host generator tracks totalSeconds = .ok unresolved) :
    ¬(maxTotalDurationSeconds < totalSeconds ∨ maxAudioMixSampleFrames < totalSamples generator totalSeconds) ∧
      ∃ first, (mappings ((listOr (item tracks "narration")).getD [])).foldlM
          (mixNarration lib host generator (totalSamples generator totalSeconds)) [] = .ok first ∧
        (mappings ((listOr (item tracks "music")).getD [])).foldlM
          (mixMusic lib host generator (totalSamples generator totalSeconds)) first = .ok unresolved := by
  unfold buildAudioMix at h
  simp only at h
  split at h
  · cases h
  next hbudget => exact ⟨hbudget, bind_eq_ok.mp h⟩

/-- A mix that is made opens the file of every entry that starts before the end. -/
theorem mem_openedSounds_iff {totalSeconds : ℚ} {unresolved : List String}
    (h : buildAudioMix lib host generator request.tracks totalSeconds = .ok unresolved) :
    path ∈ openedSounds lib host generator request.tracks totalSeconds ↔
      ∃ members, (members ∈ mappings (request.track "narration") ∨ members ∈ mappings (request.track "music")) ∧
        startsAt lib generator members < totalSamples generator totalSeconds ∧
          resolveSource lib host generator members = some path := by
  obtain ⟨hbudget, first, hnarration, hmusic⟩ := buildAudioMix_eq_ok h
  have hstarts : ∀ members ∈ mappings (request.track "narration"),
      Scalable lib (item members "start_seconds") generator.sampleRate :=
    forall_of_foldlM_ok (fun unresolved members _ unresolved' hturn =>
      (exists_mixNarration_ok_iff _ unresolved).mp ⟨unresolved', hturn⟩) hnarration
  have hplays : ∀ members ∈ mappings (request.track "music"),
      musicFile lib host generator (totalSamples generator totalSeconds) members = some path ↔
        startsAt lib generator members < totalSamples generator totalSeconds ∧
          resolveSource lib host generator members = some path :=
    forall_of_foldlM_ok (fun _ _ _ _ hturn => musicFile_eq_some hturn) hmusic
  unfold openedSounds
  simp only
  rw [if_neg hbudget, hnarration, List.mem_append, mem_openedBy_iff hnarration, mem_openedBy_iff hmusic]
  constructor
  · rintro (⟨members, hmem, hfile⟩ | ⟨members, hmem, hfile⟩)
    · exact ⟨members, .inl hmem, (soundFile_eq_some (hstarts members hmem)).mp hfile⟩
    · exact ⟨members, .inr hmem, (hplays members hmem).mp hfile⟩
  · rintro ⟨members, hmem | hmem, hfile⟩
    · exact .inl ⟨members, hmem, (soundFile_eq_some (hstarts members hmem)).mpr hfile⟩
    · exact .inr ⟨members, hmem, (hplays members hmem).mpr hfile⟩

/-- An entry of a track is rendered: all that is shown is, and what is heard if it starts before the end. -/
def Rendered (lib : ValueLibrary) (generator : AssemblyGenerator) (request : AssemblyRequest) (members : Dict Value) :
    Prop :=
  members ∈ mappings (request.track "visual") ∨
    (members ∈ mappings (request.track "narration") ∨ members ∈ mappings (request.track "music")) ∧
      startsAt lib generator members < totalSamples generator (renderedSeconds lib request)

/-- Where a video is delivered, the files of all entries that are rendered are opened. -/
theorem mem_openedFiles_iff {delivery : Delivery} (hvalid : validateRequest lib request = .ok ())
    (h : generate lib text host generator request = .ok delivery) :
    path ∈ openedFiles lib text host generator request ↔
      ∃ members, Rendered lib generator request members ∧ resolveSource lib host generator members = some path := by
  obtain ⟨size, style, safeArea, haccepted⟩ := accepted_of_validateRequest hvalid
  rw [generate_eq] at h
  obtain ⟨layout, hlayout, h⟩ := bind_eq_ok.mp h
  obtain ⟨unresolved, hmix, -⟩ := bind_eq_ok.mp h
  obtain ⟨htracks, hfps, hclips⟩ := layOut_eq_ok haccepted hlayout
  rw [htracks, Layout.seconds_eq hfps hclips] at hmix
  unfold openedFiles Rendered
  rw [hvalid, hlayout]
  simp only
  rw [htracks, Layout.seconds_eq hfps hclips, List.mem_append, mem_map_source_iff (clippable_of_buildClips hclips).2,
    mem_openedSounds_iff hmix]
  constructor
  · rintro (⟨members, hmem, hsource⟩ | ⟨members, hmem, hbefore, hsource⟩)
    · exact ⟨members, .inl hmem, hsource⟩
    · exact ⟨members, .inr ⟨hmem, hbefore⟩, hsource⟩
  · rintro ⟨members, hmem | ⟨hmem, hbefore⟩, hsource⟩
    · exact .inl ⟨members, hmem, hsource⟩
    · exact .inr ⟨members, hmem, hbefore, hsource⟩

end

theorem mem_openedFiles_oneStill : ∃ delivery,
    generate plainValues plainLibrary plainHost plainGenerator (assemblyOf [still "asset_1" 5]) = .ok delivery ∧
    ∀ path, path ∈ openedFiles plainValues plainLibrary plainHost plainGenerator (assemblyOf [still "asset_1" 5]) ↔
      ∃ members, Rendered plainValues plainGenerator (assemblyOf [still "asset_1" 5]) members ∧
        resolveSource plainValues plainHost plainGenerator members = some path := by
  have hsome : (generate plainValues plainLibrary plainHost plainGenerator
      (assemblyOf [still "asset_1" 5])).toOption.isSome := by decide +kernel
  obtain ⟨delivery, hdelivery⟩ := Option.isSome_iff_exists.mp hsome
  have hgenerate := ok_of_toOption hdelivery
  exact ⟨delivery, hgenerate, fun path => mem_openedFiles_iff (by decide +kernel) hgenerate⟩

end CreativeStudio.Video
