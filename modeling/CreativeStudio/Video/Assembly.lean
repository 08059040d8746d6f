import CreativeStudio.Schemas.Values
import CreativeStudio.Story.TextUtils
import CreativeStudio.Video.Frames
import CreativeStudio.Video.LineBreaking
import CreativeStudio.Video.SafeArea

/-!
# The assembly generator

A timeline arrives as JSON. It is validated first, which bounds what a render may cost, and
rendered then: clips, subtitle cues, the video, and last the audio mix, which checks the
duration of the rendered video again. What decodes, draws, mixes and encodes is left out.
-/

namespace CreativeStudio.Video
open Data Story

/-- A font at a size, as far as text is laid out with it. -/
structure Font where
  /-- The height of `"Ag"`. -/
  glyphHeight : ℚ
  /-- `draw.textlength`. -/
  textLength : Text → ℚ

/-- What loading a font raises. -/
inductive FontFailure
  | os
  | raised (e : Exc)

/-- What the generator finds outside. -/
structure AssemblyHost where
  /-- `candidate.is_file()`. -/
  isFile : String → Bool
  /-- `ImageFont.truetype`. -/
  truetype : String → ℤ → Except FontFailure Font
  /-- `ImageFont.load_default`. -/
  defaultFont : ℤ → Except Exc Font

/-- `AssemblyGenerator`. -/
structure AssemblyGenerator where
  assetPathLookup : Option (String → Option String) := none
  sampleRate : ℕ := 44100
  allowDirectPaths : Bool := true
  sampleRate_pos : 0 < sampleRate := by decide
  sampleRate_le : sampleRate ≤ 48000 := by decide

/-- What the generator reads of a request. -/
structure AssemblyRequest where
  mediaType : String := "video"
  outputFormat : Option String := none
  params : Dict Value

/-! ## Limits -/

def maxOutputDimension : ℤ := 4096
def maxOutputPixels : ℤ := 4096 * 2160
def maxFps : ℚ := 60
def maxScenes : ℕ := 300
def maxTotalDurationSeconds : ℚ := 600
def maxFrameCount : ℤ := 36000
def maxSubtitleEntries : ℕ := 5000
def maxSubtitleCharacters : ℕ := 2000
def maxTotalSubtitleCharacters : ℕ := 100000
def maxAudioEntries : ℕ := 1000
def maxAudioMixSampleFrames : ℤ := 600 * 48000

section
variable (lib : ValueLibrary)

/-- `mapping.get(key)`. -/
def item (members : Dict Value) (key : String) : Value := (members.get? key).getD .null

/-- `value or alternative`. -/
def orElse (value alternative : Value) : Value := if value.truthy then value else alternative

/-- The entries of a track that is a list or missing. -/
def listOr (value : Value) : Option (List Value) :=
  match orElse value (.arr []) with
  | .arr entries => some entries
  | _ => none

/-- The entries that are mappings. -/
def mappings (entries : List Value) : List (Dict Value) := entries.filterMap JsonOf.obj?

/-! ## Subtitle style -/

/-- `SubtitleStyle`. -/
structure SubtitleStyle where
  fontPath : Option String := none
  fontSizeRatio : ℚ := 55 / 1000
  minFontPixels : ℤ := 10
  outlinePx : ℤ := 2
  lineSpacing : ℚ := 145 / 100
  align : String := "center"
  fill : ℤ × ℤ × ℤ := (255, 255, 255)
  outlineFill : ℤ × ℤ × ℤ := (0, 0, 0)
  deriving DecidableEq, Repr

/-- `_style_positive_number`. -/
def stylePositiveNumber (raw : Dict Value) (field : String) (default : ℚ) : Except Exc ℚ :=
  let rejected (value : Value) := Exc.value s!"subtitle_style.{field} must be a positive number; got {lib.repr value}."
  match raw.get? field with
  | none => .ok default
  | some (.bool b) => .error (rejected (.bool b))
  | some value =>
    match toPyFloat lib value with
    | .ok (.finite q) => if q ≤ 0 then .error (rejected value) else .ok q
    | .ok _ | .error .unreadable => .error (rejected value)
    | .error .overflow => .error (.other "int too large to convert to float")

/-- `_style_int`. -/
def styleInt : Value → Option ℤ
  | .int n => some n
  | .float (.finite q) => if q.den = 1 then some q.num else none
  | _ => none

/-- `_style_positive_int` and `_style_nonnegative_int`, which differ in their least value and in
what they call it. -/
def styleBoundedInt (least : ℤ) (what : String) (raw : Dict Value) (field : String) (default : ℤ) : Except Exc ℤ :=
  match raw.get? field with
  | none => .ok default
  | some value =>
    match (styleInt value).filter fun n => least ≤ n with
    | some n => .ok n
    | none => .error (.value s!"subtitle_style.{field} must be a {what} integer; got {lib.repr value}.")

def stylePositiveInt := styleBoundedInt lib 1 "positive"

def styleNonnegativeInt := styleBoundedInt lib 0 "non-negative"

/-- `_style_color`. -/
def styleColor (raw : Dict Value) (field : String) (default : ℤ × ℤ × ℤ) : Except Exc (ℤ × ℤ × ℤ) :=
  match raw.get? field with
  | none => .ok default
  | some value =>
    let channel (value : Value) := (styleInt value).filter fun n => 0 ≤ n ∧ n ≤ 255
    match value with
    | .arr [r, g, b] =>
      match channel r, channel g, channel b with
      | some r, some g, some b => .ok (r, g, b)
      | _, _, _ => .error (.value (s!"subtitle_style.{field} must be an [r, g, b] triple with " ++
          s!"each channel 0-255; got {lib.repr value}."))
    | _ => .error (.value (s!"subtitle_style.{field} must be an [r, g, b] triple with each " ++
        s!"channel 0-255; got {lib.repr value}."))

/-- The fields of a style, sorted. -/
def styleFields : List String :=
  ["align", "fill", "font_path", "font_size_ratio", "line_spacing", "min_font_pixels", "outline_fill", "outline_px"]

/-- `SubtitleStyle.from_params`. -/
def SubtitleStyle.fromParams (raw : Value) : Except Exc SubtitleStyle :=
  match raw with
  | .null => .ok {}
  | .obj raw => do
    let unknown := ((raw.map Prod.fst).filter fun name => name ∉ styleFields).dedup.insertionSort (· ≤ ·)
    if unknown ≠ [] then
      throw (.value (s!"params['subtitle_style'] has unknown field(s) {lib.repr (.arr (unknown.map .str))}; " ++
        s!"expected one of {lib.repr (.arr (styleFields.map .str))}."))
    let fontPath ← match item raw "font_path" with
      | .null => pure none
      | .str path => pure (some path)
      | path => throw (.value s!"subtitle_style.font_path must be a string; got {lib.repr path}.")
    let align ← match (Dict.get? raw "align").getD (.str "center") with
      | .str align =>
        if align ∈ ["left", "center", "right"] then pure align
        else throw (.value (s!"subtitle_style.align must be one of ['center', 'left', 'right']; " ++
          s!"got {lib.repr (.str align)}."))
      | align => throw (.value (s!"subtitle_style.align must be one of ['center', 'left', 'right']; " ++
          s!"got {lib.repr align}."))
    let fontSizeRatio ← stylePositiveNumber lib raw "font_size_ratio" (55 / 1000)
    let minFontPixels ← stylePositiveInt lib raw "min_font_pixels" 10
    let outlinePx ← styleNonnegativeInt lib raw "outline_px" 2
    let lineSpacing ← stylePositiveNumber lib raw "line_spacing" (145 / 100)
    let fill ← styleColor lib raw "fill" (255, 255, 255)
    let outlineFill ← styleColor lib raw "outline_fill" (0, 0, 0)
    return { fontPath, fontSizeRatio, minFontPixels, outlinePx, lineSpacing, align, fill, outlineFill }
  | raw => .error (.value (s!"params['subtitle_style'] must be a mapping of style fields; got {typeName raw}."))

/-! ## Inputs -/

/-- `_resolve_resolution`. -/
def resolveResolution (timeline : Dict Value) : Except Exc (ℕ × ℕ) :=
  match orElse (item timeline "resolution") (.arr [.int 1920, .int 1080]) with
  | .arr [rawWidth, rawHeight] => do
    let width := truncate (← asFloat lib rawWidth)
    let height := truncate (← asFloat lib rawHeight)
    if width < 2 ∨ height < 2 then
      throw (.value s!"Timeline resolution must be at least 2x2 pixels; got {width}x{height}.")
    if maxOutputDimension < width ∨ maxOutputDimension < height then
      throw (.value (s!"Timeline resolution exceeds the maximum dimension of {maxOutputDimension} pixels; " ++
        s!"got {width}x{height}."))
    -- the encoder needs even dimensions
    let width := width + width % 2
    let height := height + height % 2
    if maxOutputPixels < width * height then
      throw (.value (s!"Timeline resolution exceeds the maximum pixel count of {maxOutputPixels}; " ++
        s!"got {width}x{height}."))
    return (width.toNat, height.toNat)
  | raw => .error (.value s!"Timeline resolution must be a [width, height] pair; got {lib.repr raw}.")

/-- `max(1, int(fps))` of what `_as_float` makes of it. -/
def framesPerSecond (fps : ℚ) : ℕ := (max 1 (truncate fps)).toNat

/-- The frames of an entry that lasts some time. -/
def entryFrames (fps : ℕ) (duration : ℚ) : Except Exc ℤ := (roundScaled duration fps).map fun frames => max 1 frames

/-- `_resolve_safe_area`. -/
def resolveSafeArea (presetId : Value) (size : ℕ × ℕ) : Except Exc SafeAreaPreset :=
  match presetId with
  | .null => resolvePresetForResolution lib size.1 size.2
  | .str id =>
    if strip id = "" then
      .error (.value (s!"params['safe_area_preset_id'] must be a non-empty string when provided; " ++
        s!"got {lib.repr presetId}."))
    else getSafeAreaPreset lib id
  | _ => .error (.value (s!"params['safe_area_preset_id'] must be a non-empty string when provided; " ++
      s!"got {lib.repr presetId}."))

/-- `_inset_pixel_region`. -/
def insetPixelRegion (region : PixelRegion) (inset : ℤ) : PixelRegion :=
  let inset := max 0 inset
  { x := region.x + inset, y := region.y + inset
    width := max 0 (region.width - 2 * inset), height := max 0 (region.height - 2 * inset) }

/-- `_resolve_subtitle_box`. -/
def resolveSubtitleBox (safeArea : SafeAreaPreset) (size : ℕ × ℕ) (style : SubtitleStyle) : Except Exc PixelRegion :=
  let subtitle := safeArea.subtitleSafe.toPixels size.1 size.2
  let box := insetPixelRegion subtitle style.outlinePx
  if box.width ≤ 0 ∨ box.height ≤ 0 then
    .error (.value (s!"Safe-area preset {lib.repr (.str safeArea.presetId)} resolves to a subtitle region too small " ++
      s!"to render text with outline_px={style.outlinePx} at {size.1}x{size.2}px (region {subtitle.width}x" ++
      s!"{subtitle.height}px); choose a smaller outline_px, a larger resolution, or a different safe-area preset."))
  else .ok box

/-! ## Validation -/

/-- The seconds of an entry, as `_as_float` reads them. -/
def entrySeconds (members : Dict Value) : Except Exc ℚ := asFloat lib (item members "duration_seconds")

/-- The frames that validation counts for one more entry. -/
def countEntry (fps : ℕ) (total : ℤ) (members : Dict Value) : Except Exc ℤ := do
  let duration ← entrySeconds lib members
  if 0 < duration then return total + (← entryFrames fps duration) else return total

/-- The frames that validation counts: entries that are no mappings or last no time are skipped. -/
def countFrames (fps : ℕ) (entries : List (Dict Value)) : Except Exc ℤ := entries.foldlM (countEntry lib fps) 0

/-- The checks of the subtitles track, up to what it has. -/
def validateSubtitles (tracks : Dict Value) : Except Exc (List Value) :=
  match listOr (item tracks "subtitles") with
  | none => .error (.value "Timeline subtitles track must be a list.")
  | some entries =>
    let lengths := (mappings entries).map fun members => (lib.str (orElse (item members "text") (.str ""))).length
    if maxSubtitleEntries < entries.length then
      .error (.value (s!"Timeline subtitle entry count exceeds the maximum of {maxSubtitleEntries}; " ++
        s!"got {entries.length}."))
    else match lengths.find? fun length => maxSubtitleCharacters < length with
      | some length => .error (.value (s!"Timeline subtitle length exceeds the per-entry maximum of " ++
          s!"{maxSubtitleCharacters} characters; got {length}."))
      | none =>
        if maxTotalSubtitleCharacters < lengths.sum then
          .error (.value (s!"Timeline total subtitle length exceeds the maximum of " ++
            s!"{maxTotalSubtitleCharacters} characters; got {lengths.sum}."))
        else .ok entries

/-- The number of entries of an audio track. -/
def countAudio (tracks : Dict Value) (track : String) : Except Exc ℕ :=
  match listOr (item tracks track) with
  | some entries => .ok entries.length
  | none => .error (.value s!"Timeline {track} track must be a list.")

/-- The visual track of a timeline that has one. -/
def visualTrack (request : AssemblyRequest) : Except Exc (Dict Value × Dict Value × List Value) :=
  match item request.params "timeline" with
  | .obj (field :: fields) =>
    let timeline := field :: fields
    match item timeline "tracks" with
    | .obj tracks =>
      match item tracks "visual" with
      | .arr (entry :: entries) => .ok (timeline, tracks, entry :: entries)
      | _ => .error (.value "Timeline visual track is empty: there is nothing to render.")
    | _ => .error (.value ("Timeline is missing its 'tracks' mapping; expected keys visual, narration, music, " ++
        "subtitles."))
  | _ => .error (.value ("AssemblyGenerator requires params['timeline'] built by " ++
      "core.story.timeline.build_timeline."))

/-- The checks of the frame rate. -/
def validateFps (timeline : Dict Value) : Except Exc ℚ := do
  let raw := item timeline "fps"
  let fps ← asFloat lib raw
  if fps ≤ 0 then throw (.value s!"Timeline fps must be a positive number; got {lib.repr raw}.")
  if maxFps < fps then
    throw (.value s!"Timeline fps exceeds the maximum of 60; got {lib.general (.finite fps)}.")
  return fps

/-- The checks of the total duration. -/
def validateDuration (entries : List (Dict Value)) : Except Exc Unit := do
  let total ← entries.foldlM (fun total members => do
    return PyFloat.add total (.finite (← entrySeconds lib members))) (0 : PyFloat)
  if total.nonpos then
    throw (.value "Timeline total duration is zero: every visual entry needs a positive duration_seconds.")
  if total.exceeds maxTotalDurationSeconds then
    throw (.value s!"Timeline total duration exceeds the maximum of 600 seconds; got {lib.general total}.")

/-- The checks of the request's own fields. -/
def validateMedia (request : AssemblyRequest) : Except Exc Unit := do
  if request.mediaType ≠ "video" then
    throw (.value s!"AssemblyGenerator only supports video requests; got {lib.repr (.str request.mediaType)}.")
  match request.outputFormat with
  | none => return
  | some format =>
    if format ≠ "" ∧ format.toLower ≠ "mp4" then
      throw (.value s!"AssemblyGenerator delivers mp4 output only; got {lib.repr (.str format)}.")

/-- `validate_request`. -/
def validateRequest (request : AssemblyRequest) : Except Exc Unit := do
  validateMedia lib request
  let (timeline, tracks, visual) ← visualTrack request
  let fps ← validateFps lib timeline
  let size ← resolveResolution lib timeline
  if maxScenes < visual.length then
    throw (.value s!"Timeline visual scene count exceeds the maximum of {maxScenes}; got {visual.length}.")
  validateDuration lib (mappings visual)
  let frameCount ← countFrames lib (framesPerSecond fps) (mappings visual)
  if maxFrameCount < frameCount then
    throw (.value s!"Timeline frame count exceeds the maximum of {maxFrameCount}; got {frameCount}.")
  let subtitles ← validateSubtitles lib tracks
  let narrationCount ← countAudio tracks "narration"
  let musicCount ← countAudio tracks "music"
  if maxAudioEntries < narrationCount + musicCount then
    throw (.value (s!"Timeline audio entry count exceeds the maximum of {maxAudioEntries}; " ++
      s!"got {narrationCount + musicCount}."))
  let style ← SubtitleStyle.fromParams lib (item request.params "subtitle_style")
  let safeArea ← resolveSafeArea lib (item request.params "safe_area_preset_id") size
  if subtitles ≠ [] then
    let _ ← resolveSubtitleBox lib safeArea size style

/-! ## Rendering -/

section
variable (text : TextLibrary) (host : AssemblyHost) (generator : AssemblyGenerator)

/-- `_resolve_source`. -/
def resolveSource (members : Dict Value) : Option String :=
  let assetId := item members "asset_id"
  let looked := match generator.assetPathLookup with
    | some lookup => if assetId.truthy then (lookup (lib.str assetId)).filter fun path => path ≠ "" else none
    | none => none
  match looked.filter host.isFile with
  | some path => some path
  | none =>
    let rawPath := item members "path"
    if generator.allowDirectPaths && rawPath.truthy && host.isFile (lib.str rawPath) then some (lib.str rawPath)
    else none

/-- `_normalize_motion`. -/
def normalizeClipMotion (raw : Value) : String :=
  let motion := text.lower (strip (lib.str (orElse raw (.str "none"))))
  if motion ∈ ["none", "ken_burns_in", "ken_burns_out", "pan_left", "pan_right"] then motion else "none"

/-- The clip of an entry with a source. -/
def buildClip (members : Dict Value) (sceneId source : String) (frames : ℤ) : Clip String where
  sceneId
  source
  frameCount := frames.toNat
  transition := text.lower (strip (lib.str (orElse (item members "transition") (.str "cut"))))
  motion := normalizeClipMotion lib text (item members "motion")

/-- The variables of the loop of `_build_clips`. -/
structure ClipLoop where
  clips : List (Clip String) := []
  unresolved : List String := []
  invalidDuration : List String := []

/-- The body of the loop of `_build_clips`. -/
def clipStep (fps : ℕ) (state : ClipLoop) (entry : Value × ℕ) : Except Exc ClipLoop :=
  match entry.1 with
  | .obj members => do
    let assetId := item members "asset_id"
    let sceneId := lib.str (orElse (item members "scene_id") (orElse assetId (.str s!"#{entry.2}")))
    let duration ← entrySeconds lib members
    if duration ≤ 0 then return { state with invalidDuration := state.invalidDuration ++ [sceneId] }
    match resolveSource lib host generator members with
    | none =>
      return { state with unresolved := state.unresolved ++ [s!"{sceneId} (asset_id={lib.repr assetId})"] }
    | some source =>
      let frames ← entryFrames fps duration
      return { state with clips := state.clips ++ [buildClip lib text members sceneId source frames] }
  | value => .error (.value s!"Timeline visual entry #{entry.2} must be a mapping; got {lib.repr value}.")

/-- The clips, unless the loop has found something wrong. -/
def ClipLoop.close (state : ClipLoop) : Except Exc (List (Clip String)) :=
  if state.unresolved ≠ [] then
    .error (.value ("Cannot assemble the timeline: no readable visual file for scenes: " ++
      ", ".intercalate state.unresolved))
  else if state.invalidDuration ≠ [] then
    .error (.value ("Cannot assemble the timeline: duration_seconds must be positive for scenes: " ++
      ", ".intercalate state.invalidDuration))
  else .ok state.clips

/-- `_build_clips`. -/
def buildClips (fps : ℕ) (entries : List Value) : Except Exc (List (Clip String)) := do
  let state ← entries.zipIdx.foldlM (clipStep lib text host generator fps) {}
  state.close

/-- A subtitle with the time it is shown. -/
structure Subtitle where
  start : ℚ
  stop : ℚ
  text : String
  deriving DecidableEq

/-- The text that a subtitle shows. -/
def shownText (members : Dict Value) : String := strip (lib.str (orElse (item members "text") (.str "")))

/-- The body of the loop of `_normalize_subtitles`. -/
def normalizeSubtitle (members : Dict Value) : Except Exc (Option Subtitle) :=
  if shownText lib members = "" then .ok none
  else do
    let start ← asFloat lib (item members "start_seconds")
    let stop ← asFloat lib (item members "end_seconds")
    return if stop ≤ start then none else some { start, stop, text := shownText lib members }

/-- The order of the tuples that subtitles are. -/
def Subtitle.le (a b : Subtitle) : Bool :=
  a.start < b.start || (a.start = b.start && (a.stop < b.stop || (a.stop = b.stop && a.text ≤ b.text)))

/-- `_normalize_subtitles`. -/
def normalizeSubtitles (entries : List Value) : Except Exc (List Subtitle) := do
  let normalized ← (mappings entries).mapM (normalizeSubtitle lib)
  return normalized.reduceOption.insertionSort fun a b => a.le b

/-- `_FONT_CANDIDATES`. -/
def fontCandidates : List String :=
  ["NotoSansCJK-Regular.ttc", "NotoSansJP-Regular.otf", "/usr/share/fonts/opentype/noto/NotoSansCJK-Regular.ttc",
    "/usr/share/fonts/opentype/noto/NotoSansCJKjp-Regular.otf", "/System/Library/Fonts/Hiragino Sans GB.ttc",
    "Arial Unicode.ttf", "/Library/Fonts/Arial Unicode.ttf", "Arial.ttf", "Helvetica.ttc", "DejaVuSans.ttf"]

/-- The loop of `_load_font`. -/
def tryFonts (size : ℤ) : List String → Except Exc Font
  | [] => host.defaultFont size
  | name :: rest =>
    match host.truetype name size with
    | .ok font => .ok font
    | .error .os => tryFonts size rest
    | .error (.raised e) => .error e

/-- `_load_font`. -/
def loadFont (size : ℤ) (fontPath : Option String) : Except Exc Font :=
  tryFonts host size (((fontPath.filter fun path => path ≠ "").toList) ++ fontCandidates)

/-- `_font`, without its cache. -/
def styleFont (frameHeight : ℕ) (style : SubtitleStyle) : Except Exc Font := do
  let size ← roundScaled style.fontSizeRatio frameHeight
  loadFont host (max style.minFontPixels size) style.fontPath

/-- `_line_height`. -/
def lineHeight (font : Font) (spacing : ℚ) : Except Exc ℤ :=
  if PyFloat.overflow ≤ |font.glyphHeight * spacing| then
    .error (.other "cannot convert float infinity to integer")
  else .ok (max 1 (truncate (font.glyphHeight * spacing)))

/-- The loop of `_break_characters`. -/
def breakCharacters (font : Font) (maxWidth : ℚ) (current : Text) : Text → List Text
  | [] => if current = [] then [] else [current]
  | c :: rest =>
    if current ≠ [] ∧ maxWidth < font.textLength (current ++ [c]) then
      current :: breakCharacters font maxWidth [c] rest
    else breakCharacters font maxWidth (current ++ [c]) rest

/-- The first loop of `_wrap_text`. -/
def wrapWords (font : Font) (maxWidth : ℚ) (current : Text) : List Text → List Text
  | [] => if current = [] then [] else [current]
  | word :: rest =>
    let candidate := if current = [] then word else current ++ ' ' :: word
    if current ≠ [] ∧ maxWidth < font.textLength candidate then current :: wrapWords font maxWidth word rest
    else wrapWords font maxWidth candidate rest

/-- `_wrap_text`. -/
def wrapText (font : Font) (maxWidth : ℚ) (text : Text) : List Text :=
  (wrapWords font maxWidth [] (splitWords text)).flatMap fun line =>
    if font.textLength line ≤ maxWidth then [line] else breakCharacters font maxWidth [] line

/-- `_SubtitleCue`. -/
structure SubtitleCue where
  start : ℚ
  stop : ℚ
  lines : List Text

/-- `_build_subtitle_cues`. -/
def buildSubtitleCues (size : ℕ × ℕ) (box : PixelRegion) (style : SubtitleStyle) (entries : List Subtitle) :
    Except Exc (List SubtitleCue) := do
  let font ← styleFont host size.2 style
  let height ← lineHeight font style.lineSpacing
  let maxLines := (max 1 (box.height / max 1 height)).toNat
  return entries.filterMap fun entry =>
    let segments := ((unifyNewlines entry.text.toList).splitOn '\n').map stripText
    let wrapped := (segments.filter fun segment => segment ≠ []).flatMap (wrapText font box.width)
    let lines := (applyKinsokuRules wrapped).take maxLines
    if lines = [] then none else some { start := entry.start, stop := entry.stop, lines }

/-- The cues of a request, which needs no place for them when it has none. -/
def subtitleCues (safeArea : SafeAreaPreset) (size : ℕ × ℕ) (style : SubtitleStyle) (subtitles : List Subtitle) :
    Except Exc (List SubtitleCue) :=
  if subtitles = [] then .ok [] else do
    let box ← resolveSubtitleBox lib safeArea size style
    buildSubtitleCues host size box style subtitles

/-- The sample that an audio entry starts at. -/
def startSample (members : Dict Value) : Except Exc ℤ := do
  return max 0 (← roundScaled (← asFloat lib (item members "start_seconds")) generator.sampleRate)

/-- The turn of a narration entry in `_build_audio_mix`: the assets that are not found. -/
def mixNarration (totalSamples : ℤ) (unresolved : List String) (members : Dict Value) : Except Exc (List String) := do
  let start ← startSample lib generator members
  if totalSamples - start ≤ 0 then return unresolved
  match resolveSource lib host generator members with
  | none => return unresolved ++ [lib.str (orElse (item members "asset_id") (item members "scene_id"))]
  | some _ => return unresolved

/-- The turn of a music entry in `_build_audio_mix`: how much is wanted of it and how loud. -/
def mixMusic (totalSamples : ℤ) (unresolved : List String) (members : Dict Value) : Except Exc (List String) := do
  let start ← startSample lib generator members
  if totalSamples - start ≤ 0 then return unresolved
  match resolveSource lib host generator members with
  | none => return unresolved ++ [lib.str (item members "asset_id")]
  | some _ =>
    let _wanted ← roundScaled (← asFloat lib (item members "duration_seconds")) generator.sampleRate
    let gainDb ← asFloat lib (item members "gain_db")
    match lib.pow10 (gainDb / 20) with
    | none => throw (.other "(34, 'Numerical result out of range')")
    | some _ => return unresolved

/-- `_build_audio_mix`, without the samples. -/
def buildAudioMix (tracks : Dict Value) (totalSeconds : ℚ) : Except Exc (List String) := do
  let totalSamples := max 1 (roundHalfEven (totalSeconds * generator.sampleRate))
  if maxTotalDurationSeconds < totalSeconds ∨ maxAudioMixSampleFrames < totalSamples then
    throw (.value s!"Audio mix exceeds the bounded sample budget of {maxAudioMixSampleFrames} stereo frames.")
  let entries (track : String) := mappings ((listOr (item tracks track)).getD [])
  let unresolved ← (entries "narration").foldlM (mixNarration lib host generator totalSamples) []
  (entries "music").foldlM (mixMusic lib host generator totalSamples) unresolved

/-- What is delivered. -/
structure Delivery where
  size : ℕ × ℕ
  fps : ℕ
  clips : List (Clip String)
  cues : List SubtitleCue
  unresolvedAudio : List String

/-- `frame_total`. -/
def Delivery.frameTotal (delivery : Delivery) : ℕ := (delivery.clips.map Clip.frameCount).sum

/-- `generate` of a request with a visual track. The encoder works. -/
def generate (request : AssemblyRequest) : Except Exc Delivery := do
  let (timeline, tracks, visual) ← visualTrack request
  let size ← resolveResolution lib timeline
  let fps := framesPerSecond (← asFloat lib (item timeline "fps"))
  let clips ← buildClips lib text host generator fps visual
  let style ← SubtitleStyle.fromParams lib (item request.params "subtitle_style")
  let safeArea ← resolveSafeArea lib (item request.params "safe_area_preset_id") size
  let subtitles ← normalizeSubtitles lib ((listOr (item tracks "subtitles")).getD [])
  let cues ← subtitleCues lib host safeArea size style subtitles
  -- the video is rendered and encoded here, before the audio is looked at
  let frameTotal := (clips.map Clip.frameCount).sum
  let unresolvedAudio ← buildAudioMix lib host generator tracks (frameTotal / fps)
  return { size, fps, clips, cues, unresolvedAudio }

end

end

end CreativeStudio.Video
