import CreativeStudio.Schemas.Values

/-!
# Safe areas

Three presets, one for each aspect ratio, say which part of a frame a platform leaves free and
where in it subtitles go, as fractions of the frame.
-/

namespace CreativeStudio.Video
open Data

/-- `SafeAreaInsets`. -/
structure SafeAreaInsets where
  top : ℚ
  right : ℚ
  bottom : ℚ
  left : ℚ
  deriving DecidableEq, Repr

/-- `PixelRegion`. -/
structure PixelRegion where
  x : ℤ
  y : ℤ
  width : ℤ
  height : ℤ
  deriving DecidableEq, Repr

/-- `SafeAreaPreset`, without the region for other content than subtitles. -/
structure SafeAreaPreset where
  presetId : String
  ratioWidth : ℕ
  ratioHeight : ℕ
  subtitleSafe : SafeAreaInsets
  deriving DecidableEq, Repr

/-- `_region_to_pixels` of the region inside the insets. -/
def SafeAreaInsets.toPixels (insets : SafeAreaInsets) (width height : ℕ) : PixelRegion :=
  let left := ⌊insets.left * width⌋
  let top := ⌊insets.top * height⌋
  { x := left
    y := top
    width := max 0 (⌊(1 - insets.right) * width⌋ - left)
    height := max 0 (⌊(1 - insets.bottom) * height⌋ - top) }

/-- `VERTICAL_9_16`. -/
def vertical9x16 : SafeAreaPreset := ⟨"vertical_9x16", 9, 16, ⟨72 / 100, 12 / 100, 18 / 100, 5 / 100⟩⟩

/-- `HORIZONTAL_16_9`. -/
def horizontal16x9 : SafeAreaPreset := ⟨"horizontal_16x9", 16, 9, ⟨78 / 100, 5 / 100, 10 / 100, 5 / 100⟩⟩

/-- `SQUARE_1_1`. -/
def square1x1 : SafeAreaPreset := ⟨"square_1x1", 1, 1, ⟨75 / 100, 8 / 100, 12 / 100, 8 / 100⟩⟩

/-- `SAFE_AREA_PRESETS`. -/
def safeAreaPresets : List SafeAreaPreset := [vertical9x16, horizontal16x9, square1x1]

/-- The ids of the presets, as the messages list them. -/
def presetIds : String := "horizontal_16x9, square_1x1, vertical_9x16"

/-- `get_safe_area_preset`. -/
def getSafeAreaPreset (lib : ValueLibrary) (presetId : String) : Except Exc SafeAreaPreset :=
  match safeAreaPresets.find? fun preset => preset.presetId = presetId with
  | some preset => .ok preset
  | none => .error (.value s!"Unknown safe-area preset id {lib.repr (.str presetId)}; expected one of {presetIds}.")

/-- How far a frame is from the aspect ratio of a preset. -/
def SafeAreaPreset.deviation (preset : SafeAreaPreset) (width height : ℕ) : ℚ :=
  |(width / height) / (preset.ratioWidth / preset.ratioHeight) - 1|

/-- `resolve_preset_for_resolution`: the first of the presets that deviate least. -/
def resolvePresetForResolution (lib : ValueLibrary) (width height : ℕ) : Except Exc SafeAreaPreset :=
  let nearer (best preset : SafeAreaPreset) :=
    if preset.deviation width height < best.deviation width height then preset else best
  let best := [horizontal16x9, square1x1].foldl nearer vertical9x16
  if best.deviation width height ≤ 2 / 100 then .ok best
  else .error (.value (s!"No safe-area preset matches resolution {width}x{height} (aspect ratio " ++
    s!"{lib.fixed4 (width / height)}) within tolerance; supported presets: {presetIds}."))

end CreativeStudio.Video
