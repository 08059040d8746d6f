import CreativeStudio.Video.Render

/-!
# What the limits of validation admit

Where a timeline says its numbers, validation accepts it exactly when it is within each limit. Seconds are
added up as floats; the limit on frames keeps every sum of them in the range of floats.
-/

namespace CreativeStudio.Video
open Data Story

/-! ## Seconds and frames -/

/-- The frames that validation counts for an entry of some duration. -/
def countedFrames (fps : ℕ) (duration : ℚ) : ℤ :=
  if 0 < duration then max 1 (roundHalfEven (duration * fps)) else 0

theorem countedFrames_nonneg (fps : ℕ) (duration : ℚ) : 0 ≤ countedFrames fps duration := by
  unfold countedFrames
  split <;> omega

/-- A duration is at most twice its frames, at any rate. -/
theorem scaled_le_countedFrames {fps : ℕ} {duration : ℚ} (h : 0 < duration) :
    duration * fps ≤ 2 * countedFrames fps duration := by
  have hfloor := le_roundHalfEven (Int.floor_le (duration * fps))
  have hround : ⌊duration * fps⌋ + 1 ≤ 2 * max 1 (roundHalfEven (duration * fps)) := by omega
  have hlt := Int.lt_floor_add_one (duration * fps)
  have hcast : ((⌊duration * fps⌋ + 1 : ℤ) : ℚ) ≤ ((2 * max 1 (roundHalfEven (duration * fps)) : ℤ) : ℚ) :=
    Int.cast_le.mpr hround
  rw [countedFrames, if_pos h]
  push_cast at hcast ⊢
  linarith

theorem max_zero_le_countedFrames {fps : ℕ} (hfps : 1 ≤ fps) (duration : ℚ) :
    max 0 duration ≤ 2 * countedFrames fps duration := by
  rcases le_or_gt duration 0 with hle | hlt
  · rw [max_eq_left hle]
    have hnonneg : (0 : ℚ) ≤ countedFrames fps duration := by exact_mod_cast countedFrames_nonneg fps duration
    linarith
  · rw [max_eq_right hlt.le]
    have hrate : (1 : ℚ) ≤ fps := by exact_mod_cast hfps
    have hscaled := @scaled_le_countedFrames fps duration hlt
    have hmul : duration * 1 ≤ duration * fps := mul_le_mul_of_nonneg_left hrate hlt.le
    linarith

section
variable {lib : ValueLibrary} {entries : List (Dict Value)} {durations : List ℚ} {fps : ℕ}

/-- A sum of floats is out of range, or the sum of the numbers. -/
theorem foldlM_entrySeconds (hread : entries.map (entrySeconds lib) = durations.map .ok) (total : PyFloat) :
    entries.foldlM (fun total members => do
      return PyFloat.add total (.finite (← entrySeconds lib members))) total =
        .ok ((durations.map PyFloat.finite).foldl (· + ·) total) := by
  induction durations generalizing entries total with
  | nil =>
    obtain rfl := List.map_eq_nil_iff.mp hread
    rfl
  | cons duration rest ih =>
    obtain ⟨members, others, rfl, hmembers, hothers⟩ := List.map_eq_cons_iff.mp hread
    rw [List.foldlM_cons, hmembers]
    exact ih hothers _

/-- The seconds add up to a number between the limits. -/
theorem validateDuration_eq_ok (hread : entries.map (entrySeconds lib) = durations.map .ok) :
    validateDuration lib entries = .ok () ↔ ∃ total, (durations.map PyFloat.finite).foldl (· + ·) 0 = .finite total ∧
      0 < total ∧ total ≤ maxTotalDurationSeconds := by
  have hnan : (durations.map PyFloat.finite).foldl (· + ·) 0 ≠ .nan :=
    PyFloat.foldl_add_ne_nan (fun h => by cases h) durations
  unfold validateDuration
  rw [foldlM_entrySeconds hread]
  generalize (durations.map PyFloat.finite).foldl (· + ·) 0 = total at hnan
  constructor
  · intro h
    obtain ⟨_, hsome, hrest⟩ := bind_eq_ok.mp h
    obtain rfl := Except.ok.inj hsome
    by_cases hpos : total.nonpos
    · rw [if_pos hpos] at hrest
      cases hrest
    rw [if_neg hpos] at hrest
    by_cases hbound : total.exceeds maxTotalDurationSeconds
    · rw [if_pos hbound] at hrest
      cases hrest
    cases total with
    | finite q => exact ⟨q, rfl, by simpa [PyFloat.nonpos] using hpos, by simpa [PyFloat.exceeds] using hbound⟩
    | nan => exact absurd rfl hnan
    | posInf => exact absurd rfl hbound
    | negInf => exact absurd rfl hpos
  · rintro ⟨q, rfl, hpos, hbound⟩
    refine bind_eq_ok.mpr ⟨_, rfl, ?_⟩
    rw [if_neg (by simpa [PyFloat.nonpos] using hpos), if_neg (by simpa [PyFloat.exceeds] using hbound)]
    rfl

/-- The frames of what lasts are counted while each product is in range. -/
theorem countFrames_eq_ok (hread : entries.map (entrySeconds lib) = durations.map .ok) {count : ℤ} :
    countFrames lib fps entries = .ok count ↔
      (∀ duration ∈ durations, 0 < duration → |duration * fps| < PyFloat.overflow) ∧
        (durations.map (countedFrames fps)).sum = count := by
  suffices hfold : ∀ start : ℤ, entries.foldlM (countEntry lib fps) start = .ok count ↔
      (∀ duration ∈ durations, 0 < duration → |duration * fps| < PyFloat.overflow) ∧
        start + (durations.map (countedFrames fps)).sum = count by
    have hzero := hfold 0
    rwa [zero_add] at hzero
  induction durations generalizing entries with
  | nil =>
    obtain rfl := List.map_eq_nil_iff.mp hread
    intro start
    simp [pure, Except.pure]
  | cons duration rest ih =>
    obtain ⟨members, others, rfl, hmembers, hothers⟩ := List.map_eq_cons_iff.mp hread
    intro start
    rw [List.foldlM_cons, List.forall_mem_cons, List.map_cons, List.sum_cons, ← add_assoc, countedFrames]
    by_cases hlast : 0 < duration
    · have hstep : countEntry lib fps start members = (entryFrames fps duration).map (start + ·) := by
        rw [countEntry, hmembers]
        change (if 0 < duration then _ else _) = _
        rw [if_pos hlast]
        cases entryFrames fps duration <;> rfl
      rw [if_pos hlast, hstep]
      constructor
      · intro h
        obtain ⟨next, hnext, hrest⟩ := bind_eq_ok.mp h
        obtain ⟨frames, hframes, rfl⟩ := ok_of_map hnext
        obtain ⟨hlt, rfl⟩ := entryFrames_eq_ok.mp hframes
        obtain ⟨hlts, hsum⟩ := (ih hothers _).mp hrest
        exact ⟨⟨fun _ => hlt, hlts⟩, hsum⟩
      · rintro ⟨⟨hlt, hlts⟩, hsum⟩
        rw [entryFrames_eq_ok.mpr ⟨hlt hlast, rfl⟩]
        exact (ih hothers _).mpr ⟨hlts, hsum⟩
    · have hstep : countEntry lib fps start members = .ok start := by
        rw [countEntry, hmembers]
        change (if 0 < duration then _ else _) = _
        rw [if_neg hlast]
        rfl
      rw [if_neg hlast, hstep, add_zero]
      constructor
      · intro h
        obtain ⟨hlts, hsum⟩ := (ih hothers start).mp h
        exact ⟨⟨fun hlt => absurd hlt hlast, hlts⟩, hsum⟩
      · rintro ⟨⟨-, hlts⟩, hsum⟩
        exact (ih hothers start).mpr ⟨hlts, hsum⟩

end

/-- The seconds and the frames of a timeline are within their limits. -/
structure WithinTime (fps : ℕ) (durations : List ℚ) : Prop where
  lasts : 0 < durations.sum
  seconds : durations.sum ≤ maxTotalDurationSeconds
  frames : (durations.map (countedFrames fps)).sum ≤ maxFrameCount

section
variable {fps : ℕ} {durations : List ℚ}

theorem WithinTime.perm (h : WithinTime fps durations) {others : List ℚ} (hperm : durations.Perm others) :
    WithinTime fps others where
  lasts := by
    rw [← hperm.sum_eq]
    exact h.lasts
  seconds := by
    rw [← hperm.sum_eq]
    exact h.seconds
  frames := by
    rw [← (hperm.map _).sum_eq]
    exact h.frames

theorem sum_max_add_sum_min (durations : List ℚ) :
    (durations.map (max 0)).sum + (durations.map (min 0)).sum = durations.sum := by
  induction durations with
  | nil => simp
  | cons duration rest ih =>
    have hsplit := max_add_min 0 duration
    rw [List.map_cons, List.map_cons, List.sum_cons, List.sum_cons, List.sum_cons, ← ih]
    linarith

theorem sum_max_le_countedFrames (hfps : 1 ≤ fps) (durations : List ℚ) :
    (durations.map (max 0)).sum ≤ 2 * (durations.map (countedFrames fps)).sum := by
  induction durations with
  | nil => simp
  | cons duration rest ih =>
    have hfirst := max_zero_le_countedFrames hfps duration
    rw [List.map_cons, List.map_cons, List.sum_cons, List.sum_cons]
    push_cast at ih ⊢
    linarith

/-- Nothing that is within the limits is out of the range of floats. -/
theorem twice_maxFrameCount_lt : (2 * maxFrameCount : ℚ) < PyFloat.overflow := by
  have hlow : (2 : ℚ) ^ 17 ≤ 2 ^ 970 := pow_le_pow_right₀ one_le_two (by omega)
  have hhigh : (2 : ℚ) ^ (970 + 1) ≤ 2 ^ 1024 := pow_le_pow_right₀ one_le_two (by omega)
  rw [pow_succ] at hhigh
  have hsmall : (2 * maxFrameCount : ℚ) < 2 ^ 17 := by
    unfold maxFrameCount
    norm_num
  rw [PyFloat.overflow]
  calc (2 * maxFrameCount : ℚ) < 2 ^ 970 := hsmall.trans_le hlow
    _ ≤ 2 ^ 1024 - 2 ^ 970 := by
      rw [le_sub_iff_add_le, ← mul_two]
      exact hhigh

theorem WithinTime.foldl_add (h : WithinTime fps durations) (hfps : 1 ≤ fps) :
    (durations.map PyFloat.finite).foldl (· + ·) 0 = .finite durations.sum := by
  have hsplit := sum_max_add_sum_min durations
  have hframes : ((durations.map (countedFrames fps)).sum : ℚ) ≤ maxFrameCount := Int.cast_le.mpr h.frames
  have hhigh := sum_max_le_countedFrames hfps durations
  have hrange := twice_maxFrameCount_lt
  have hsum := h.lasts
  have hfold := @PyFloat.foldl_add_of_bounded durations 0 (by linarith) (by linarith)
  rwa [zero_add] at hfold

theorem WithinTime.scaled_lt (h : WithinTime fps durations) :
    ∀ duration ∈ durations, 0 < duration → |duration * fps| < PyFloat.overflow := by
  intro duration hmem hpos
  have hle : countedFrames fps duration ≤ (durations.map (countedFrames fps)).sum := by
    refine List.single_le_sum (fun frames hframes => ?_) _ (List.mem_map_of_mem hmem)
    obtain ⟨other, -, rfl⟩ := List.mem_map.mp hframes
    exact countedFrames_nonneg fps other
  have hcast : (countedFrames fps duration : ℚ) ≤ maxFrameCount := Int.cast_le.mpr (hle.trans h.frames)
  have hscaled := @scaled_le_countedFrames fps duration hpos
  have hrange := twice_maxFrameCount_lt
  rw [abs_of_nonneg (by positivity)]
  linarith

/-- The checks of the seconds and of the frames admit what is within their limits. -/
theorem withinTime_iff {lib : ValueLibrary} {entries : List (Dict Value)} (hfps : 1 ≤ fps)
    (hread : entries.map (entrySeconds lib) = durations.map .ok) :
    (validateDuration lib entries = .ok () ∧ ∃ count, countFrames lib fps entries = .ok count ∧ count ≤ maxFrameCount) ↔
      WithinTime fps durations := by
  rw [validateDuration_eq_ok hread]
  constructor
  · rintro ⟨⟨total, htotal, hpos, hbound⟩, count, hcount, hframes⟩
    obtain ⟨-, rfl⟩ := (countFrames_eq_ok hread).mp hcount
    have hsum := PyFloat.sum_of_foldl_add htotal
    rw [zero_add] at hsum
    exact ⟨hsum ▸ hpos, hsum ▸ hbound, hframes⟩
  · intro h
    exact ⟨⟨_, h.foldl_add hfps, h.lasts, h.seconds⟩, _, (countFrames_eq_ok hread).mpr ⟨h.scaled_lt, rfl⟩, h.frames⟩

end

/-! ## Integers of a timeline -/

section
variable {lib : ValueLibrary} {n : ℤ}

@[simp] theorem truncate_intCast (n : ℤ) : truncate (n : ℚ) = n := by
  unfold truncate
  split
  · exact Int.floor_intCast n
  · exact Int.ceil_intCast n

/-- An integer that is not larger than any limit is in the range of floats. -/
theorem asFloat_int (hlow : 0 ≤ n) (hhigh : n ≤ 2 * maxFrameCount) : asFloat lib (.int n) = .ok (n : ℚ) := by
  have habs : |(n : ℚ)| < PyFloat.overflow := by
    rw [abs_of_nonneg (by exact_mod_cast hlow)]
    exact lt_of_le_of_lt (by exact_mod_cast hhigh) twice_maxFrameCount_lt
  rw [asFloat, toPyFloat, if_neg (not_le.mpr habs)]

theorem framesPerSecond_intCast (hpos : 0 < n) : framesPerSecond (n : ℚ) = n.toNat := by
  rw [framesPerSecond, truncate_intCast, max_eq_right (by omega)]

variable {timeline : Dict Value}

theorem validateFps_eq_ok (hfps : item timeline "fps" = .int n) (hpos : 0 < n) (hhigh : n ≤ 2 * maxFrameCount)
    {fps : ℚ} : validateFps lib timeline = .ok fps ↔ n ≤ maxFps ∧ fps = n := by
  unfold validateFps
  simp only [hfps]
  rw [asFloat_int hpos.le hhigh]
  have hnot : ¬(n : ℚ) ≤ 0 := not_le.mpr (by exact_mod_cast hpos)
  change (if (n : ℚ) ≤ 0 then _ else _) = _ ↔ _
  rw [if_neg hnot]
  by_cases hbound : maxFps < n
  · rw [if_pos hbound]
    exact ⟨fun h => (by cases h), fun h => absurd h.1 (not_le.mpr hbound)⟩
  · rw [if_neg hbound]
    exact ⟨fun h => ⟨not_lt.mp hbound, (Except.ok.inj h).symm⟩, fun h => by rw [h.2]; rfl⟩

/-- The next even number, which the encoder needs. -/
def evenUp (n : ℤ) : ℕ := (n + n % 2).toNat

theorem le_evenUp (n : ℤ) : n ≤ evenUp n := by
  unfold evenUp
  omega

/-- A frame within the limits. -/
structure WithinFrame (width height : ℤ) : Prop where
  width_le : width ≤ maxOutputDimension
  height_le : height ≤ maxOutputDimension
  pixels : (evenUp width * evenUp height : ℤ) ≤ maxOutputPixels

theorem resolveResolution_eq_ok {width height : ℤ} (hsize : item timeline "resolution" = .arr [.int width, .int height])
    (hwidth : 2 ≤ width) (hwidth' : width ≤ 2 * maxFrameCount) (hheight : 2 ≤ height)
    (hheight' : height ≤ 2 * maxFrameCount) {size : ℕ × ℕ} :
    resolveResolution lib timeline = .ok size ↔ WithinFrame width height ∧ size = (evenUp width, evenUp height) := by
  have heven (n : ℤ) (hn : 2 ≤ n) : ((evenUp n : ℕ) : ℤ) = n + n % 2 := by
    unfold evenUp
    omega
  have hraw : orElse (item timeline "resolution") (.arr [.int 1920, .int 1080]) = .arr [.int width, .int height] := by
    rw [hsize]
    rfl
  unfold resolveResolution
  rw [hraw]
  simp only
  rw [asFloat_int (by omega) hwidth', asFloat_int (by omega) hheight']
  change (if truncate (width : ℚ) < 2 ∨ truncate (height : ℚ) < 2 then _ else _) = _ ↔ _
  rw [truncate_intCast, truncate_intCast, if_neg (by omega)]
  by_cases hdimension : maxOutputDimension < width ∨ maxOutputDimension < height
  · rw [if_pos hdimension]
    refine ⟨fun h => (by cases h), fun h => ?_⟩
    have hw := h.1.width_le
    have hh := h.1.height_le
    omega
  rw [if_neg hdimension]
  by_cases hpixels : maxOutputPixels < (width + width % 2) * (height + height % 2)
  · rw [if_pos hpixels]
    refine ⟨fun h => (by cases h), fun h => ?_⟩
    have hlimit := h.1.pixels
    rw [heven width hwidth, heven height hheight] at hlimit
    exact absurd hpixels (not_lt.mpr hlimit)
  rw [if_neg hpixels]
  constructor
  · intro h
    refine ⟨⟨by omega, by omega, ?_⟩, (Except.ok.inj h).symm⟩
    rw [heven width hwidth, heven height hheight]
    exact not_lt.mp hpixels
  · rintro ⟨-, rfl⟩
    rfl

end

/-! ## Safe areas -/

/-- The loop over what comes after the first finds one that is least. -/
theorem foldl_nearer {α : Type} (f : α → ℚ) (best : α) (others : List α) :
    others.foldl (fun best other => if f other < f best then other else best) best ∈ best :: others ∧
      ∀ other ∈ best :: others,
        f (others.foldl (fun best other => if f other < f best then other else best) best) ≤ f other := by
  induction others generalizing best with
  | nil => simp
  | cons other rest ih =>
    rw [List.foldl_cons]
    obtain ⟨hmem, hleast⟩ := ih (if f other < f best then other else best)
    by_cases hnearer : f other < f best
    · rw [if_pos hnearer] at hmem hleast ⊢
      obtain ⟨hother, hrest⟩ := List.forall_mem_cons.mp hleast
      exact ⟨List.mem_cons_of_mem _ hmem,
        List.forall_mem_cons.mpr ⟨hother.trans hnearer.le, List.forall_mem_cons.mpr ⟨hother, hrest⟩⟩⟩
    · rw [if_neg hnearer] at hmem hleast ⊢
      obtain ⟨hbest, hrest⟩ := List.forall_mem_cons.mp hleast
      refine ⟨?_, List.forall_mem_cons.mpr ⟨hbest, List.forall_mem_cons.mpr ⟨hbest.trans (not_lt.mp hnearer), hrest⟩⟩⟩
      rcases List.mem_cons.mp hmem with heq | hlater
      · exact List.mem_cons.mpr (.inl heq)
      · exact List.mem_cons_of_mem _ (List.mem_cons_of_mem _ hlater)

/-- The frame has nearly the aspect ratio of a preset. -/
def HasPreset (width height : ℕ) : Prop := ∃ preset ∈ safeAreaPresets, preset.deviation width height ≤ 2 / 100

instance (width height : ℕ) : Decidable (HasPreset width height) :=
  inferInstanceAs (Decidable (∃ preset ∈ safeAreaPresets, preset.deviation width height ≤ 2 / 100))

section
variable {lib : ValueLibrary} {width height : ℕ}

theorem hasPreset_of_resolvePreset {preset : SafeAreaPreset}
    (h : resolvePresetForResolution lib width height = .ok preset) :
    preset ∈ safeAreaPresets ∧ HasPreset width height := by
  obtain ⟨hmem, -⟩ :=
    foldl_nearer (fun preset => preset.deviation width height) vertical9x16 [horizontal16x9, square1x1]
  simp only [resolvePresetForResolution] at h
  split at h
  next hnear =>
    obtain rfl := Except.ok.inj h
    exact ⟨hmem, _, hmem, hnear⟩
  next => cases h

theorem exists_resolvePreset (h : HasPreset width height) :
    ∃ preset, resolvePresetForResolution lib width height = .ok preset := by
  obtain ⟨preset, hpreset, hnear⟩ := h
  obtain ⟨-, hleast⟩ :=
    foldl_nearer (fun preset => preset.deviation width height) vertical9x16 [horizontal16x9, square1x1]
  exact ⟨_, if_pos ((hleast preset hpreset).trans hnear)⟩

/-- What insets leave of 64 pixels or more has room for an outline of two pixels on each side. -/
theorem four_lt_toPixels {near far : ℚ} {n : ℕ} (hroom : 8 / 100 ≤ 1 - far - near) (hn : 64 ≤ n) :
    4 < ⌊(1 - far) * n⌋ - ⌊near * n⌋ := by
  have hfar := Int.sub_one_lt_floor ((1 - far) * (n : ℚ))
  have hnear := Int.floor_le (near * (n : ℚ))
  have hsize : (64 : ℚ) ≤ n := by exact_mod_cast hn
  have hmul : 8 / 100 * 64 ≤ (1 - far - near) * (n : ℚ) :=
    mul_le_mul hroom hsize (by norm_num) ((by norm_num : (0 : ℚ) ≤ 8 / 100).trans hroom)
  have hcast : (4 : ℚ) < ((⌊(1 - far) * (n : ℚ)⌋ - ⌊near * (n : ℚ)⌋ : ℤ) : ℚ) := by
    push_cast
    linarith
  exact_mod_cast hcast

/-- A frame of 64 pixels each way has room for subtitles of the default style in each preset. -/
theorem exists_subtitleBox {preset : SafeAreaPreset} (hpreset : preset ∈ safeAreaPresets) (hwidth : 64 ≤ width)
    (hheight : 64 ≤ height) : ∃ box, resolveSubtitleBox lib preset (width, height) {} = .ok box := by
  have hrooms : 8 / 100 ≤ 1 - preset.subtitleSafe.right - preset.subtitleSafe.left ∧
      8 / 100 ≤ 1 - preset.subtitleSafe.bottom - preset.subtitleSafe.top := by
    simp only [safeAreaPresets, List.mem_cons, List.not_mem_nil, or_false] at hpreset
    rcases hpreset with rfl | rfl | rfl <;> decide +kernel
  have hwide := four_lt_toPixels hrooms.1 hwidth
  have hhigh := four_lt_toPixels hrooms.2 hheight
  refine ⟨_, if_neg ?_⟩
  simp only [insetPixelRegion, SafeAreaInsets.toPixels]
  omega

end

/-! ## Subtitles and audio -/

/-- The lines of the subtitles are within their limits. -/
structure WithinText (lines : List Text) : Prop where
  entries : lines.length ≤ maxSubtitleEntries
  characters : ∀ line ∈ lines, line.length ≤ maxSubtitleCharacters
  total : (lines.map List.length).sum ≤ maxTotalSubtitleCharacters

theorem WithinText.perm {lines others : List Text} (h : WithinText lines) (hperm : lines.Perm others) :
    WithinText others where
  entries := by
    rw [← hperm.length_eq]
    exact h.entries
  characters line hline := h.characters line (hperm.mem_iff.mpr hline)
  total := by
    rw [← (hperm.map _).sum_eq]
    exact h.total

section
variable {lib : ValueLibrary} {tracks : Dict Value} {entries : List Value}

@[simp] theorem listOr_arr (entries : List Value) : listOr (.arr entries) = some entries := by
  cases entries <;> rfl

@[simp] theorem str_orElse_str (text : String) : lib.str (orElse (.str text) (.str "")) = text := by
  unfold orElse
  split
  · exact lib.str_str text
  next hblank =>
    have hempty : text = "" := by
      by_contra hne
      exact hblank (by simp [JsonOf.truthy, hne])
    rw [lib.str_str, hempty]

theorem validateSubtitles_eq_ok {lines : List Text} (hentries : listOr (item tracks "subtitles") = some entries)
    (hlength : entries.length = lines.length)
    (hlines : (mappings entries).map (fun members => (lib.str (orElse (item members "text") (.str ""))).length) =
      lines.map List.length) {subtitles : List Value} :
    validateSubtitles lib tracks = .ok subtitles ↔ WithinText lines ∧ subtitles = entries := by
  unfold validateSubtitles
  rw [hentries]
  simp only [hlines, hlength]
  by_cases hcount : maxSubtitleEntries < lines.length
  · rw [if_pos hcount]
    exact ⟨fun h => (by cases h), fun h => absurd h.1.entries (not_le.mpr hcount)⟩
  rw [if_neg hcount]
  cases hlong : (lines.map List.length).find? fun length => maxSubtitleCharacters < length with
  | some length =>
    refine ⟨fun h => (by cases h), fun h => ?_⟩
    obtain ⟨line, hline, rfl⟩ := List.mem_map.mp (List.mem_of_find?_eq_some hlong)
    have hover := List.find?_some hlong
    exact absurd (h.1.characters line hline) (not_le.mpr (of_decide_eq_true hover))
  | none =>
    simp only
    by_cases htotal : maxTotalSubtitleCharacters < (lines.map List.length).sum
    · rw [if_pos htotal]
      exact ⟨fun h => (by cases h), fun h => absurd h.1.total (not_le.mpr htotal)⟩
    rw [if_neg htotal]
    constructor
    · intro h
      refine ⟨⟨not_lt.mp hcount, fun line hline => ?_, not_lt.mp htotal⟩, (Except.ok.inj h).symm⟩
      simpa using List.find?_eq_none.mp hlong line.length (List.mem_map_of_mem hline)
    · intro h
      rw [h.2]

theorem countAudio_of_listOr {track : String} (h : listOr (item tracks track) = some entries) :
    countAudio tracks track = .ok entries.length := by
  rw [countAudio, h]

end

/-! ## The whole validation -/

/-- What each check of a request for a video makes of a timeline. -/
theorem validateRequest_eq_ok {lib : ValueLibrary} {request : AssemblyRequest} {timeline tracks : Dict Value}
    {visual : List Value} (hmedia : validateMedia lib request = .ok ())
    (htrack : visualTrack request = .ok (timeline, tracks, visual)) :
    validateRequest lib request = .ok () ↔ ∃ fps size, validateFps lib timeline = .ok fps ∧
      resolveResolution lib timeline = .ok size ∧ visual.length ≤ maxScenes ∧
      validateDuration lib (mappings visual) = .ok () ∧
      (∃ count, countFrames lib (framesPerSecond fps) (mappings visual) = .ok count ∧ count ≤ maxFrameCount) ∧
      ∃ subtitles, validateSubtitles lib tracks = .ok subtitles ∧
      (∃ narrationCount musicCount, countAudio tracks "narration" = .ok narrationCount ∧
        countAudio tracks "music" = .ok musicCount ∧ narrationCount + musicCount ≤ maxAudioEntries) ∧
      ∃ style safeArea, SubtitleStyle.fromParams lib (item request.params "subtitle_style") = .ok style ∧
        resolveSafeArea lib (item request.params "safe_area_preset_id") size = .ok safeArea ∧
        (subtitles ≠ [] → ∃ box, resolveSubtitleBox lib safeArea size style = .ok box) := by
  unfold validateRequest
  rw [hmedia, htrack]
  constructor
  · intro h
    obtain ⟨⟨⟩, -, h⟩ := bind_eq_ok.mp h
    obtain ⟨_, htracks, h⟩ := bind_eq_ok.mp h
    obtain rfl := Except.ok.inj htracks
    simp only at h
    obtain ⟨fps, hfps, h⟩ := bind_eq_ok.mp h
    obtain ⟨size, hsize, h⟩ := bind_eq_ok.mp h
    split at h
    · cases h
    next hscenes =>
      obtain ⟨⟨⟩, hduration, h⟩ := bind_eq_ok.mp h
      obtain ⟨count, hcount, h⟩ := bind_eq_ok.mp h
      split at h
      · cases h
      next hframes =>
        obtain ⟨subtitles, hsubtitles, h⟩ := bind_eq_ok.mp h
        obtain ⟨narrationCount, hnarration, h⟩ := bind_eq_ok.mp h
        obtain ⟨musicCount, hmusic, h⟩ := bind_eq_ok.mp h
        split at h
        · cases h
        next haudio =>
          obtain ⟨style, hstyle, h⟩ := bind_eq_ok.mp h
          obtain ⟨safeArea, hsafeArea, h⟩ := bind_eq_ok.mp h
          refine ⟨fps, size, hfps, hsize, not_lt.mp hscenes, hduration, ⟨count, hcount, not_lt.mp hframes⟩, subtitles,
            hsubtitles, ⟨narrationCount, musicCount, hnarration, hmusic, not_lt.mp haudio⟩, style, safeArea, hstyle,
            hsafeArea, fun hsome => ?_⟩
          rw [if_pos hsome] at h
          obtain ⟨box, hbox, -⟩ := bind_eq_ok.mp h
          exact ⟨box, hbox⟩
  · rintro ⟨fps, size, hfps, hsize, hscenes, hduration, ⟨count, hcount, hframes⟩, subtitles, hsubtitles,
      ⟨narrationCount, musicCount, hnarration, hmusic, haudio⟩, style, safeArea, hstyle, hsafeArea, hbox⟩
    refine bind_eq_ok.mpr ⟨(), rfl, bind_eq_ok.mpr ⟨_, rfl, ?_⟩⟩
    simp only
    refine bind_eq_ok.mpr ⟨fps, hfps, bind_eq_ok.mpr ⟨size, hsize, ?_⟩⟩
    rw [if_neg (not_lt.mpr hscenes)]
    refine bind_eq_ok.mpr ⟨(), hduration, bind_eq_ok.mpr ⟨count, hcount, ?_⟩⟩
    rw [if_neg (not_lt.mpr hframes)]
    refine bind_eq_ok.mpr ⟨subtitles, hsubtitles, bind_eq_ok.mpr ⟨narrationCount, hnarration,
      bind_eq_ok.mpr ⟨musicCount, hmusic, ?_⟩⟩⟩
    rw [if_neg (not_lt.mpr haudio)]
    refine bind_eq_ok.mpr ⟨style, hstyle, bind_eq_ok.mpr ⟨safeArea, hsafeArea, ?_⟩⟩
    split
    next hsome =>
      obtain ⟨box, hok⟩ := hbox hsome
      exact bind_eq_ok.mpr ⟨box, hok, rfl⟩
    next => rfl

end CreativeStudio.Video
