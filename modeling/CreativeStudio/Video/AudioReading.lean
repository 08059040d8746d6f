import CreativeStudio.Data.Arrays
import CreativeStudio.Data.Text
import CreativeStudio.Schemas.Errors

/-!
# Reading timeline audio

A wav file is decoded to stereo samples at the rate of the mix. What is mixed of it is known
before, so that only as much is read as it takes; this does not change what is mixed.
-/

namespace CreativeStudio.Video
open Data

/-- A PCM wav file, as `wave` reads it: its header, and the bytes of its frames. -/
structure WaveFile where
  channels : ℕ
  sampleWidth : ℕ
  frameRate : ℕ
  frames : ℕ
  data : List UInt8
  channels_pos : 0 < channels
  sampleWidth_pos : 0 < sampleWidth
  length_data : data.length = frames * (channels * sampleWidth)

/-- `wav_file.readframes(count)`. -/
def WaveFile.readFrames (wav : WaveFile) (count : ℕ) : List UInt8 :=
  wav.data.take (count * (wav.channels * wav.sampleWidth))

/-- The number that bytes denote, the lowest first. -/
def littleEndian (bytes : List UInt8) : ℕ := bytes.foldr (fun byte high => byte.toNat + 256 * high) 0

/-- The signed number that bytes denote. -/
def signedLittleEndian (bytes : List UInt8) : ℤ :=
  let value := littleEndian bytes
  if value < 2 ^ (8 * bytes.length - 1) then value else value - 2 ^ (8 * bytes.length)

/-- `np.frombuffer(frames, dtype) / scale`, of a signed type of some width. -/
def frombuffer (width : ℕ) (scale : ℚ) (bytes : List UInt8) : Except Exc (List ℚ) :=
  if bytes.length % width ≠ 0 then .error (.value "buffer size must be a multiple of element size")
  else .ok ((reshape width bytes).map fun sample => signedLittleEndian sample / scale)

/-- `_decode_pcm_array`. -/
def decodePcmArray (bytes : List UInt8) (sampleWidth : ℕ) : Except Exc (List ℚ) :=
  if sampleWidth = 1 then .ok (bytes.map fun byte => ((byte.toNat : ℚ) - 128) / 128)
  else if sampleWidth = 2 then frombuffer 2 32768 bytes
  else if sampleWidth = 4 then frombuffer 4 2147483648 bytes
  else .error (.value s!"Unsupported PCM sample width: {sampleWidth}")

/-- `_to_stereo`, of one frame. -/
def toStereo : List ℚ → ℚ × ℚ
  | [left, right] => (left, right)
  | [mono] => (mono, mono)
  | frame => (frame.sum / frame.length, frame.sum / frame.length)

/-- How many samples `_resample` makes. -/
def targetLength (frames sourceRate targetRate : ℕ) : ℕ :=
  (max 1 (roundHalfEven (frames * targetRate / sourceRate))).toNat

/-- The resampled frame at an index. -/
def resampledFrame (frames : List (ℚ × ℚ)) (sourceRate targetRate index : ℕ) : ℚ × ℚ :=
  let position : ℚ := index * (sourceRate / targetRate)
  (interp (frames.map Prod.fst) position, interp (frames.map Prod.snd) position)

/-- `_resample`. -/
def resample (frames : List (ℚ × ℚ)) (sourceRate targetRate : ℕ) : Except Exc (List (ℚ × ℚ)) :=
  if sourceRate = targetRate ∨ frames = [] then .ok frames
  else if sourceRate = 0 then .error (.value s!"Audio sample rate must be positive; got {sourceRate}.")
  else .ok ((List.range (targetLength frames.length sourceRate targetRate)).map
    (resampledFrame frames sourceRate targetRate))

/-- How many frames are read for so many samples: two more than their share of the source, for
interpolation at the boundary. -/
def frameLimit (wav : WaveFile) (sampleRate : ℕ) (maxOutputSamples : ℤ) : ℕ :=
  min wav.frames (max 1 (⌈(max 0 maxOutputSamples : ℚ) * wav.frameRate / sampleRate⌉.toNat + 2))

/-- The frames of some bytes, decoded and mixed to stereo. -/
def decodeFrames (wav : WaveFile) (bytes : List UInt8) : Except Exc (List (ℚ × ℚ)) := do
  let samples ← decodePcmArray bytes wav.sampleWidth
  return (reshape (max 1 wav.channels) samples).map toStereo

/-- `_read_audio`, of a file that is there and is a wav file. -/
def readAudio (sampleRate : ℕ) (wav : WaveFile) (maxOutputSamples : Option ℤ := none) :
    Except Exc (List (ℚ × ℚ)) := do
  let limit := maxOutputSamples.elim wav.frames (frameLimit wav sampleRate)
  let frames ← decodeFrames wav (wav.readFrames limit)
  let result ← resample frames wav.frameRate sampleRate
  return maxOutputSamples.elim result fun samples => result.take samples.toNat

/-! ## A prefix of the file -/

theorem frombuffer_take {width : ℕ} (hwidth : 0 < width) (scale : ℚ) {bytes : List UInt8}
    (hbytes : width ∣ bytes.length) (count : ℕ) :
    frombuffer width scale (bytes.take (count * width)) = (frombuffer width scale bytes).map (List.take count) := by
  have htake : width ∣ (bytes.take (count * width)).length := by
    rw [List.length_take]
    rcases min_choice (count * width) bytes.length with h | h <;> rw [h]
    · exact dvd_mul_left width count
    · exact hbytes
  rw [frombuffer, frombuffer, if_neg (not_not.mpr (Nat.mod_eq_zero_of_dvd htake)),
    if_neg (not_not.mpr (Nat.mod_eq_zero_of_dvd hbytes)), reshape_take hwidth, Except.map, List.map_take]

theorem decodePcmArray_take {width : ℕ} {bytes : List UInt8} (hbytes : width ∣ bytes.length) (count : ℕ) :
    decodePcmArray (bytes.take (count * width)) width = (decodePcmArray bytes width).map (List.take count) := by
  unfold decodePcmArray
  split
  next h =>
    subst h
    rw [mul_one, Except.map, List.map_take]
  next =>
    split
    next h =>
      subst h
      exact frombuffer_take (by decide) _ hbytes count
    next =>
      split
      next h =>
        subst h
        exact frombuffer_take (by decide) _ hbytes count
      next => rfl

/-- The first frames of a file are decoded from its first bytes. -/
theorem decodeFrames_readFrames (wav : WaveFile) (count : ℕ) :
    decodeFrames wav (wav.readFrames count) = (decodeFrames wav wav.data).map (List.take count) := by
  have hbytes : wav.sampleWidth ∣ wav.data.length := by
    rw [wav.length_data, ← mul_assoc]
    exact dvd_mul_left _ _
  have hchannels : max 1 wav.channels = wav.channels := max_eq_right wav.channels_pos
  rw [decodeFrames, decodeFrames, WaveFile.readFrames, ← mul_assoc, decodePcmArray_take hbytes, hchannels]
  cases decodePcmArray wav.data wav.sampleWidth with
  | error e => rfl
  | ok samples =>
    simp only [Except.map, bind, Except.bind, pure, Except.pure, reshape_take wav.channels_pos, List.map_take]

theorem readFrames_frames (wav : WaveFile) : wav.readFrames wav.frames = wav.data :=
  List.take_of_length_le wav.length_data.le

/-! ## Resampling a prefix -/

section
variable {frames : List (ℚ × ℚ)} {sourceRate targetRate count samples : ℕ}

/-- Of enough source frames there are enough samples. -/
theorem le_targetLength (hrate : 0 < sourceRate) (htarget : 0 < targetRate)
    (hcount : (samples : ℚ) * sourceRate / targetRate ≤ count) : samples ≤ targetLength count sourceRate targetRate := by
  have hsource : (0 : ℚ) < sourceRate := by exact_mod_cast hrate
  have htarget' : (0 : ℚ) < targetRate := by exact_mod_cast htarget
  have hle : ((samples : ℤ) : ℚ) ≤ count * targetRate / sourceRate := by
    rw [div_le_iff₀ htarget'] at hcount
    rw [Int.cast_natCast, le_div_iff₀ hsource]
    exact hcount
  have hround := le_roundHalfEven hle
  unfold targetLength
  omega

/-- A sample in front of the cut does not see it. -/
theorem resampledFrame_take (hcut : (samples : ℚ) * sourceRate / targetRate + 2 ≤ count)
    (hlength : count ≤ frames.length) {index : ℕ} (hindex : index < samples) :
    resampledFrame (frames.take count) sourceRate targetRate index =
      resampledFrame frames sourceRate targetRate index := by
  have hposition : (0 : ℚ) ≤ index * (sourceRate / targetRate) := by positivity
  have hbefore : (index : ℚ) * (sourceRate / targetRate) + 1 < count := by
    have hle : (index : ℚ) * (sourceRate / targetRate) ≤ samples * (sourceRate / targetRate) :=
      mul_le_mul_of_nonneg_right (by exact_mod_cast hindex.le) (by positivity)
    rw [← mul_div_assoc] at hle
    rw [← mul_div_assoc] at hle ⊢
    linarith
  unfold resampledFrame
  dsimp only
  rw [List.map_take, List.map_take, interp_take hposition hbefore (by rwa [List.length_map]),
    interp_take hposition hbefore (by rwa [List.length_map])]

/-- A prefix of the source with two frames to spare gives the same samples. -/
theorem take_resample (htarget : 0 < targetRate) (hcut : (samples : ℚ) * sourceRate / targetRate + 2 ≤ count)
    (hlength : count ≤ frames.length) :
    (resample (frames.take count) sourceRate targetRate).map (List.take samples) =
      (resample frames sourceRate targetRate).map (List.take samples) := by
  have hnonneg : (0 : ℚ) ≤ samples * sourceRate / targetRate := by positivity
  have hcount : 0 < count := by
    have hpos : (0 : ℚ) < count := by linarith
    exact_mod_cast hpos
  have hframes : frames ≠ [] := List.ne_nil_of_length_pos (by omega)
  have htake : frames.take count ≠ [] := List.ne_nil_of_length_pos (by rw [List.length_take]; omega)
  unfold resample
  by_cases hsame : sourceRate = targetRate
  · have hle : samples ≤ count := by
      rw [hsame, mul_div_assoc, div_self (by exact_mod_cast htarget.ne'), mul_one] at hcut
      have hle : (samples : ℚ) ≤ count := by linarith
      exact_mod_cast hle
    rw [if_pos (.inl hsame), if_pos (.inl hsame), Except.map, Except.map, List.take_take, min_eq_left hle]
  rw [if_neg (not_or.mpr ⟨hsame, htake⟩), if_neg (not_or.mpr ⟨hsame, hframes⟩)]
  split
  next => rfl
  next hrate =>
    have henough (n : ℕ) (hn : count ≤ n) : samples ≤ targetLength n sourceRate targetRate :=
      le_targetLength (Nat.pos_of_ne_zero hrate) htarget (by
        have hn' : (count : ℚ) ≤ n := by exact_mod_cast hn
        linarith)
    rw [Except.map, Except.map, ← List.map_take, ← List.map_take, List.take_range, List.take_range,
      min_eq_left (henough _ (by rw [List.length_take]; omega)), min_eq_left (henough _ hlength)]
    refine congrArg Except.ok (List.map_congr_left fun index hindex => ?_)
    exact resampledFrame_take hcut hlength (List.mem_range.mp hindex)

end

theorem add_two_le_frameLimit (wav : WaveFile) (sampleRate : ℕ) (samples : ℤ)
    (h : frameLimit wav sampleRate samples ≠ wav.frames) :
    (samples.toNat : ℚ) * wav.frameRate / sampleRate + 2 ≤ frameLimit wav sampleRate samples := by
  have hceil : (samples.toNat : ℚ) * wav.frameRate / sampleRate ≤
      (⌈(max 0 samples : ℚ) * wav.frameRate / sampleRate⌉.toNat : ℕ) := by
    have hsamples : ((samples.toNat : ℕ) : ℚ) = max 0 (samples : ℚ) := by
      rw [← Int.cast_natCast, Int.toNat_eq_max, max_comm]
      push_cast
      rfl
    rw [hsamples]
    exact (Int.le_ceil _).trans (by exact_mod_cast Int.self_le_toNat _)
  have hlimit : frameLimit wav sampleRate samples =
      ⌈(max 0 samples : ℚ) * wav.frameRate / sampleRate⌉.toNat + 2 := by
    unfold frameLimit at h ⊢
    omega
  rw [hlimit]
  push_cast
  linarith

/-- Reading what a mix needs of a file, and no more, gives the first samples of the whole file. -/
theorem readAudio_take {sampleRate : ℕ} (hrate : 0 < sampleRate) (wav : WaveFile) (samples : ℤ) :
    readAudio sampleRate wav (some samples) = (readAudio sampleRate wav).map (List.take samples.toNat) := by
  have hread : decodeFrames wav (wav.readFrames (frameLimit wav sampleRate samples)) =
      (decodeFrames wav wav.data).map (List.take (frameLimit wav sampleRate samples)) :=
    decodeFrames_readFrames wav _
  simp only [readAudio, Option.elim_some, Option.elim_none, readFrames_frames, hread]
  cases hframes : decodeFrames wav wav.data with
  | error e => rfl
  | ok frames =>
    have hresample : (resample (frames.take (frameLimit wav sampleRate samples)) wav.frameRate sampleRate).map
        (List.take samples.toNat) = (resample frames wav.frameRate sampleRate).map (List.take samples.toNat) := by
      by_cases hwhole : frameLimit wav sampleRate samples = wav.frames
      · -- the whole file is read
        rw [hwhole, readFrames_frames, hframes] at hread
        rw [hwhole, ← Except.ok.inj hread]
      rcases le_total (frameLimit wav sampleRate samples) frames.length with hle | hle
      · exact take_resample hrate (add_two_le_frameLimit wav sampleRate samples hwhole) hle
      · rw [List.take_of_length_le hle]
    change (resample (frames.take _) _ _).map (List.take samples.toNat) =
      ((resample frames _ _).bind fun result => .ok result).map (List.take samples.toNat)
    rw [hresample]
    cases resample frames wav.frameRate sampleRate <;> rfl

/-- Two seconds of a mono file at two frames a second. -/
def slowWave : WaveFile where
  channels := 1
  sampleWidth := 1
  frameRate := 2
  frames := 4
  data := [128, 255, 128, 0]
  channels_pos := Nat.one_pos
  sampleWidth_pos := Nat.one_pos
  length_data := rfl

theorem readAudio_slowWave :
    readAudio 3 slowWave (some 1) = (readAudio 3 slowWave).map (List.take 1) := readAudio_take (by decide) slowWave 1

end CreativeStudio.Video
