import CreativeStudio.Audio.Splitting
import CreativeStudio.Schemas.Values

/-!
# The speech generator

A request is split into chunks before a runtime is acquired. Under the lease its controls and the
length of the narration are checked, and every chunk is synthesized; what the request is to blame
for is kept and raised after the lease. Results of float operations are rounded, in whichever way.
-/

namespace CreativeStudio.Audio
open Data Story

/-- What numbers are printed as, read from and rounded to. -/
structure SpeechLibrary extends ValueLibrary where
  /-- `int(text)`, if the text is an integer. -/
  parseInt : String → Option ℤ
  /-- `f"{x:.1f}"`. -/
  fixed1 : ℚ → String
  /-- The float that the result of an operation becomes. -/
  rounded : ℚ → ℚ
  /-- `np.float32(x)`. -/
  float32 : PyFloat → PyFloat
  rounded_nonneg : ∀ x, 0 ≤ x → 0 ≤ rounded x

/-- `_DEFAULT_MAX_CHUNK_CHARACTERS`. -/
def defaultMaxChunkCharacters : ℤ := 280

/-- `_DEFAULT_CHUNK_GAP_SECONDS`. -/
def defaultChunkGapSeconds : ℚ := 1 / 4

/-- `_MAX_CHUNKS`. -/
def maxChunks : ℕ := 128

/-- `_MAX_CHUNK_CHARACTERS`. -/
def maxChunkCharactersLimit : ℤ := 2000

/-- `_MAX_CHUNK_GAP_SECONDS`. -/
def maxChunkGapSeconds : ℚ := 2

/-- `_MIN_SPEED`. -/
def minSpeed : ℚ := 1 / 2

/-- `_MAX_SPEED`. -/
def maxSpeed : ℚ := 2

/-- `_MIN_PITCH`. -/
def minPitch : ℚ := -(15 / 100)

/-- `_MAX_PITCH`. -/
def maxPitch : ℚ := 15 / 100

/-- `_MAX_OUTPUT_SECONDS`. -/
def maxOutputSeconds : ℚ := 600

/-- `_MAX_SAMPLE_RATE`. -/
def maxSampleRate : ℤ := 96000

/-- `_ESTIMATED_CHARACTERS_PER_SECOND`. -/
def estimatedCharactersPerSecond : ℚ := 6

section
variable (lib : SpeechLibrary)

/-! ## The controls of a request -/

/-- `int(value)`, if it is an integer. -/
def toPyInt : Value → Option ℤ
  | .bool b => some (if b then 1 else 0)
  | .int n => some n
  | .float (.finite q) => some (truncate q)
  | .str s => lib.parseInt s
  | _ => none

/-- `_coerce_float_control`. -/
def coerceFloatControl (name : String) (value : Value) : Except Exc PyFloat :=
  let refused := .error (.value s!"{name} must be a number, got {lib.repr value}.")
  match value with
  | .bool _ => refused
  | value => match toPyFloat lib.toValueLibrary value with
    | .ok x => .ok x
    | .error _ => refused

/-- `_coerce_int_control`. -/
def coerceIntControl (name : String) (value : Value) : Except Exc ℤ :=
  let refused := .error (.value s!"{name} must be an integer, got {lib.repr value}.")
  match value with
  | .bool _ => refused
  | value => match toPyInt lib value with
    | none => refused
    | some n => match value with
      | .float x => if x = .finite n then .ok n else refused
      | _ => .ok n

/-- `_coerce_postprocess_flag`. -/
def coercePostprocessFlag : Value → Except Exc Bool
  | .bool b => .ok b
  | value => .error (.value s!"Audio parameter 'postprocess' must be a boolean, got {lib.repr value}.")

/-- The controls of a synthesis that are numbers, within their bounds. -/
structure SpeechControls where
  speed : ℚ
  pitch : ℚ
  chunkGapSeconds : ℚ
  minSpeed_le : minSpeed ≤ speed
  chunkGapSeconds_nonneg : 0 ≤ chunkGapSeconds
  deriving DecidableEq

/-- `speed` in `_validate_generation_controls`. -/
def checkSpeed (speed : PyFloat) : Except Exc {q : ℚ // minSpeed ≤ q} :=
  let got := lib.repr (.float speed)
  match speed with
  | .finite q =>
    if q ≤ 0 then .error (.value s!"Speech speed must be positive and finite, got {got}.")
    else if h : minSpeed ≤ q ∧ q ≤ maxSpeed then .ok ⟨q, h.1⟩
    else .error (.value s!"Speech speed must be between 0.5 and 2.0, got {got}.")
  | _ => .error (.value s!"Speech speed must be positive and finite, got {got}.")

/-- `pitch` in `_validate_generation_controls`. -/
def checkPitch (pitch : PyFloat) : Except Exc ℚ :=
  let got := lib.repr (.float pitch)
  match pitch with
  | .finite q =>
    if minPitch ≤ q ∧ q ≤ maxPitch then .ok q
    else .error (.value s!"Speech pitch must be between -0.15 and 0.15, got {got}.")
  | _ => .error (.value s!"Speech pitch must be finite, got {got}.")

/-- `max_chunk_characters` in `_validate_generation_controls`. -/
def checkMaxChunkCharacters (maxChunkCharacters : ℤ) : Except Exc Unit :=
  if maxChunkCharacters < 1 then
    .error (.value s!"max_chunk_characters must be at least 1, got {maxChunkCharacters}.")
  else if maxChunkCharactersLimit < maxChunkCharacters then
    .error (.value s!"max_chunk_characters must not exceed 2000, got {maxChunkCharacters}.")
  else .ok ()

/-- `chunk_gap_seconds` in `_validate_generation_controls`. -/
def checkChunkGapSeconds (chunkGapSeconds : PyFloat) : Except Exc {q : ℚ // 0 ≤ q} :=
  let got := lib.repr (.float chunkGapSeconds)
  match chunkGapSeconds with
  | .finite q =>
    if h : 0 ≤ q then
      if maxChunkGapSeconds < q then .error (.value s!"chunk_gap_seconds must not exceed 2.0, got {got}.")
      else .ok ⟨q, h⟩
    else .error (.value s!"chunk_gap_seconds must be non-negative and finite, got {got}.")
  | _ => .error (.value s!"chunk_gap_seconds must be non-negative and finite, got {got}.")

/-- `_validate_generation_controls`: the controls that pass. -/
def validateGenerationControls (speed pitch : PyFloat) (maxChunkCharacters : ℤ) (chunkGapSeconds : PyFloat) :
    Except Exc SpeechControls := do
  let speed ← checkSpeed lib speed
  let pitch ← checkPitch lib pitch
  checkMaxChunkCharacters maxChunkCharacters
  let gap ← checkChunkGapSeconds lib chunkGapSeconds
  return { speed, pitch, chunkGapSeconds := gap, minSpeed_le := speed.2, chunkGapSeconds_nonneg := gap.2 }

/-! ## Estimates -/

/-- The characters of the chunks that are not whitespace. -/
def speakableCharacters (chunks : List Text) : ℕ := (visible chunks.flatten).length

/-- How many gaps there are: `max(len(chunks) - 1, 0)`. -/
def gapCount (chunks : List Text) : ℕ := chunks.length - 1

/-- How long speaking takes, in seconds. -/
def estimatedSpeechSeconds (chunks : List Text) (controls : SpeechControls) : ℚ :=
  lib.rounded (speakableCharacters chunks / lib.rounded (estimatedCharactersPerSecond * controls.speed))

/-- `int(round(chunk_gap_seconds * rate)) * max(len(chunks) - 1, 0)`. -/
def gapSamples (chunks : List Text) (controls : SpeechControls) (rate : ℕ) : ℤ :=
  roundHalfEven (lib.rounded (controls.chunkGapSeconds * rate)) * gapCount chunks

/-- `_estimate_joined_samples`. -/
def estimateJoinedSamples (chunks : List Text) (controls : SpeechControls) (rate : ℕ) : ℤ :=
  ⌈lib.rounded (estimatedSpeechSeconds lib chunks controls * rate)⌉ + gapSamples lib chunks controls rate

/-- `int(sample_rate * _MAX_OUTPUT_SECONDS)`. -/
def maximumSamples (rate : ℕ) : ℤ := truncate (lib.rounded (rate * maxOutputSeconds))

/-- A narration is too long. -/
def tooLong (seconds : ℚ) : Exc :=
  .value (s!"Narration is estimated at {lib.fixed1 seconds} seconds including chunk gaps, exceeding the " ++
    "600 second output limit. Split it into separate jobs.")

/-- `_validate_estimated_duration_budget`. -/
def validateEstimatedDurationBudget (chunks : List Text) (controls : SpeechControls) : Except Exc Unit :=
  let gaps := lib.rounded (controls.chunkGapSeconds * gapCount chunks)
  let seconds := lib.rounded (estimatedSpeechSeconds lib chunks controls + gaps)
  if maxOutputSeconds < seconds then .error (tooLong lib seconds) else .ok ()

/-- `_validate_estimated_sample_budget`. -/
def validateEstimatedSampleBudget (chunks : List Text) (controls : SpeechControls) (rate : ℕ) : Except Exc Unit := do
  validateEstimatedDurationBudget lib chunks controls
  let samples := estimateJoinedSamples lib chunks controls rate
  if maximumSamples lib rate < samples then .error (tooLong lib (lib.rounded (samples / rate))) else .ok ()

/-! ## Before the lease -/

/-- The fields of a manifest that are read. -/
structure SpeechManifest where
  publicModelId : String
  loader : String
  defaultParams : Dict Value

/-- What a request asks for. -/
structure SpeechRequest where
  prompt : Text
  params : Dict Value

/-- What is known before the lease. A voice or a speed that the request does not set is the runtime's. -/
structure SpeechPlan where
  voice : Value
  speed : Value
  pitch : PyFloat
  maxChunkCharacters : ℤ
  chunkGapSeconds : PyFloat
  postprocess : Bool
  chunks : List Text
  deriving DecidableEq

/-- There is something to say, in not too many chunks. -/
def checkChunks (chunks : List Text) : Except Exc Unit :=
  if chunks = [] then .error (.value "Narration text contains no speakable characters.")
  else if maxChunks < chunks.length then
    .error (.value (s!"Narration would require {chunks.length} chunks, exceeding the 128 chunk limit. " ++
      "Increase max_chunk_characters or split the narration into separate jobs."))
  else .ok ()

/-- The part of `generate` before the lease. -/
def preflight (manifest : SpeechManifest) (request : SpeechRequest) : Except Exc SpeechPlan := do
  let params := Dict.update manifest.defaultParams request.params
  let pitch ← coerceFloatControl lib "pitch" ((params.get? "pitch").getD (.float 0))
  let maxChunkCharacters ← coerceIntControl lib "max_chunk_characters"
    ((params.get? "max_chunk_characters").getD (.int defaultMaxChunkCharacters))
  let chunkGapSeconds ← coerceFloatControl lib "chunk_gap_seconds"
    ((params.get? "chunk_gap_seconds").getD (.float (.finite defaultChunkGapSeconds)))
  let postprocess ← coercePostprocessFlag lib ((params.get? "postprocess").getD (.bool true))
  let chunks ← splitIntoChunks request.prompt maxChunkCharacters
  checkChunks chunks
  return {
    pitch, maxChunkCharacters, chunkGapSeconds, postprocess, chunks
    voice := (params.get? "voice").getD .null
    speed := (params.get? "speed").getD .null }

/-! ## Under the lease -/

/-- An array that a runtime returns. -/
structure RawAudio where
  ndim : ℕ
  samples : List PyFloat

/-- A loaded runtime, as the generator reads it. -/
structure SpeechRuntime where
  /-- The entry `synthesize`, if it can be called: of the number of the call, which may answer
  differently each time, and the chunk, the voice, the speed and the pitch. -/
  synthesize : Option (ℕ → Text → Value → ℚ → ℚ → Except Exc (RawAudio × Value))
  sampleRate : Value := .null
  defaultVoice : Value := .null
  defaultSpeed : Value := .float (.finite 1)

/-- `_coerce_sample_rate`. -/
def coerceSampleRate (value : Value) (modelLabel : String) (position : Option ℕ) : Except Exc ℕ :=
  let model := lib.repr (.str modelLabel)
  match toPyInt lib value with
  | none => .error (.other s!"Model {model} reported invalid sample rate {lib.repr value}.")
  | some rate =>
    let location := position.elim "" fun position => s!" for narration chunk {position}"
    if rate ≤ 0 then .error (.other s!"Model {model} reported sample rate {lib.repr value}{location}.")
    else if maxSampleRate < rate then
      .error (.other s!"Model {model} reported sample rate {rate} Hz, exceeding the 96000 Hz speech limit.")
    else .ok rate.toNat

/-- What the loop of `_synthesize_chunks` has gathered. -/
structure Gathered where
  segments : List (List PyFloat) := []
  sampleRate : Option ℕ := none
  receivedSamples : ℕ := 0

section
variable (synthesize : ℕ → Text → Value → ℚ → ℚ → Except Exc (RawAudio × Value)) (chunks : List Text)
  (voice : Value) (controls : SpeechControls) (modelLabel : String)

/-- The samples of an array, as `_synthesize_chunks` takes them. -/
def checkSamples (rate : ℕ) (position : ℕ) (chunk : Text) (audio : RawAudio) : Except Exc (List PyFloat) :=
  let model := lib.repr (.str modelLabel)
  let samples := audio.samples.map lib.float32
  if maximumSamples lib rate < audio.samples.length then
    .error (.other (s!"Model {model} returned {audio.samples.length} samples for narration chunk {position}, " ++
      "exceeding the 600 second output limit."))
  else if samples = [] then
    .error (.other (s!"Model {model} returned no audio for narration chunk {position}: " ++
      lib.repr (.str (String.ofList (chunk.take 48)))))
  else if audio.ndim ≠ 1 then
    .error (.other (s!"Model {model} returned {audio.ndim}D audio for narration chunk {position}; the speech " ++
      "runtime contract requires mono samples."))
  else if samples.all PyFloat.isFinite then .ok samples
  else .error (.other s!"Model {model} returned non-finite audio samples for narration chunk {position}.")

/-- The rate of the first chunk is checked against the estimate, that of every other one against the first. -/
def checkRate (sampleRate : Option ℕ) (rate : ℕ) (position : ℕ) : Except Exc Unit :=
  match sampleRate with
  | none => validateEstimatedSampleBudget lib chunks controls rate
  | some first =>
    if rate = first then .ok ()
    else .error (.other (s!"Model {lib.repr (.str modelLabel)} returned {rate} Hz for narration chunk {position} " ++
      s!"after {first} Hz; one narration asset needs a single sample rate."))

/-- The loop of `_synthesize_chunks`. -/
def synthesizeChunk (gathered : Gathered) (chunk : Text) (position : ℕ) : Except Exc Gathered := do
  let (audio, chunkRate) ← synthesize position chunk voice controls.speed controls.pitch
  let rate ← coerceSampleRate lib chunkRate modelLabel (some position)
  let samples ← checkSamples lib modelLabel rate position chunk audio
  checkRate lib chunks controls modelLabel gathered.sampleRate rate position
  let received := gathered.receivedSamples + samples.length
  let total := received + gapSamples lib chunks controls rate
  if maximumSamples lib rate < total then
    throw (.other (s!"Model {lib.repr (.str modelLabel)} produced too much narration audio: {total} samples " ++
      s!"including gaps exceeds the 600 second limit at {rate} Hz."))
  return {
    segments := gathered.segments ++ [samples]
    sampleRate := some (gathered.sampleRate.getD rate)
    receivedSamples := received }

/-- `_synthesize_chunks`. -/
def synthesizeChunks : Except Exc (List (List PyFloat) × ℕ) := do
  let gathered ← (chunks.zipIdx 1).foldlM
    (fun gathered entry => synthesizeChunk lib synthesize chunks voice controls modelLabel gathered entry.1 entry.2) {}
  match gathered.sampleRate with
  | none => throw (.other s!"Model {lib.repr (.str modelLabel)} produced no narration audio.")
  | some rate => return (gathered.segments, rate)

end

/-- `safe_is_cancelled`, of what the probe does; there is none without a context. -/
def safeIsCancelled : Option (Except Exc Bool) → Bool × Option Exc
  | none => (false, none)
  | some (.ok cancelled) => (cancelled, none)
  | some (.error e) => (false, some e)

/-- What the lease leaves behind. -/
inductive LeaseOutcome
  /-- `cancelled_before_synthesis`. -/
  | cancelled
  /-- `cancellation_probe_error`. -/
  | probeFailed (e : Exc)
  /-- `validation_error`. -/
  | invalid (e : Exc)
  /-- Every chunk is synthesized; `late` is what the second probe says. -/
  | synthesized (controls : SpeechControls) (segments : List (List PyFloat)) (sampleRate : ℕ) (late : Bool × Option Exc)

/-- The controls of a request at a runtime, and the check of how long the narration takes. -/
def resolveControls (plan : SpeechPlan) (runtime : SpeechRuntime) : Except Exc SpeechControls := do
  let speed ← coerceFloatControl lib "speed" (if plan.speed = .null then runtime.defaultSpeed else plan.speed)
  let controls ← validateGenerationControls lib speed plan.pitch plan.maxChunkCharacters plan.chunkGapSeconds
  validateEstimatedDurationBudget lib plan.chunks controls
  return controls

/-- The voice of a request at a runtime. -/
def resolveVoice (plan : SpeechPlan) (runtime : SpeechRuntime) : Value :=
  if plan.voice = .null then runtime.defaultVoice else .str (lib.str plan.voice)

/-- The estimate at the rate that a runtime says it has. -/
def checkAdvertisedRate (manifest : SpeechManifest) (plan : SpeechPlan) (runtime : SpeechRuntime)
    (controls : SpeechControls) : Except Exc Unit :=
  if runtime.sampleRate = .null then .ok ()
  else do
    let rate ← coerceSampleRate lib runtime.sampleRate manifest.publicModelId none
    validateEstimatedSampleBudget lib plan.chunks controls rate

/-- The body of the lease. -/
def leaseBody (manifest : SpeechManifest) (plan : SpeechPlan) (runtime : SpeechRuntime)
    (probe lateProbe : Option (Except Exc Bool)) : Except Exc LeaseOutcome := do
  match safeIsCancelled probe with
  | (_, some e) => return .probeFailed e
  | (true, none) => return .cancelled
  | (false, none) =>
    let some synthesize := runtime.synthesize
      | throw (.other (s!"Model {lib.repr (.str manifest.publicModelId)} exposes no synthesize() runtime; loader " ++
          s!"{lib.repr (.str manifest.loader)} must return one for text-to-speech."))
    match resolveControls lib plan runtime with
    | .error (.value message) => return .invalid (.value message)
    | .error e => throw e
    | .ok controls =>
      checkAdvertisedRate lib manifest plan runtime controls
      let (segments, sampleRate) ← synthesizeChunks lib synthesize plan.chunks (resolveVoice lib plan runtime) controls
        manifest.publicModelId
      return .synthesized controls segments sampleRate (safeIsCancelled lateProbe)

/-! ## After the lease -/

/-- `_concatenate_with_gaps`. -/
def concatenateWithGaps (segments : List (List PyFloat)) (sampleRate : ℕ) (gapSeconds : ℚ) :
    Except Exc (List PyFloat) :=
  let gap := roundHalfEven (lib.rounded (gapSeconds * sampleRate))
  let total := (segments.map List.length).sum + gap * (segments.length - 1 : ℕ)
  if maximumSamples lib sampleRate < total then
    .error (.other (s!"Narration requires {total} samples including gaps, exceeding the 600 second output limit " ++
      s!"at {sampleRate} Hz."))
  else .ok ((segments.intersperse (List.replicate gap.toNat 0)).flatten)

/-- The narration before it is processed and written. -/
structure Narration where
  joined : List PyFloat
  sampleRate : ℕ
  estimatedSamples : ℤ

/-- The part of `generate` after the lease, up to the joined narration. -/
def afterLease (plan : SpeechPlan) : LeaseOutcome → Except Exc Narration
  | .cancelled => .error .generationCancelled
  | .probeFailed e => .error e
  | .invalid e => .error e
  | .synthesized _ _ _ (_, some e) => .error e
  | .synthesized _ _ _ (true, none) => .error .generationCancelled
  | .synthesized controls segments sampleRate (false, none) => do
    let joined ← concatenateWithGaps lib segments sampleRate controls.chunkGapSeconds
    let estimatedSamples := estimateJoinedSamples lib plan.chunks controls sampleRate
    return { joined, sampleRate, estimatedSamples }

/-- What a generation comes to: what `__exit__` is told, if there is a lease, and the result. -/
structure Generation where
  hadException : Option Bool
  result : Except Exc Narration

/-- `generate`; `acquired` is what `_acquire_runtime` comes to, and the probes what the context says
before and after the synthesis. -/
def generate (manifest : SpeechManifest) (request : SpeechRequest) (acquired : Except Exc SpeechRuntime)
    (probe lateProbe : Option (Except Exc Bool)) : Generation :=
  match preflight lib manifest request with
  | .error e => { hadException := none, result := .error e }
  | .ok plan => match acquired with
    | .error e => { hadException := none, result := .error e }
    | .ok runtime => match leaseBody lib manifest plan runtime probe lateProbe with
      | .error e => { hadException := some true, result := .error e }
      | .ok outcome => { hadException := some false, result := afterLease lib plan outcome }

end

end CreativeStudio.Audio
