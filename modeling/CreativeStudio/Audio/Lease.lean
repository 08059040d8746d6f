import CreativeStudio.Audio.Speech
import CreativeStudio.Models.RuntimeHandle

/-!
# The speech generator and its lease

A lease whose body raises leaves the runtime invalid. With a healthy runtime the body raises in one
case: the length of the narration is estimated in seconds, where it passes, and then in samples,
where it does not, since every gap is rounded to whole samples.
-/

namespace CreativeStudio.Audio
open Data Story Models

section
variable {lib : SpeechLibrary}

/-! ## What is raised is the request's fault -/

/-- Only a `ValueError` is raised. -/
def RaisesValue {α : Type} (x : Except Exc α) : Prop := ∀ e, x = .error e → ∃ message, e = .value message

theorem raisesValue_ok {α : Type} (a : α) : RaisesValue (.ok a) := by
  intro e h
  cases h

theorem raisesValue_error {α : Type} (message : String) : RaisesValue (α := α) (.error (.value message)) := by
  intro e h
  cases h
  exact ⟨message, rfl⟩

theorem RaisesValue.bind {α β : Type} {x : Except Exc α} {f : α → Except Exc β} (hx : RaisesValue x)
    (hf : ∀ a, RaisesValue (f a)) : RaisesValue (x >>= f) := by
  intro e h
  rcases error_of_bind h with h | ⟨a, -, h⟩
  · exact hx e h
  · exact hf a e h

theorem raisesValue_coerceFloatControl (name : String) (value : Value) :
    RaisesValue (coerceFloatControl lib name value) := by
  unfold coerceFloatControl
  split
  · exact raisesValue_error _
  · split
    · exact raisesValue_ok _
    · exact raisesValue_error _

theorem raisesValue_validateGenerationControls (speed pitch : PyFloat) (maxChunkCharacters : ℤ)
    (chunkGapSeconds : PyFloat) :
    RaisesValue (validateGenerationControls lib speed pitch maxChunkCharacters chunkGapSeconds) := by
  have hspeed : RaisesValue (checkSpeed lib speed) := by
    unfold checkSpeed
    dsimp only
    repeat' split
    all_goals first | exact raisesValue_ok _ | exact raisesValue_error _
  have hpitch : RaisesValue (checkPitch lib pitch) := by
    unfold checkPitch
    dsimp only
    repeat' split
    all_goals first | exact raisesValue_ok _ | exact raisesValue_error _
  have hcharacters : RaisesValue (checkMaxChunkCharacters maxChunkCharacters) := by
    unfold checkMaxChunkCharacters
    repeat' split
    all_goals first | exact raisesValue_ok _ | exact raisesValue_error _
  have hgap : RaisesValue (checkChunkGapSeconds lib chunkGapSeconds) := by
    unfold checkChunkGapSeconds
    dsimp only
    repeat' split
    all_goals first | exact raisesValue_ok _ | exact raisesValue_error _
  exact hspeed.bind fun _ => hpitch.bind fun _ => hcharacters.bind fun _ => hgap.bind fun _ => raisesValue_ok _

theorem raisesValue_validateEstimatedDurationBudget (chunks : List Text) (controls : SpeechControls) :
    RaisesValue (validateEstimatedDurationBudget lib chunks controls) := by
  unfold validateEstimatedDurationBudget
  dsimp only
  split
  · exact raisesValue_error _
  · exact raisesValue_ok _

theorem raisesValue_resolveControls (plan : SpeechPlan) (runtime : SpeechRuntime) :
    RaisesValue (resolveControls lib plan runtime) :=
  (raisesValue_coerceFloatControl _ _).bind fun _ => (raisesValue_validateGenerationControls _ _ _ _).bind fun _ =>
    (raisesValue_validateEstimatedDurationBudget _ _).bind fun _ => raisesValue_ok _

/-! ## The two budgets -/

/-- The estimate in samples, every gap rounded, is within what the rate allows. -/
def EstimateFits (lib : SpeechLibrary) (chunks : List Text) (controls : SpeechControls) (rate : ℕ) : Prop :=
  estimateJoinedSamples lib chunks controls rate ≤ maximumSamples lib rate

instance (chunks : List Text) (controls : SpeechControls) (rate : ℕ) :
    Decidable (EstimateFits lib chunks controls rate) := inferInstanceAs (Decidable (_ ≤ _))

theorem validateEstimatedSampleBudget_eq_ok {chunks : List Text} {controls : SpeechControls} {rate : ℕ}
    (h : validateEstimatedDurationBudget lib chunks controls = .ok ()) :
    validateEstimatedSampleBudget lib chunks controls rate = .ok () ↔ EstimateFits lib chunks controls rate := by
  rw [validateEstimatedSampleBudget, h]
  change (if _ then _ else _) = _ ↔ _
  unfold EstimateFits
  split
  next hlt =>
    refine iff_of_false ?_ (not_le.mpr hlt)
    intro herror
    cases herror
  next hle => exact iff_of_true rfl (not_lt.mp hle)

theorem duration_of_resolveControls {plan : SpeechPlan} {runtime : SpeechRuntime} {controls : SpeechControls}
    (h : resolveControls lib plan runtime = .ok controls) :
    validateEstimatedDurationBudget lib plan.chunks controls = .ok () := by
  obtain ⟨speed, -, h⟩ := bind_eq_ok.mp h
  obtain ⟨passed, -, h⟩ := bind_eq_ok.mp h
  obtain ⟨⟨⟩, hduration, h⟩ := bind_eq_ok.mp h
  cases h
  exact hduration

theorem coerceSampleRate_eq_ok {value : Value} {label : String} {position : Option ℕ} {rate : ℕ}
    (h : toPyInt lib value = some (rate : ℤ)) (hpos : 0 < rate) (hle : rate ≤ maxSampleRate) :
    coerceSampleRate lib value label position = .ok rate := by
  unfold coerceSampleRate
  dsimp only
  rw [h]
  dsimp only
  rw [if_neg (by omega), if_neg (by omega), Int.toNat_natCast]

theorem gapSamples_nonneg (chunks : List Text) (controls : SpeechControls) (rate : ℕ) :
    0 ≤ gapSamples lib chunks controls rate := by
  have hproduct : 0 ≤ controls.chunkGapSeconds * rate :=
    mul_nonneg controls.chunkGapSeconds_nonneg (Nat.cast_nonneg rate)
  refine mul_nonneg (le_roundHalfEven ?_) (Int.natCast_nonneg _)
  rw [Int.cast_zero]
  exact lib.rounded_nonneg _ hproduct

/-! ## A healthy runtime -/

/-- The runtime synthesizes the chunk of this entry: finite mono samples, at least one, at the rate. -/
structure Answers (lib : SpeechLibrary) (synthesize : ℕ → Text → Value → ℚ → ℚ → Except Exc (RawAudio × Value))
    (voice : Value) (controls : SpeechControls) (rate : ℕ) (entry : Text × ℕ) (answer : RawAudio × Value) : Prop where
  returned : synthesize entry.2 entry.1 voice controls.speed controls.pitch = .ok answer
  rate : toPyInt lib answer.2 = some (rate : ℤ)
  nonempty : answer.1.samples ≠ []
  mono : answer.1.ndim = 1
  finite : ∀ x ∈ answer.1.samples, (lib.float32 x).isFinite

/-- How many samples the runtime returns. -/
def receivedOf (answers : List (RawAudio × Value)) : ℕ := (answers.map fun answer => answer.1.samples.length).sum

/-- The runtime is healthy for what is asked of it: `synthesize` can be called, and when the controls
pass it synthesizes every chunk at one rate, the advertised one if there is any, within the output limit. -/
structure Healthy (lib : SpeechLibrary) (runtime : SpeechRuntime) (plan : SpeechPlan) (rate : ℕ) : Prop where
  callable : runtime.synthesize.isSome
  rate_pos : 0 < rate
  rate_le : rate ≤ maxSampleRate
  advertised : runtime.sampleRate = .null ∨ toPyInt lib runtime.sampleRate = some (rate : ℤ)
  answers : ∀ synthesize controls, runtime.synthesize = some synthesize →
    resolveControls lib plan runtime = .ok controls →
    ∃ answers, List.Forall₂ (Answers lib synthesize (resolveVoice lib plan runtime) controls rate)
        (plan.chunks.zipIdx 1) answers ∧
      receivedOf answers + gapSamples lib plan.chunks controls rate ≤ maximumSamples lib rate

section
variable {synthesize : ℕ → Text → Value → ℚ → ℚ → Except Exc (RawAudio × Value)} {chunks : List Text} {voice : Value}
  {controls : SpeechControls} {label : String} {rate : ℕ} {entry : Text × ℕ} {answer : RawAudio × Value}

theorem checkSamples_eq_ok (h : Answers lib synthesize voice controls rate entry answer)
    (hlength : answer.1.samples.length ≤ maximumSamples lib rate) :
    checkSamples lib label rate entry.2 entry.1 answer.1 = .ok (answer.1.samples.map lib.float32) := by
  have hne : answer.1.samples.map lib.float32 ≠ [] := mt List.map_eq_nil_iff.mp h.nonempty
  have hfinite : (answer.1.samples.map lib.float32).all PyFloat.isFinite := by
    rw [List.all_map, List.all_eq_true]
    exact h.finite
  rw [checkSamples, if_neg (not_lt.mpr hlength), if_neg hne, if_neg (not_not.mpr h.mono), if_pos hfinite]

/-- One turn of the loop, with a healthy runtime. -/
theorem synthesizeChunk_eq (hpos : 0 < rate) (hle : rate ≤ maxSampleRate)
    (h : Answers lib synthesize voice controls rate entry answer) (gathered : Gathered)
    (htotal : (gathered.receivedSamples + answer.1.samples.length : ℕ) + gapSamples lib chunks controls rate ≤
      maximumSamples lib rate) :
    synthesizeChunk lib synthesize chunks voice controls label gathered entry.1 entry.2 =
      (checkRate lib chunks controls label gathered.sampleRate rate entry.2).map fun _ =>
        { segments := gathered.segments ++ [answer.1.samples.map lib.float32]
          sampleRate := some (gathered.sampleRate.getD rate)
          receivedSamples := gathered.receivedSamples + answer.1.samples.length } := by
  have hgap := @gapSamples_nonneg lib chunks controls rate
  have hlength : answer.1.samples.length ≤ maximumSamples lib rate := by
    push_cast at htotal
    omega
  rw [synthesizeChunk, h.returned]
  change (coerceSampleRate lib answer.2 label (some entry.2)).bind _ = _
  rw [coerceSampleRate_eq_ok h.rate hpos hle]
  change (checkSamples lib label rate entry.2 entry.1 answer.1).bind _ = _
  rw [checkSamples_eq_ok h hlength]
  change (checkRate lib chunks controls label gathered.sampleRate rate entry.2).bind _ = _
  cases checkRate lib chunks controls label gathered.sampleRate rate entry.2 with
  | error e => rfl
  | ok _ =>
    simp only [Except.bind, Except.map, List.length_map]
    rw [if_neg (not_lt.mpr htotal)]
    rfl

theorem checkRate_eq_ok (hduration : validateEstimatedDurationBudget lib chunks controls = .ok ()) (position : ℕ)
    {sampleRate : Option ℕ} (hrate : ∀ first ∈ sampleRate, first = rate) :
    checkRate lib chunks controls label sampleRate rate position = .ok () ↔
      sampleRate = some rate ∨ EstimateFits lib chunks controls rate := by
  cases sampleRate with
  | none =>
    rw [checkRate, validateEstimatedSampleBudget_eq_ok hduration]
    exact (or_iff_right (by simp)).symm
  | some first =>
    obtain rfl := hrate first rfl
    rw [checkRate, if_pos rfl]
    exact iff_of_true rfl (.inl rfl)

/-- The loop, with a healthy runtime and an estimate that fits. -/
theorem foldlM_synthesizeChunk (hpos : 0 < rate) (hle : rate ≤ maxSampleRate)
    (hduration : validateEstimatedDurationBudget lib chunks controls = .ok ())
    (hfits : EstimateFits lib chunks controls rate) {entries : List (Text × ℕ)} {answers : List (RawAudio × Value)}
    (h : List.Forall₂ (Answers lib synthesize voice controls rate) entries answers) (gathered : Gathered)
    (hrate : ∀ first ∈ gathered.sampleRate, first = rate)
    (htotal : (gathered.receivedSamples + receivedOf answers : ℕ) + gapSamples lib chunks controls rate ≤
      maximumSamples lib rate) :
    ∃ last, entries.foldlM
        (fun gathered entry => synthesizeChunk lib synthesize chunks voice controls label gathered entry.1 entry.2)
        gathered = .ok last ∧
      last.sampleRate = if entries = [] then gathered.sampleRate else some rate := by
  induction h generalizing gathered with
  | nil => exact ⟨gathered, rfl, rfl⟩
  | @cons entry answer entries answers hanswer hrest ih =>
    have hsum : receivedOf (answer :: answers) = answer.1.samples.length + receivedOf answers := rfl
    rw [hsum] at htotal
    have hgetD : gathered.sampleRate.getD rate = rate := by
      cases hsome : gathered.sampleRate with
      | none => rfl
      | some first => exact hrate first hsome
    have hturn : (gathered.receivedSamples + answer.1.samples.length : ℕ) + gapSamples lib chunks controls rate ≤
        maximumSamples lib rate := by
      push_cast at htotal ⊢
      omega
    have hcheck := (@checkRate_eq_ok lib chunks controls label rate hduration entry.2 _ hrate).mpr (.inr hfits)
    rw [List.foldlM_cons, synthesizeChunk_eq hpos hle hanswer gathered hturn, hcheck]
    have hnext : ∀ first ∈ some (gathered.sampleRate.getD rate), first = rate := by
      intro first hfirst
      rw [← Option.some.inj hfirst, hgetD]
    rw [← Nat.add_assoc] at htotal
    obtain ⟨last, hlast, hlastRate⟩ := ih
      { segments := gathered.segments ++ [answer.1.samples.map lib.float32]
        sampleRate := some (gathered.sampleRate.getD rate)
        receivedSamples := gathered.receivedSamples + answer.1.samples.length } hnext htotal
    refine ⟨last, hlast, ?_⟩
    rw [hlastRate, hgetD, if_neg (List.cons_ne_nil entry entries)]
    split <;> rfl

/-- `_synthesize_chunks` returns with a healthy runtime just when the estimate fits. -/
theorem exists_synthesizeChunks_ok_iff (hpos : 0 < rate) (hle : rate ≤ maxSampleRate) (hne : chunks ≠ [])
    (hduration : validateEstimatedDurationBudget lib chunks controls = .ok ()) {answers : List (RawAudio × Value)}
    (h : List.Forall₂ (Answers lib synthesize voice controls rate) (chunks.zipIdx 1) answers)
    (htotal : receivedOf answers + gapSamples lib chunks controls rate ≤ maximumSamples lib rate) :
    (∃ segments, synthesizeChunks lib synthesize chunks voice controls label = .ok segments) ↔
      EstimateFits lib chunks controls rate := by
  constructor
  · rintro ⟨segments, hok⟩
    obtain ⟨last, hloop, -⟩ := bind_eq_ok.mp hok
    obtain ⟨chunk, rest, rfl⟩ := List.exists_cons_of_ne_nil hne
    rw [List.zipIdx_cons] at h hloop
    cases h with
    | @cons _ answer _ answers hanswer hrest =>
      have hsum : receivedOf (answer :: answers) = answer.1.samples.length + receivedOf answers := rfl
      rw [hsum] at htotal
      rw [List.foldlM_cons, synthesizeChunk_eq hpos hle hanswer {} (by push_cast at htotal ⊢; omega)] at hloop
      obtain ⟨first, hfirst, -⟩ := bind_eq_ok.mp hloop
      obtain ⟨⟨⟩, hcheck, -⟩ := ok_of_map hfirst
      rcases (checkRate_eq_ok hduration _ (by simp)).mp hcheck with hnone | hfits
      · cases hnone
      · exact hfits
  · intro hfits
    obtain ⟨last, hloop, hrate⟩ := @foldlM_synthesizeChunk lib synthesize chunks voice controls label rate hpos hle
      hduration hfits _ _ h {} (by simp) (by rwa [Nat.zero_add])
    rw [if_neg (by simpa using hne)] at hrate
    refine ⟨(last.segments, rate), bind_eq_ok.mpr ⟨last, hloop, ?_⟩⟩
    rw [hrate]
    rfl

end

/-! ## The lease -/

theorem checkAdvertisedRate_eq_ok {manifest : SpeechManifest} {plan : SpeechPlan} {runtime : SpeechRuntime} {rate : ℕ}
    (h : Healthy lib runtime plan rate) {controls : SpeechControls}
    (hcontrols : resolveControls lib plan runtime = .ok controls)
    (hfits : EstimateFits lib plan.chunks controls rate) :
    checkAdvertisedRate lib manifest plan runtime controls = .ok () := by
  unfold checkAdvertisedRate
  split
  · rfl
  next hnone =>
    rw [coerceSampleRate_eq_ok (h.advertised.resolve_left hnone) h.rate_pos h.rate_le]
    exact (validateEstimatedSampleBudget_eq_ok (duration_of_resolveControls hcontrols)).mpr hfits

/-- The body of the lease raises nothing, with a healthy runtime, just when an estimate that is
made fits. -/
theorem exists_leaseBody_ok_iff {manifest : SpeechManifest} {plan : SpeechPlan} {runtime : SpeechRuntime} {rate : ℕ}
    (h : Healthy lib runtime plan rate) (hne : plan.chunks ≠ []) (probe lateProbe : Option (Except Exc Bool)) :
    (∃ outcome, leaseBody lib manifest plan runtime probe lateProbe = .ok outcome) ↔
      (safeIsCancelled probe = (false, none) → ∀ controls, resolveControls lib plan runtime = .ok controls →
        EstimateFits lib plan.chunks controls rate) := by
  obtain ⟨synthesize, hsynthesize⟩ := Option.isSome_iff_exists.mp h.callable
  unfold leaseBody
  rcases hprobe : safeIsCancelled probe with ⟨_ | _, _ | e⟩
  · rw [hsynthesize]
    cases hcontrols : resolveControls lib plan runtime with
    | error e =>
      obtain ⟨message, rfl⟩ := raisesValue_resolveControls plan runtime e hcontrols
      exact iff_of_true ⟨_, rfl⟩ (by simp)
    | ok controls =>
      obtain ⟨answers, hanswers, htotal⟩ := h.answers synthesize controls hsynthesize hcontrols
      have hiff := @exists_synthesizeChunks_ok_iff lib synthesize plan.chunks (resolveVoice lib plan runtime) controls
        manifest.publicModelId rate h.rate_pos h.rate_le hne (duration_of_resolveControls hcontrols) answers hanswers
        htotal
      constructor
      · rintro ⟨outcome, hok⟩ - controls' ⟨rfl⟩
        obtain ⟨-, -, hok⟩ := bind_eq_ok.mp hok
        obtain ⟨segments, hsegments, -⟩ := bind_eq_ok.mp hok
        exact hiff.mp ⟨segments, hsegments⟩
      · intro hfits
        have hfits := hfits rfl controls rfl
        obtain ⟨segments, hsegments⟩ := hiff.mpr hfits
        exact ⟨.synthesized controls segments.1 segments.2 (safeIsCancelled lateProbe), bind_eq_ok.mpr
          ⟨(), checkAdvertisedRate_eq_ok h hcontrols hfits, bind_eq_ok.mpr ⟨segments, hsegments, rfl⟩⟩⟩
  all_goals exact iff_of_true ⟨_, rfl⟩ (by simp)

/-- A preflight that passes leaves chunks to synthesize. -/
theorem chunks_ne_nil_of_preflight {manifest : SpeechManifest} {request : SpeechRequest} {plan : SpeechPlan}
    (h : preflight lib manifest request = .ok plan) : plan.chunks ≠ [] := by
  obtain ⟨pitch, -, h⟩ := bind_eq_ok.mp h
  obtain ⟨maxChunkCharacters, -, h⟩ := bind_eq_ok.mp h
  obtain ⟨gap, -, h⟩ := bind_eq_ok.mp h
  obtain ⟨postprocess, -, h⟩ := bind_eq_ok.mp h
  obtain ⟨chunks, -, h⟩ := bind_eq_ok.mp h
  obtain ⟨⟨⟩, hchunks, h⟩ := bind_eq_ok.mp h
  cases h
  change chunks ≠ []
  intro hnil
  rw [hnil] at hchunks
  cases hchunks

/-! ## The runtime is left as it is -/

/-- The body of the lease does not raise, and `__exit__` does not mark the entry for its sake: a
handle that nobody else has released goes on to give back what it holds. What is raised is raised
when there is no lease. -/
structure Spares (generation : Generation) : Prop where
  returns : generation.hadException ≠ some true
  unmarked : ∀ (ρ : Type) (s : HandleSystem ρ) (t : Conc.Tid) (hadException : Bool),
    generation.hadException = some hadException → s.releasedBy = none → s.pendingInvalidation = false →
      (s.exitGuarded t hadException).calls t = some .exitUnlock

theorem spares_iff {generation : Generation} : Spares generation ↔ generation.hadException ≠ some true := by
  refine ⟨Spares.returns, fun h => ⟨h, ?_⟩⟩
  intro ρ s t hadException hexit hreleased hpending
  have hfalse : hadException = false := by
    cases hadException with
    | false => rfl
    | true => exact absurd hexit h
  rw [HandleSystem.exitGuarded, hreleased, hpending, hfalse]
  exact Function.update_self t _ s.calls

/-- With a healthy runtime a request leaves the runtime as it is just when its estimate in samples
fits, if the lease comes to make it. -/
theorem spares_generate_iff (manifest : SpeechManifest) (request : SpeechRequest) (runtime : SpeechRuntime) {rate : ℕ}
    (h : ∀ plan, preflight lib manifest request = .ok plan → Healthy lib runtime plan rate)
    (probe lateProbe : Option (Except Exc Bool)) :
    Spares (generate lib manifest request (.ok runtime) probe lateProbe) ↔
      ∀ plan controls, preflight lib manifest request = .ok plan → safeIsCancelled probe = (false, none) →
        resolveControls lib plan runtime = .ok controls → EstimateFits lib plan.chunks controls rate := by
  rw [spares_iff, generate]
  cases hplan : preflight lib manifest request with
  | error e => exact iff_of_true (by simp) (by simp)
  | ok plan =>
    have hbody := @exists_leaseBody_ok_iff lib manifest plan runtime rate (h plan hplan)
      (chunks_ne_nil_of_preflight hplan) probe lateProbe
    constructor
    · rintro hspared _ controls ⟨rfl⟩ hprobe hcontrols
      refine hbody.mp ?_ hprobe controls hcontrols
      cases hleft : leaseBody lib manifest plan runtime probe lateProbe with
      | error e =>
        dsimp only at hspared
        rw [hleft] at hspared
        exact absurd rfl hspared
      | ok outcome => exact ⟨outcome, rfl⟩
    · intro hfits
      obtain ⟨outcome, houtcome⟩ := hbody.mpr fun hprobe controls => hfits plan controls rfl hprobe
      dsimp only
      rw [houtcome]
      exact fun hraised => by cases hraised

end

/-! ## A runtime that always answers -/

/-- Floats that are exact. -/
def exactSpeech : SpeechLibrary where
  str := stringText
  repr _ := ""
  general _ := ""
  fixed4 _ := ""
  parseFloat _ := none
  pow10 _ := none
  str_str := stringText_str
  parseInt _ := none
  fixed1 _ := ""
  rounded x := x
  float32 x := x
  rounded_nonneg _ h := h

/-- One sample of silence for every chunk. -/
def steadyRuntime (rate : ℕ) : SpeechRuntime where
  synthesize := some fun _ _ _ _ _ => .ok ({ ndim := 1, samples := [0] }, .int rate)

theorem healthy_steadyRuntime {plan : SpeechPlan} {rate : ℕ} (hpos : 0 < rate) (hle : rate ≤ maxSampleRate)
    (htotal : ∀ controls, resolveControls exactSpeech plan (steadyRuntime rate) = .ok controls →
      plan.chunks.length + gapSamples exactSpeech plan.chunks controls rate ≤ maximumSamples exactSpeech rate) :
    Healthy exactSpeech (steadyRuntime rate) plan rate := by
  refine ⟨rfl, hpos, hle, .inl rfl, ?_⟩
  rintro synthesize controls ⟨rfl⟩ hcontrols
  refine ⟨(plan.chunks.zipIdx 1).map fun _ => ({ ndim := 1, samples := [0] }, .int rate), ?_, ?_⟩
  · refine List.forall₂_map_right_iff.mpr (List.forall₂_same.mpr fun entry _ => ⟨rfl, rfl, by simp, rfl, ?_⟩)
    exact List.forall_mem_singleton.mpr rfl
  · have hreceived : receivedOf ((plan.chunks.zipIdx 1).map fun _ => ({ ndim := 1, samples := [0] }, .int rate)) =
        plan.chunks.length := by
      simp [receivedOf]
    rw [hreceived]
    exact htotal controls hcontrols

/-- A model that has no parameters of its own. -/
def plainManifest : SpeechManifest where
  publicModelId := "voice"
  loader := "builtin"
  defaultParams := []

theorem minSpeed_le_half : minSpeed ≤ 1 / 2 := by decide +kernel

theorem gap_nonneg : (0 : ℚ) ≤ 5 / 16 := by decide +kernel

/-- A slow voice with gaps of this many seconds. -/
def slowControls : SpeechControls where
  speed := 1 / 2
  pitch := 0
  chunkGapSeconds := 5 / 16
  minSpeed_le := minSpeed_le_half
  chunkGapSeconds_nonneg := gap_nonneg

/-- Lines of fifteen letters, each a chunk, for a slow voice. -/
def linesRequest (count : ℕ) : SpeechRequest where
  prompt := (List.replicate count (List.replicate 15 'a' ++ ['\n'])).flatten
  params := [("speed", .float (.finite (1 / 2))), ("max_chunk_characters", .int 15),
    ("chunk_gap_seconds", .float (.finite (5 / 16)))]

/-- The plan of such a request. -/
def linesPlan (count : ℕ) : SpeechPlan where
  voice := .null
  speed := .float (.finite (1 / 2))
  pitch := 0
  maxChunkCharacters := 15
  chunkGapSeconds := .finite (5 / 16)
  postprocess := true
  chunks := List.replicate count (List.replicate 15 'a')

theorem healthy_linesPlan {count : ℕ} (hcontrols : resolveControls exactSpeech (linesPlan count) (steadyRuntime 22050) =
      .ok slowControls)
    (htotal : count + gapSamples exactSpeech (linesPlan count).chunks slowControls 22050 ≤
      maximumSamples exactSpeech 22050) : Healthy exactSpeech (steadyRuntime 22050) (linesPlan count) 22050 := by
  refine healthy_steadyRuntime (by decide) (by decide) ?_
  intro controls h
  obtain rfl := Except.ok.inj (hcontrols.symm.trans h)
  rwa [show (linesPlan count).chunks.length = count from List.length_replicate]

/-- Two lines are no trouble. -/
theorem spares_twoLines :
    Spares (generate exactSpeech plainManifest (linesRequest 2) (.ok (steadyRuntime 22050)) none none) := by
  have hplan : preflight exactSpeech plainManifest (linesRequest 2) = .ok (linesPlan 2) :=
    ok_of_toOption (by decide +kernel)
  have hcontrols : resolveControls exactSpeech (linesPlan 2) (steadyRuntime 22050) = .ok slowControls :=
    ok_of_toOption (by decide +kernel)
  have hfits : EstimateFits exactSpeech (linesPlan 2).chunks slowControls 22050 := by decide +kernel
  have hhealthy : Healthy exactSpeech (steadyRuntime 22050) (linesPlan 2) 22050 :=
    healthy_linesPlan hcontrols (by decide +kernel)
  have hiff := spares_generate_iff plainManifest (linesRequest 2) (steadyRuntime 22050)
    (fun plan h => Except.ok.inj (hplan.symm.trans h) ▸ hhealthy) none none
  refine hiff.mpr ?_
  intro plan controls h _ hresolved
  obtain rfl := Except.ok.inj (hplan.symm.trans h)
  obtain rfl := Except.ok.inj (hcontrols.symm.trans hresolved)
  exact hfits

/-- Ten minutes to the second in 113 lines: at 22050 Hz a gap of 5/16 s is rounded up to 6891 samples,
and the healthy runtime is left invalid. -/
theorem not_spares_tenMinutes :
    Healthy exactSpeech (steadyRuntime 22050) (linesPlan 113) 22050 ∧
      preflight exactSpeech plainManifest (linesRequest 113) = .ok (linesPlan 113) ∧
      ¬Spares (generate exactSpeech plainManifest (linesRequest 113) (.ok (steadyRuntime 22050)) none none) := by
  have hplan : preflight exactSpeech plainManifest (linesRequest 113) = .ok (linesPlan 113) :=
    ok_of_toOption (by decide +kernel)
  have hcontrols : resolveControls exactSpeech (linesPlan 113) (steadyRuntime 22050) = .ok slowControls :=
    ok_of_toOption (by decide +kernel)
  have hover : ¬EstimateFits exactSpeech (linesPlan 113).chunks slowControls 22050 := by decide +kernel
  have hhealthy : Healthy exactSpeech (steadyRuntime 22050) (linesPlan 113) 22050 :=
    healthy_linesPlan hcontrols (by decide +kernel)
  have hbody := @exists_leaseBody_ok_iff exactSpeech plainManifest _ _ _ hhealthy (chunks_ne_nil_of_preflight hplan)
    none none
  refine ⟨hhealthy, hplan, ?_⟩
  rw [spares_iff, not_not, generate, hplan]
  cases hleft : leaseBody exactSpeech plainManifest (linesPlan 113) (steadyRuntime 22050) none none with
  | error e =>
    dsimp only
    rw [hleft]
  | ok outcome => exact absurd (hbody.mp ⟨outcome, hleft⟩ rfl slowControls hcontrols) hover

end CreativeStudio.Audio
