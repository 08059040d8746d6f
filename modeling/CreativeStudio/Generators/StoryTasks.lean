import CreativeStudio.Generators.Brief
import CreativeStudio.Story.Merge
import CreativeStudio.Story.Timeline

/-!
# The prompts of the story tasks

Each task writes a few lines of instructions and the brief of its fields. The parameters come from
a request as they are: a value may be of any type, and a text may be of any number of lines.
-/

namespace CreativeStudio.Generators
open Data Story

/-- `BEAT_STRUCTURES`. -/
def beatStructures : Dict (List String) :=
  [("three-act", ["setup", "confrontation", "resolution"]),
    ("kishotenketsu", ["ki (introduction)", "sho (development)", "ten (twist)", "ketsu (conclusion)"]),
    ("save-the-cat",
      ["opening image", "catalyst", "debate", "fun and games", "midpoint", "all is lost", "finale"])]

/-- The tasks, by their names in `STORY_TASKS`. -/
inductive StoryTask
  | logline | beatSheet | sceneList | prose | script | promptPack | characterSheet
  deriving DecidableEq, Repr

/-- What a task asks for: the lines above the brief and the fields of the brief. -/
structure TaskPrompt where
  intro : List Text
  fields : Dict Value

section
variable (lib : ValueLibrary)

/-- `_clamp_int`. -/
def clampInt (value : Value) (low high : ℤ) : Except Exc ℤ :=
  match toPyFloat lib value with
  | .ok (.finite q) => .ok (max low (min high (if 0 ≤ q then ⌊q⌋ else ⌈q⌉)))
  | .ok .nan => .ok low
  | .ok _ => .error (.other "cannot convert float infinity to integer")
  | .error .unreadable => .ok low
  | .error .overflow => .error (.other "int too large to convert to float")

/-- One entry of a list of beats or characters. -/
def summarizeEntry : Value → String
  | .obj members =>
    match (["summary", "text", "act"].filterMap fun key => Dict.get? members key).find? JsonOf.truthy with
    | some text => lib.str text
    | none => ""
  | entry => lib.str entry

/-- `_summarize_list`. -/
def summarizeList (value : Option Value) : String :=
  match value with
  | some (.arr entries) => " / ".intercalate ((entries.map (summarizeEntry lib)).filter fun part => part ≠ "")
  | some value => if value.truthy then lib.str value else ""
  | none => ""

/-- `params.get(name, default)`. -/
def param (params : Dict Value) (name : String) (default : Value) : Value := (params.get? name).getD default

/-- `_logline_prompt`. -/
def loglinePrompt (params : Dict Value) : Except Exc TaskPrompt := do
  let count ← clampInt lib (param params "count" (.int 3)) 1 12
  let counted := lib.str (.int count)
  return {
    intro := [
      s!"Write {counted} distinct loglines for the following premise.".toList,
      "Each logline names the protagonist, the want, and the obstacle.".toList,
      "Vary the angle across candidates instead of rephrasing one idea.".toList,
      []]
    fields := [
      ("premise", param params "premise" (.str "")),
      ("genre", param params "genre" (.str "")),
      ("audience", param params "audience" (.str "")),
      ("tone", param params "tone" (.str "")),
      ("language", param params "language" (.str "ja")),
      ("count", .int count)] }

/-- `_beat_sheet_prompt`. -/
def beatSheetPrompt (params : Dict Value) : Except Exc TaskPrompt := do
  let structureName := lib.str (param params "structure" (.str "three-act"))
  let acts := (beatStructures.get? structureName).getD ["setup", "confrontation", "resolution"]
  let beatCount ← clampInt lib (param params "beat_count" (.int (acts.length * 2))) 2 24
  let counted := lib.str (.int beatCount)
  let listed := ", ".intercalate acts
  return {
    intro := [
      s!"Break the logline into {counted} beats using the {structureName} structure.".toList,
      s!"Available acts: {listed}.".toList,
      "Each beat states which act it belongs to, what it accomplishes, and what happens.".toList,
      []]
    fields := [
      ("logline", param params "logline" (.str "")),
      ("premise", param params "premise" (.str "")),
      ("genre", param params "genre" (.str "")),
      ("tone", param params "tone" (.str "")),
      ("structure", .str structureName),
      ("language", param params "language" (.str "ja")),
      ("beat_count", .int beatCount)] }

/-- `_scene_list_prompt`. -/
def sceneListPrompt (params : Dict Value) : Except Exc TaskPrompt := do
  let sceneCount ← clampInt lib (param params "scene_count" (.int 5)) 1 24
  let totalDuration := param params "total_duration_seconds" (.int (sceneCount * 4))
  let counted := lib.str (.int sceneCount)
  let motions := ", ".intercalate supportedMotions
  let seconds := lib.str totalDuration
  return {
    intro := [
      s!"Turn the beats into {counted} shootable scenes.".toList,
      "For each scene provide: a heading, a one-sentence summary, narration text,".toList,
      "an English image_prompt suitable for a diffusion model, an image_negative,".toList,
      "a bgm_mood keyword, a duration_seconds, and a camera movement.".toList,
      s!"camera must be exactly one of: {motions}.".toList,
      s!"Scene durations should sum to roughly {seconds} seconds.".toList,
      []]
    fields := [
      ("logline", param params "logline" (.str "")),
      ("beats", .str (summarizeList lib (params.get? "beats"))),
      ("tone", param params "tone" (.str "")),
      ("mood", param params "mood" (param params "tone" (.str ""))),
      ("subject", param params "subject" (param params "logline" (.str ""))),
      ("language", param params "language" (.str "ja")),
      ("scene_count", .int sceneCount),
      ("total_duration_seconds", totalDuration)] }

/-- The continuity block of a prose task. -/
def continuityBlock (params : Dict Value) : Text :=
  stripText (lib.str (param params "continuity_context" (.str ""))).toList

/-- `_prose_prompt`. -/
def prosePrompt (params : Dict Value) : Except Exc TaskPrompt := do
  let targetWords ← clampInt lib (param params "target_words" (.int 800)) 80 8000
  let counted := lib.str (.int targetWords)
  let block := continuityBlock lib params
  return {
    intro := [
      s!"Write this scene as prose of about {counted} words.".toList,
      "Return markdown in prose_markdown with paragraph breaks, and a chapter title.".toList,
      "Stay in the requested point of view and tense throughout.".toList] ++
      (if block = [] then [] else [
        [],
        ("Stay consistent with the continuity memory below; do not " ++
          "contradict or silently re-resolve any of it.").toList,
        block]) ++ [[]]
    fields := [
      ("scene", param params "scene" (.str "")),
      ("title", param params "title" (.str "")),
      ("subject", param params "subject" (param params "title" (.str ""))),
      ("style", param params "style" (.str "")),
      ("pov", param params "pov" (.str "third person limited")),
      ("tense", param params "tense" (.str "past")),
      ("tone", param params "tone" (.str "")),
      ("language", param params "language" (.str "ja")),
      ("target_words", .int targetWords)] }

/-- `_script_prompt`. -/
def scriptPrompt (params : Dict Value) : Except Exc TaskPrompt := do
  let count ← clampInt lib (param params "count" (.int 4)) 1 40
  return {
    intro := [
      "Write the spoken lines for this scene.".toList,
      "Each line has a speaker, the text to be spoken, and an optional direction.".toList,
      "Narration lines use the speaker name 'NARRATOR'.".toList,
      []]
    fields := [
      ("scene", param params "scene" (.str "")),
      ("subject", param params "subject" (.str "")),
      ("characters", .str (summarizeList lib (params.get? "characters"))),
      ("tone", param params "tone" (.str "")),
      ("language", param params "language" (.str "ja")),
      ("count", .int count)] }

/-- `_prompt_pack_prompt`. -/
def promptPackPrompt (params : Dict Value) : Except Exc TaskPrompt := do
  let count ← clampInt lib (param params "count" (.int 6)) 1 40
  let counted := lib.str (.int count)
  let axis := lib.str (param params "variation_axis" (.str "composition"))
  return {
    intro := [
      s!"Write {counted} English diffusion prompts for the subject below.".toList,
      s!"Vary them along this axis: {axis}.".toList,
      "Each entry has a short slug label, the prompt, and a negative_prompt.".toList,
      []]
    fields := [
      ("subject", param params "subject" (.str "")),
      ("variation_axis", param params "variation_axis" (.str "composition")),
      ("style", param params "style" (.str "")),
      ("mood", param params "mood" (.str "")),
      ("count", .int count)] }

/-- `_character_sheet_prompt`. -/
def characterSheetPrompt (params : Dict Value) : Except Exc TaskPrompt :=
  .ok {
    intro := [
      "Turn this character brief into reusable Creative Bible fields.".toList,
      "prompt_fragment is an English comma-separated visual description.".toList,
      "attributes holds stable slots such as hair, eyes, outfit, build.".toList,
      []]
    fields := [
      ("brief", param params "brief" (.str "")),
      ("subject", param params "subject" (param params "brief" (.str ""))),
      ("name", param params "name" (.str "")),
      ("style", param params "style" (.str "")),
      ("mood", param params "mood" (.str "")),
      ("language", param params "language" (.str "ja"))] }

/-- The parts of `task.build_prompt(params)`. -/
def taskPrompt : StoryTask → Dict Value → Except Exc TaskPrompt
  | .logline => loglinePrompt lib
  | .beatSheet => beatSheetPrompt lib
  | .sceneList => sceneListPrompt lib
  | .prose => prosePrompt lib
  | .script => scriptPrompt lib
  | .promptPack => promptPackPrompt lib
  | .characterSheet => characterSheetPrompt

/-- The text of a field that `_brief` does not skip. -/
def renderField : String × Value → Option (String × Text)
  | (_, .null) => none
  | (key, .str text) => if text = "" then none else some (key, text.toList)
  | (key, value) => some (key, (lib.str value).toList)

/-- The fields that `_brief` renders. -/
def TaskPrompt.rendered (prompt : TaskPrompt) : List (String × Text) := prompt.fields.filterMap (renderField lib)

/-- The text of the prompt. -/
def TaskPrompt.text (prompt : TaskPrompt) : Text := joinLines (prompt.intro ++ [brief (prompt.rendered lib)])

/-- `task.build_prompt(params)`. -/
def buildPrompt (task : StoryTask) (params : Dict Value) : Except Exc Text :=
  (taskPrompt lib task params).map (TaskPrompt.text lib)

end

/-! ## Lines that start with a number sign -/

/-- The line starts with `#`, after whitespace. -/
def isLed (line : Text) : Bool := (stripText line).head? == some '#'

/-- How many lines of a text start with `#`. -/
def ledLines (text : Text) : ℕ := (pieces text).countP isLed

theorem isLed_of_isHeading {line : Text} (h : isHeading line) : isLed line := by
  obtain ⟨rest, hrest⟩ := List.isPrefixOf_iff_prefix.mp h
  rw [isLed, ← hrest]
  rfl

theorem isLed_of_isStop {line : Text} (h : isStop line) : isLed line := by
  obtain ⟨rest, hrest⟩ := List.isPrefixOf_iff_prefix.mp (Bool.and_eq_true _ _ ▸ h).2
  rw [isLed, ← hrest]
  rfl

theorem isLed_of_isBlank {line : Text} (h : isBlank line) : isLed line = false := by
  rw [isLed, stripText_of_isBlank h]
  rfl

theorem isLed_append_of_isBlank {before : Text} (h : isBlank before) (line : Text) :
    isLed (before ++ line) = isLed line := by
  rw [isLed, stripText_append_of_isBlank_left h]
  rfl

theorem head?_rstrip_cons {c : Char} (h : isSpace c = false) (text : Text) : (rstrip (c :: text)).head? = some c := by
  by_cases hblank : isBlank text
  · rw [← List.singleton_append, rstrip_append_of_isBlank hblank, rstrip, List.rdropWhile_singleton,
      if_neg (by simp [h])]
    rfl
  · rw [← List.singleton_append, rstrip_append_of_not_isBlank hblank]
    rfl

section
variable {lower : String → String} {lines : List Text}

/-- A brief does not begin where no line starts with `#`. -/
theorem read_before_of_led (h : lines.countP isLed = 0) : Reading.before.read lower lines = .before := by
  induction lines with
  | nil => rfl
  | cons line rest ih =>
    rw [List.countP_cons] at h
    have hline : ¬isLed line := fun hled => by
      rw [if_pos hled] at h
      omega
    rw [read_cons, Reading.step, if_neg (mt isLed_of_isHeading hline), ih (by omega)]

theorem read_inside_of_led (h : lines.countP isLed = 0) (context context' : Dict String) :
    (Reading.inside context).read lower lines ≠ .done context' := by
  obtain ⟨context'', hcontext⟩ := @read_of_not_stop lower context lines fun line hline => by
    have hled := List.countP_eq_zero.mp h line hline
    simpa using mt isLed_of_isStop hled
  rw [hcontext]
  intro h
  cases h

/-- A brief does not end where one line alone starts with `#`. -/
theorem read_ne_done (h : lines.countP isLed ≤ 1) (context : Dict String) :
    Reading.before.read lower lines ≠ .done context := by
  induction lines with
  | nil =>
    intro h
    cases h
  | cons line rest ih =>
    rw [List.countP_cons] at h
    rw [read_cons, Reading.step]
    split
    next hheading =>
      rw [if_pos (isLed_of_isHeading hheading)] at h
      exact read_inside_of_led (by omega) _ _
    next => exact ih (by omega)

end

theorem ledLines_of_isBlank_append {before : Text} (h : isBlank before) (text : Text) :
    ledLines (before ++ text) = ledLines text := by
  unfold ledLines
  induction before with
  | nil => rfl
  | cons c rest ih =>
    obtain ⟨hc, hrest⟩ := List.forall_mem_cons.mp (isBlank_iff.mp h)
    rw [← ih (isBlank_iff.mpr hrest), List.cons_append, pieces_cons]
    split
    · rw [List.countP_cons, if_neg (by simp [isLed_of_isBlank (show isBlank [] from rfl)])]
      rfl
    · obtain ⟨first, more, hpieces⟩ := List.exists_cons_of_ne_nil (pieces_ne_nil (rest ++ text))
      have hblank : isBlank [c] := by simp [isBlank, hc]
      have hfirst : isLed (c :: first) = isLed first := isLed_append_of_isBlank hblank first
      rw [hpieces, List.modifyHead_cons, List.countP_cons, List.countP_cons, hfirst]

theorem tail_pieces_append {line : Text} (h : ∀ c ∈ line, isLineBreak c = false) (text : Text) :
    (pieces (line ++ text)).tail = (pieces text).tail := by
  rw [pieces_append h, List.tail_modifyHead]

theorem ledLines_le (text : Text) : ledLines text ≤ (pieces text).tail.countP isLed + 1 := by
  obtain ⟨first, rest, hpieces⟩ := List.exists_cons_of_ne_nil (pieces_ne_nil text)
  rw [ledLines, hpieces, List.countP_cons, List.tail_cons]
  split <;> omega

theorem countP_tail_le (text : Text) : (pieces text).tail.countP isLed ≤ ledLines text :=
  (List.tail_sublist _).countP_le

/-- A text after a start of a line that shows something else than `#`. -/
theorem ledLines_append {c : Char} {line : Text} (hc : isSpace c = false) (hne : c ≠ '#')
    (h : ∀ d ∈ c :: line, isLineBreak d = false) (text : Text) :
    ledLines (c :: line ++ text) = (pieces text).tail.countP isLed := by
  obtain ⟨first, rest, hpieces⟩ := List.exists_cons_of_ne_nil (pieces_ne_nil text)
  rw [ledLines, pieces_append h, hpieces, List.modifyHead_cons, List.tail_cons, List.countP_cons, if_neg]
  · rfl
  · rw [isLed, List.cons_append, stripText_of_head hc, head?_rstrip_cons hc]
    simpa using hne

section
variable {c : Char} {line after : Text} (hc : isSpace c = false) (hne : c ≠ '#')
  (h : ∀ d ∈ c :: line, isLineBreak d = false) (hafter : ledLines after = 0)
include hc hne h hafter

/-- A value of one line in a line of instructions. -/
theorem ledLines_of_oneLine {value : Text} (hone : OneLine value) : ledLines (c :: line ++ (value ++ after)) = 0 := by
  rw [ledLines_append hc hne h, ← rstrip_append_rtakeWhile value, List.append_assoc, tail_pieces_append hone]
  have hle := countP_tail_le (value.rtakeWhile isSpace ++ after)
  rw [ledLines_of_isBlank_append (isBlank_rtakeWhile value), hafter] at hle
  exact Nat.le_zero.mp hle

/-- A value of several lines that shows something on one of them. -/
theorem ledLines_le_one {value : Text} (hone : ∀ d ∈ stripText value, isLineBreak d = false) :
    ledLines (c :: line ++ (value ++ after)) ≤ 1 := by
  have hvalue : value =
      value.takeWhile isSpace ++ (stripText value ++ (value.dropWhile isSpace).rtakeWhile isSpace) := by
    rw [stripText_eq, rstrip_append_rtakeWhile, List.takeWhile_append_dropWhile]
  rw [ledLines_append hc hne h]
  refine (countP_tail_le _).trans ?_
  rw [hvalue, List.append_assoc, ledLines_of_isBlank_append (isBlank_iff.mpr fun d hd => List.mem_takeWhile_imp hd),
    List.append_assoc]
  refine (ledLines_le _).trans ?_
  rw [tail_pieces_append hone]
  have hle := countP_tail_le ((value.dropWhile isSpace).rtakeWhile isSpace ++ after)
  rw [ledLines_of_isBlank_append (isBlank_rtakeWhile _), hafter] at hle
  omega

end

/-! ## When the brief survives the prompt -/

/-- The names of the fields of a task. -/
def fieldNames : StoryTask → List String
  | .logline => ["premise", "genre", "audience", "tone", "language", "count"]
  | .beatSheet => ["logline", "premise", "genre", "tone", "structure", "language", "beat_count"]
  | .sceneList =>
    ["logline", "beats", "tone", "mood", "subject", "language", "scene_count", "total_duration_seconds"]
  | .prose => ["scene", "title", "subject", "style", "pov", "tense", "tone", "language", "target_words"]
  | .script => ["scene", "subject", "characters", "tone", "language", "count"]
  | .promptPack => ["subject", "variation_axis", "style", "mood", "count"]
  | .characterSheet => ["brief", "subject", "name", "style", "mood", "language"]

/-- The parameter of a task that is clamped to an integer. -/
def countParam : StoryTask → Option String
  | .logline | .script | .promptPack => some "count"
  | .beatSheet => some "beat_count"
  | .sceneList => some "scene_count"
  | .prose => some "target_words"
  | .characterSheet => none

/-- `float(value)` is not infinite, and does not overflow. -/
def Clampable (lib : ValueLibrary) (value : Value) : Prop :=
  match toPyFloat lib value with
  | .ok x => x = .nan ∨ x.isFinite
  | .error e => e = .unreadable

/-- The parameter that is clamped can be. -/
def Counts (lib : ValueLibrary) (task : StoryTask) (params : Dict Value) : Prop :=
  ∀ name ∈ countParam task, ∀ value ∈ params.get? name, Clampable lib value

/-- How the program prints and lowers what it has no control over. -/
structure PlainPrinting (lib : ValueLibrary) (lower : String → String) : Prop where
  int : ∀ n : ℤ, ∀ c ∈ (lib.str (.int n)).toList, isLineBreak c = false
  null : ∀ c ∈ (lib.str .null).toList, isLineBreak c = false
  lower : ∀ text : String, (∀ c ∈ text.toList, c.toNat < 128 ∧ c.isUpper = false) → lower text = text

/-- What the template runtime reads is what the task wrote. -/
def BriefSurvives (lib : ValueLibrary) (lower : String → String) (task : StoryTask) (params : Dict Value) : Prop :=
  ∃ prompt, taskPrompt lib task params = .ok prompt ∧
    ∀ key, (parseBrief lower (prompt.text lib)).get? key = (stripped (prompt.rendered lib)).get? key

/-- What the request has to be for that. -/
def Faithful (lib : ValueLibrary) (lower : String → String) (task : StoryTask) (params : Dict Value)
    (fields : List (String × Text)) : Prop :=
  match task with
  | .prose => Allows fields (Reading.before.read lower (pieces (continuityBlock lib params)))
  | _ => ∀ field ∈ fields, OneLine field.2

section
variable {lib : ValueLibrary} {lower : String → String} {task : StoryTask} {params : Dict Value} {prompt : TaskPrompt}

theorem overflow_gt (n : ℤ) (h : |n| ≤ 1000) : ¬PyFloat.overflow ≤ |(n : ℚ)| := by
  have hsmall : |(n : ℚ)| ≤ 1000 := by exact_mod_cast h
  have hpow : (2 : ℚ) ^ 10 ≤ 2 ^ 970 := pow_le_pow_right₀ one_le_two (by omega)
  have hsplit : (2 : ℚ) ^ 1024 = 2 ^ 970 * 2 ^ 54 := (pow_add 2 970 54)
  have hbig : (1000 : ℚ) < PyFloat.overflow := by
    rw [PyFloat.overflow, hsplit]
    generalize (2 : ℚ) ^ 970 = x at hpow
    norm_num at hpow ⊢
    linarith
  exact not_le.mpr (hsmall.trans_lt hbig)

theorem clampInt_isOk (value : Value) (low high : ℤ) :
    (∃ n, clampInt lib value low high = .ok n) ↔ Clampable lib value := by
  unfold clampInt Clampable
  rcases toPyFloat lib value with (_ | _) | (q | _ | _ | _) <;> simp [PyFloat.isFinite]

theorem clampable_int (n : ℤ) (h : |n| ≤ 1000) : Clampable lib (.int n) := by
  have hfloat : toPyFloat lib (.int n) = .ok (.finite n) := if_neg (overflow_gt n h)
  rw [Clampable, hfloat]
  exact .inr rfl

theorem taskPrompt_fields (h : taskPrompt lib task params = .ok prompt) :
    prompt.fields.map Prod.fst = fieldNames task := by
  cases task with
  | characterSheet =>
    obtain rfl := Except.ok.inj h
    rfl
  | _ =>
    obtain ⟨count, -, h⟩ := bind_eq_ok.mp h
    obtain rfl := Except.ok.inj h
    rfl

theorem length_acts (name : String) :
    ((beatStructures.get? name).getD ["setup", "confrontation", "resolution"]).length ≤ 7 := by
  have hall : ∀ entry ∈ beatStructures, entry.2.length ≤ 7 := by decide
  cases hget : beatStructures.get? name with
  | none => exact hall ("three-act", ["setup", "confrontation", "resolution"]) List.mem_cons_self
  | some acts => exact hall (name, acts) (Dict.mem_of_get? hget)

theorem exists_taskPrompt : (∃ prompt, taskPrompt lib task params = .ok prompt) ↔ Counts lib task params := by
  have hclamp (name : String) (n low high : ℤ) (hn : |n| ≤ 1000) :
      (∃ count, clampInt lib (param params name (.int n)) low high = .ok count) ↔
        ∀ value ∈ params.get? name, Clampable lib value := by
    rw [clampInt_isOk, param]
    cases params.get? name with
    | none => simp [clampable_int n hn]
    | some value => simp
  have hbind (clamped : Except Exc ℤ) (build : ℤ → TaskPrompt) :
      (∃ prompt, (do let count ← clamped; return build count) = .ok prompt) ↔ ∃ count, clamped = .ok count := by
    cases clamped with
    | error e => simp [Bind.bind, Except.bind]
    | ok n => simp [Bind.bind, Except.bind, pure, Except.pure]
  have hcounts (name : String) (h : countParam task = some name) :
      Counts lib task params ↔ ∀ value ∈ params.get? name, Clampable lib value := by
    simp [Counts, h]
  cases task with
  | logline => exact (hbind _ _).trans ((hclamp "count" 3 1 12 (by norm_num)).trans (hcounts _ rfl).symm)
  | sceneList => exact (hbind _ _).trans ((hclamp "scene_count" 5 1 24 (by norm_num)).trans (hcounts _ rfl).symm)
  | prose => exact (hbind _ _).trans ((hclamp "target_words" 800 80 8000 (by norm_num)).trans (hcounts _ rfl).symm)
  | script => exact (hbind _ _).trans ((hclamp "count" 4 1 40 (by norm_num)).trans (hcounts _ rfl).symm)
  | promptPack => exact (hbind _ _).trans ((hclamp "count" 6 1 40 (by norm_num)).trans (hcounts _ rfl).symm)
  | characterSheet => exact ⟨fun _ _ h => (Option.some_ne_none _ h.symm).elim, fun _ => ⟨_, rfl⟩⟩
  | beatSheet =>
    refine (hbind _ _).trans ((hclamp "beat_count" _ 2 24 (abs_le.mpr ?_)).trans (hcounts _ rfl).symm)
    have hacts := length_acts (lib.str (param params "structure" (.str "three-act")))
    constructor <;> omega

theorem plainKey_of_mem (h : PlainPrinting lib lower) {name : String} (hname : name ∈ fieldNames task) :
    PlainKey lower name := by
  have hfacts : ∀ task : StoryTask, ∀ name ∈ fieldNames task, ':' ∉ name.toList ∧
      (∀ c ∈ name.toList, isLineBreak c = false) ∧ (∀ c ∈ name.toList, c.toNat < 128 ∧ c.isUpper = false) ∧
      stripText ((stripText ("- ".toList ++ name.toList)).dropWhile (· = '-')) = name.toList ∧
      name.toList.map (fun c => if c = ' ' then '_' else c) = name.toList ∧ name ≠ "" := by
    intro task
    cases task <;> decide
  obtain ⟨hcolon, hbreak, hascii, hstrip, hspaces, hne⟩ := hfacts task name hname
  refine ⟨hcolon, hbreak, ?_, hne⟩
  rw [normalizeKey, hstrip, String.ofList_toList, h.lower name hascii, hspaces, String.ofList_toList]

theorem renderField_fst {field : String × Value} {rendered : String × Text}
    (h : renderField lib field = some rendered) : rendered.1 = field.1 := by
  obtain ⟨key, value⟩ := field
  unfold renderField at h
  split at h
  · cases h
  next heq =>
    split at h
    · cases h
    · rw [← Option.some.inj h, ← congrArg Prod.fst heq]
  next heq => rw [← Option.some.inj h, ← congrArg Prod.fst heq]

theorem rendered_sublist (prompt : TaskPrompt) :
    ((prompt.rendered lib).map Prod.fst).Sublist (prompt.fields.map Prod.fst) := by
  unfold TaskPrompt.rendered
  induction prompt.fields with
  | nil => exact .slnil
  | cons field rest ih =>
    rw [List.filterMap_cons, List.map_cons]
    cases hfield : renderField lib field with
    | none => exact ih.cons _
    | some rendered =>
      rw [List.map_cons, renderField_fst hfield]
      exact ih.cons_cons _

theorem nodup_fieldNames (task : StoryTask) : (fieldNames task).Nodup := by
  cases task <;> decide

/-- The value of a field is empty, or rendered. -/
theorem mem_rendered {name : String} {value : Value} (h : (name, value) ∈ prompt.fields) :
    value = .null ∨ value = .str "" ∨ (name, (lib.str value).toList) ∈ prompt.rendered lib := by
  by_cases hnull : value = .null
  · exact .inl hnull
  by_cases hempty : value = .str ""
  · exact .inr (.inl hempty)
  refine .inr (.inr (List.mem_filterMap.mpr ⟨_, h, ?_⟩))
  unfold renderField
  split
  next heq => exact absurd (Prod.mk.inj heq).2 hnull
  next heq =>
    obtain ⟨rfl, rfl⟩ := Prod.mk.inj heq
    rw [if_neg fun htext => hempty (by rw [htext]), lib.str_str]
  next heq =>
    obtain ⟨rfl, rfl⟩ := Prod.mk.inj heq
    rfl

theorem countP_intro (intro : List Text) : (intro.flatMap pieces).countP isLed = (intro.map ledLines).sum := by
  rw [List.countP_flatMap]
  rfl

/-- One line that does not start with `#`. -/
def isPlain (line : Text) : Bool := line.all (!isLineBreak ·) && !isLed line

theorem ledLines_of_isPlain {chars : Text} (h : isPlain chars) : ledLines (String.ofList chars).toList = 0 := by
  obtain ⟨hline, hled⟩ := (Bool.and_eq_true _ _).mp h
  have hline : ∀ c ∈ chars, isLineBreak c = false := by simpa using hline
  rw [String.toList_ofList, ledLines, pieces_of_forall hline, List.countP_singleton, if_neg (by simpa using hled)]

theorem ledLines_append_of_isPlain {chars chars' : Text} (h : isPlain (chars ++ chars')) :
    ledLines (String.ofList chars ++ String.ofList chars').toList = 0 := by
  rw [← String.ofList_append]
  exact ledLines_of_isPlain h

@[simp] theorem ledLines_nil : ledLines [] = 0 := rfl

/-- The beginning of a line of instructions. -/
def IsOpening (before : String) : Prop :=
  (∀ c ∈ before.toList, isLineBreak c = false) ∧ before.toList.head?.any (fun c => !isSpace c && c ≠ '#')

theorem isOpening_of_isPlain {chars : Text} (h : isPlain chars) (hhead : chars.head?.any (!isSpace ·)) :
    IsOpening (String.ofList chars) := by
  obtain ⟨hline, hled⟩ := (Bool.and_eq_true _ _).mp h
  rw [IsOpening, String.toList_ofList]
  refine ⟨by simpa using hline, ?_⟩
  cases chars with
  | nil => cases hhead
  | cons c rest =>
    have hc : isSpace c = false := by simpa using hhead
    have hne : c ≠ '#' := by
      rintro rfl
      rw [isLed, stripText_of_head hc, head?_rstrip_cons hc] at hled
      cases hled
    simp [hc, hne]

theorem IsOpening.exists_cons {before : String} (h : IsOpening before) :
    ∃ c line, before.toList = c :: line ∧ isSpace c = false ∧ c ≠ '#' := by
  obtain ⟨-, hhead⟩ := h
  cases hbefore : before.toList with
  | nil =>
    rw [hbefore] at hhead
    cases hhead
  | cons c line =>
    rw [hbefore] at hhead
    simp only [List.head?_cons, Option.any_some, Bool.and_eq_true, Bool.not_eq_true', decide_eq_true_eq] at hhead
    exact ⟨c, line, rfl, hhead⟩

theorem IsOpening.append {before text : String} (h : IsOpening before)
    (htext : ∀ c ∈ text.toList, isLineBreak c = false) : IsOpening (before ++ text) := by
  obtain ⟨c, line, hbefore, -⟩ := h.exists_cons
  refine ⟨fun d hd => ?_, ?_⟩
  · rw [String.toList_append] at hd
    exact (List.mem_append.mp hd).elim (h.1 d) (htext d)
  · have hhead := h.2
    rw [hbefore] at hhead
    rw [String.toList_append, hbefore]
    exact hhead

theorem IsOpening.ledLines {before value after : String} (h : IsOpening before) (hafter : ledLines after.toList = 0)
    (hone : OneLine value.toList) : ledLines (before ++ value ++ after).toList = 0 := by
  obtain ⟨c, line, hbefore, hc, hne⟩ := h.exists_cons
  rw [String.toList_append, String.toList_append, hbefore, List.append_assoc]
  exact ledLines_of_oneLine hc hne (hbefore ▸ h.1) hafter hone

theorem IsOpening.ledLines_le {before value after : String} (h : IsOpening before)
    (hafter : Generators.ledLines after.toList = 0) (hone : ∀ c ∈ stripText value.toList, isLineBreak c = false) :
    Generators.ledLines (before ++ value ++ after).toList ≤ 1 := by
  obtain ⟨c, line, hbefore, hc, hne⟩ := h.exists_cons
  rw [String.toList_append, String.toList_append, hbefore, List.append_assoc]
  exact ledLines_le_one hc hne (hbefore ▸ h.1) hafter hone

/-- The acts of every structure are listed on one line. -/
theorem oneLine_acts (name : String) :
    OneLine (", ".intercalate ((beatStructures.get? name).getD ["setup", "confrontation", "resolution"])).toList := by
  have hall : ∀ entry ∈ beatStructures, OneLine (", ".intercalate entry.2).toList := by decide
  cases hget : beatStructures.get? name with
  | none => exact hall ("three-act", ["setup", "confrontation", "resolution"]) List.mem_cons_self
  | some acts => exact hall (name, acts) (Dict.mem_of_get? hget)

theorem PlainPrinting.ledLines_int (h : PlainPrinting lib lower) {before after : String} (hbefore : IsOpening before)
    (hafter : ledLines after.toList = 0) (n : ℤ) : ledLines (before ++ lib.str (.int n) ++ after).toList = 0 :=
  hbefore.ledLines hafter fun c hc => h.int n c ((List.rdropWhile_prefix ..).subset hc)

/-- A line among others that do not start with `#`. -/
theorem sum_ledLines {before after : List Text} {line : Text} (hbefore : ∀ line ∈ before, ledLines line = 0)
    (hafter : ∀ line ∈ after, ledLines line = 0) :
    ((before ++ line :: after).map ledLines).sum = ledLines line := by
  rw [List.map_append, List.sum_append, List.map_cons, List.sum_cons,
    List.sum_eq_zero_iff.mpr (List.forall_mem_map.mpr hbefore),
    List.sum_eq_zero_iff.mpr (List.forall_mem_map.mpr hafter)]
  omega

/-- No line of the instructions starts with `#`, but for one that holds a value of the brief. -/
theorem led_intro (h : PlainPrinting lib lower) (hprose : task ≠ .prose)
    (hprompt : taskPrompt lib task params = .ok prompt) :
    (∀ line ∈ prompt.intro, ledLines line = 0) ∨
      ∃ name value first before after rest, (name, value) ∈ prompt.fields ∧ IsOpening before ∧
        ledLines after.toList = 0 ∧ prompt.intro = first ++ (before ++ lib.str value ++ after).toList :: rest ∧
        (∀ line ∈ first, ledLines line = 0) ∧ ∀ line ∈ rest, ledLines line = 0 := by
  have hnil : ∀ line ∈ ([] : List Text), ledLines line = 0 := fun _ h => absurd h List.not_mem_nil
  cases task with
  | prose => exact absurd rfl hprose
  | characterSheet =>
    obtain rfl := Except.ok.inj hprompt
    left
    refine List.forall_mem_cons.mpr ⟨ledLines_of_isPlain (by decide), ?_⟩
    refine List.forall_mem_cons.mpr ⟨ledLines_of_isPlain (by decide), ?_⟩
    exact List.forall_mem_cons.mpr ⟨ledLines_of_isPlain (by decide), List.forall_mem_cons.mpr ⟨rfl, hnil⟩⟩
  | script =>
    obtain ⟨count, -, hprompt⟩ := bind_eq_ok.mp hprompt
    obtain rfl := Except.ok.inj hprompt
    left
    refine List.forall_mem_cons.mpr ⟨ledLines_of_isPlain (by decide), ?_⟩
    refine List.forall_mem_cons.mpr ⟨ledLines_of_isPlain (by decide), ?_⟩
    exact List.forall_mem_cons.mpr ⟨ledLines_of_isPlain (by decide), List.forall_mem_cons.mpr ⟨rfl, hnil⟩⟩
  | logline =>
    obtain ⟨count, -, hprompt⟩ := bind_eq_ok.mp hprompt
    obtain rfl := Except.ok.inj hprompt
    left
    refine List.forall_mem_cons.mpr ⟨h.ledLines_int (isOpening_of_isPlain ?_ ?_) (ledLines_of_isPlain ?_) count, ?_⟩
    · decide
    · rfl
    · decide
    refine List.forall_mem_cons.mpr ⟨ledLines_of_isPlain (by decide), ?_⟩
    exact List.forall_mem_cons.mpr ⟨ledLines_of_isPlain (by decide), List.forall_mem_cons.mpr ⟨rfl, hnil⟩⟩
  | beatSheet =>
    obtain ⟨count, -, hprompt⟩ := bind_eq_ok.mp hprompt
    obtain rfl := Except.ok.inj hprompt
    right
    let structureName := lib.str (param params "structure" (.str "three-act"))
    refine ⟨"structure", .str structureName, [],
      "Break the logline into " ++ lib.str (.int count) ++ " beats using the ", " structure.",
      [("Available acts: " ++ ", ".intercalate ((beatStructures.get? structureName).getD
        ["setup", "confrontation", "resolution"]) ++ ".").toList,
        "Each beat states which act it belongs to, what it accomplishes, and what happens.".toList, []],
      by simp [structureName], ?_, ledLines_of_isPlain (by decide), ?_, hnil, ?_⟩
    · exact ((isOpening_of_isPlain (by decide) rfl).append (h.int count)).append (by decide)
    · rw [lib.str_str]
      rfl
    · refine List.forall_mem_cons.mpr ⟨?_, List.forall_mem_cons.mpr ⟨ledLines_of_isPlain (by decide), ?_⟩⟩
      · exact (isOpening_of_isPlain (by decide) rfl).ledLines (ledLines_of_isPlain (by decide))
          (oneLine_acts _)
      · exact List.forall_mem_cons.mpr ⟨rfl, hnil⟩
  | sceneList =>
    obtain ⟨count, -, hprompt⟩ := bind_eq_ok.mp hprompt
    obtain rfl := Except.ok.inj hprompt
    right
    have hmotions : OneLine (", ".intercalate supportedMotions).toList := by decide
    refine ⟨"total_duration_seconds", _, [_, _, _, _, _], "Scene durations should sum to roughly ", " seconds.", _,
      by simp, isOpening_of_isPlain (by decide) rfl, ledLines_of_isPlain (by decide), rfl, ?_, ?_⟩
    · refine List.forall_mem_cons.mpr ⟨h.ledLines_int (isOpening_of_isPlain ?_ ?_) (ledLines_of_isPlain ?_) count, ?_⟩
      · decide
      · rfl
      · decide
      refine List.forall_mem_cons.mpr ⟨ledLines_of_isPlain (by decide), ?_⟩
      refine List.forall_mem_cons.mpr ⟨ledLines_of_isPlain (by decide), ?_⟩
      refine List.forall_mem_cons.mpr ⟨ledLines_of_isPlain (by decide), List.forall_mem_cons.mpr ⟨?_, hnil⟩⟩
      exact (isOpening_of_isPlain (by decide) rfl).ledLines (ledLines_of_isPlain (by decide)) hmotions
    · exact List.forall_mem_cons.mpr ⟨rfl, hnil⟩
  | promptPack =>
    obtain ⟨count, -, hprompt⟩ := bind_eq_ok.mp hprompt
    obtain rfl := Except.ok.inj hprompt
    right
    refine ⟨"variation_axis", _, [_], "Vary them along this axis: ", ".", _,
      by simp, isOpening_of_isPlain (by decide) rfl, ledLines_of_isPlain (by decide), rfl, ?_, ?_⟩
    · refine List.forall_mem_cons.mpr ⟨h.ledLines_int (isOpening_of_isPlain ?_ ?_) (ledLines_of_isPlain ?_) count, hnil⟩
      · decide
      · rfl
      · decide
    · exact List.forall_mem_cons.mpr ⟨ledLines_of_isPlain (by decide), List.forall_mem_cons.mpr ⟨rfl, hnil⟩⟩

/-- What holds of the texts that are rendered, of `None` and of no text holds of every field. -/
theorem forall_field {P : Text → Prop} (hnull : P (lib.str .null).toList) (hempty : P [])
    (hrendered : ∀ field ∈ prompt.rendered lib, P field.2) {name : String} {value : Value}
    (h : (name, value) ∈ prompt.fields) : P (lib.str value).toList := by
  rcases mem_rendered h with rfl | rfl | hmem
  · exact hnull
  · rw [lib.str_str]
    exact hempty
  · exact hrendered _ hmem

/-- The instructions of a task without a continuity block do not get in the way of its brief. -/
theorem allows_iff (h : PlainPrinting lib lower) (hprose : task ≠ .prose)
    (hprompt : taskPrompt lib task params = .ok prompt) :
    Allows (prompt.rendered lib) (Reading.before.read lower (prompt.intro.flatMap pieces)) ↔
      ∀ field ∈ prompt.rendered lib, OneLine field.2 := by
  have hnames : ((prompt.rendered lib).map Prod.fst).Nodup :=
    (taskPrompt_fields hprompt ▸ nodup_fieldNames task).sublist (rendered_sublist prompt)
  constructor
  · intro hallows
    cases hread : Reading.before.read lower (prompt.intro.flatMap pieces) with
    | before =>
      rw [hread] at hallows
      exact hallows
    | inside context =>
      rw [hread] at hallows
      exact hallows.1
    | done context =>
      -- what was read above has no line break in it, so that only one line there starts with `#`
      rw [hread] at hallows
      have hstripped : ((stripped (prompt.rendered lib)).map Prod.fst).Nodup := by rwa [names_stripped]
      have hsingle : ∀ field ∈ prompt.rendered lib, ∀ c ∈ stripText field.2, isLineBreak c = false := by
        intro field hfield c hc
        have hget : context.get? field.1 = some (.ofList (stripText field.2)) := by
          rw [hallows]
          exact Dict.get?_of_mem hstripped (List.mem_map_of_mem hfield)
        have hlines : ∀ line ∈ prompt.intro.flatMap pieces, ∀ c ∈ line, isLineBreak c = false := by
          intro line hline
          obtain ⟨text, -, hpiece⟩ := List.mem_flatMap.mp hline
          exact not_isLineBreak_of_mem hpiece
        have hvalues := @not_isLineBreak_of_read lower .before _ hlines fun key value h => by cases h
        rw [hread] at hvalues
        exact hvalues _ _ hget c (by rwa [String.toList_ofList])
      refine absurd hread (read_ne_done ?_ context)
      rw [countP_intro]
      rcases led_intro h hprose hprompt with
        hnone | ⟨name, value, first, before, after, rest, hfield, hbefore, hafter, hintro, hfirst, hrest⟩
      · rw [List.sum_eq_zero_iff.mpr (List.forall_mem_map.mpr hnone)]
        exact Nat.zero_le 1
      · rw [hintro, sum_ledLines hfirst hrest]
        refine hbefore.ledLines_le hafter ?_
        exact forall_field (P := fun text => ∀ c ∈ stripText text, isLineBreak c = false)
          (fun c hc => h.null c (mem_of_mem_stripText hc)) (fun c hc => absurd hc List.not_mem_nil) hsingle hfield
  · intro hone
    rw [read_before_of_led]
    · exact hone
    rw [countP_intro]
    rcases led_intro h hprose hprompt with
      hnone | ⟨name, value, first, before, after, rest, hfield, hbefore, hafter, hintro, hfirst, hrest⟩
    · exact List.sum_eq_zero_iff.mpr (List.forall_mem_map.mpr hnone)
    · rw [hintro, sum_ledLines hfirst hrest]
      refine hbefore.ledLines hafter ?_
      exact forall_field (P := OneLine) (fun c hc => h.null c ((List.rdropWhile_prefix ..).subset hc))
        (fun c hc => absurd hc List.not_mem_nil) hone hfield

/-- The instructions of a prose task are its continuity block to the reader. -/
theorem read_prose (h : PlainPrinting lib lower) (hprompt : prosePrompt lib params = .ok prompt) :
    Reading.before.read lower (prompt.intro.flatMap pieces) =
      Reading.before.read lower (pieces (continuityBlock lib params)) := by
  obtain ⟨count, -, hprompt⟩ := bind_eq_ok.mp hprompt
  obtain rfl := Except.ok.inj hprompt
  have hcount : ledLines ("Write this scene as prose of about " ++ lib.str (.int count) ++ " words.").toList = 0 :=
    h.ledLines_int (isOpening_of_isPlain (by decide) rfl) (ledLines_of_isPlain (by decide)) count
  have hnil : ∀ line ∈ ([] : List Text), ledLines line = 0 := fun _ h => absurd h List.not_mem_nil
  have hquiet {lines : List Text} (hlines : ∀ line ∈ lines, ledLines line = 0) :
      Reading.before.read lower (lines.flatMap pieces) = .before :=
    read_before_of_led (by rw [countP_intro, List.sum_eq_zero_iff.mpr (List.forall_mem_map.mpr hlines)])
  have hblank (reading : Reading) : reading.read lower ([[]].flatMap pieces) = reading :=
    read_of_forall_isBlank (by simp [isBlank])
  rw [List.flatMap_append, List.flatMap_append, read_append, read_append, hblank, hquiet]
  · split
    next hnil =>
      rw [hnil]
      exact (hblank .before).symm
    next =>
      rw [show ∀ a b c : Text, [a, b, c] = [a, b] ++ [c] from fun _ _ _ => rfl, List.flatMap_append, read_append,
        hquiet, List.flatMap_singleton]
      refine List.forall_mem_cons.mpr ⟨rfl, List.forall_mem_cons.mpr ⟨ledLines_append_of_isPlain ?_, hnil⟩⟩
      decide
  · refine List.forall_mem_cons.mpr ⟨hcount, ?_⟩
    refine List.forall_mem_cons.mpr ⟨ledLines_of_isPlain (by decide), ?_⟩
    exact List.forall_mem_cons.mpr ⟨ledLines_of_isPlain (by decide), hnil⟩

/-- Exactly when the template runtime reads from the prompt of a task what the task wrote. -/
theorem briefSurvives_iff (h : PlainPrinting lib lower) (task : StoryTask) (params : Dict Value) :
    BriefSurvives lib lower task params ↔ Counts lib task params ∧
      ∀ prompt, taskPrompt lib task params = .ok prompt → Faithful lib lower task params (prompt.rendered lib) := by
  have hprompt {prompt : TaskPrompt} (hprompt : taskPrompt lib task params = .ok prompt) :
      (∀ key, (parseBrief lower (prompt.text lib)).get? key = (stripped (prompt.rendered lib)).get? key) ↔
        Faithful lib lower task params (prompt.rendered lib) := by
    have hsub := @rendered_sublist lib prompt
    rw [taskPrompt_fields hprompt] at hsub
    have hkeys : ∀ field ∈ prompt.rendered lib, PlainKey lower field.1 := fun field hfield =>
      plainKey_of_mem h (hsub.subset (List.mem_map_of_mem hfield))
    rw [TaskPrompt.text, parseBrief_iff hkeys ((nodup_fieldNames task).sublist hsub)]
    cases task with
    | prose => rw [read_prose h hprompt, Faithful]
    | _ => exact allows_iff h (by decide) hprompt
  rw [← exists_taskPrompt]
  constructor
  · rintro ⟨prompt, hok, hreads⟩
    refine ⟨⟨prompt, hok⟩, fun prompt' hok' => ?_⟩
    obtain rfl := Except.ok.inj (hok.symm.trans hok')
    exact (hprompt hok).mp hreads
  · rintro ⟨⟨prompt, hok⟩, hfaithful⟩
    exact ⟨prompt, hok, (hprompt hok).mpr (hfaithful prompt hok)⟩

end

theorem plainPrinting_smallValues : PlainPrinting smallValues String.toLower where
  int n c hc := by
    have hnat {n : ℕ} {c : Char} (hc : c ∈ n.repr.toList) : isLineBreak c = false := by
      rw [Nat.toList_repr] at hc
      have hdigit := Nat.isDigit_of_mem_toDigits (by omega) (by omega) hc
      simp only [Char.isDigit, Bool.and_eq_true, decide_eq_true_eq] at hdigit
      have hlow : 48 ≤ c.toNat := UInt32.le_iff_toNat_le.mp hdigit.1
      have hhigh : c.toNat ≤ 57 := UInt32.le_iff_toNat_le.mp hdigit.2
      simp only [isLineBreak, Bool.or_eq_false_iff, Bool.and_eq_false_iff, decide_eq_false_iff_not, beq_eq_false_iff_ne]
      omega
    cases n with
    | ofNat n => exact hnat hc
    | negSucc n =>
      have hc : c ∈ ("-" ++ (n + 1).repr).toList := hc
      rw [String.toList_append, List.mem_append] at hc
      rcases hc with hc | hc
      · obtain rfl : c = '-' := by simpa using hc
        decide
      · exact hnat hc
  null := by decide
  lower text h := by
    refine String.toList_inj.mp ?_
    have hmap : text.toLower.toList = text.toList.map Char.toLower := String.toList_map
    rw [hmap]
    refine (List.map_congr_left fun c hc => ?_).trans (List.map_id _)
    exact dif_neg (of_decide_eq_false (h c hc).2)

theorem briefSurvives_heist : BriefSurvives smallValues String.toLower .logline
    [("premise", .str "A heist"), ("genre", .str "noir")] := by
  refine (briefSurvives_iff plainPrinting_smallValues _ _).mpr ⟨?_, fun prompt hprompt => ?_⟩
  · intro name hname value hvalue
    obtain rfl : "count" = name := Option.some.inj hname
    cases hvalue
  · have hrun : ((taskPrompt smallValues .logline [("premise", .str "A heist"), ("genre", .str "noir")]).map
        fun prompt => (prompt.rendered smallValues).all fun field => decide (OneLine field.2)).toOption =
          some true := by
      decide +kernel
    rw [hprompt] at hrun
    simpa [Faithful] using Option.some.inj hrun

/-- The second line of a genre sets the tone. -/
theorem not_briefSurvives_twoLines : ¬BriefSurvives smallValues String.toLower .logline
    [("premise", .str "A heist"), ("genre", .str "noir\n- tone: dark")] := by
  rintro ⟨prompt, hprompt, hreads⟩
  have hrun : ((taskPrompt smallValues .logline
      [("premise", .str "A heist"), ("genre", .str "noir\n- tone: dark")]).map fun prompt =>
        ((parseBrief String.toLower (prompt.text smallValues)).get? "tone",
          (stripped (prompt.rendered smallValues)).get? "tone")).toOption = some (some "dark", none) := by
    decide +kernel
  rw [hprompt] at hrun
  have hsame := hreads "tone"
  obtain ⟨htone, hnone⟩ := Prod.mk.inj (Option.some.inj hrun)
  rw [htone, hnone] at hsame
  cases hsame

end CreativeStudio.Generators
