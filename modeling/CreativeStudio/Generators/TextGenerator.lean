import CreativeStudio.Audio.Speech
import CreativeStudio.Conc.Traces
import CreativeStudio.Generators.Answer
import CreativeStudio.Generators.Rendering

/-!
# The text generator

A story task is one call of a language model, and a second one to repair an answer that does not
pass the schema of the task. Both happen under the lease of the runtime, and so do the questions
whether the job is cancelled. What these come to is kept and raised after the lease, where the files
are written: an exception under the lease would mean that the runtime is broken.
-/

namespace CreativeStudio.Generators
open Conc Data Story

/-- What the text generator takes from elsewhere. -/
structure WriterLibrary extends ValueLibrary where
  /-- `int(text)`, if the text is an integer. -/
  parseInt : String → Option ℤ
  /-- `json.loads(text)`. -/
  loads : Text → Except LoadsError Value
  /-- `json.dumps(value, ensure_ascii=False, indent=2)`. -/
  dumpsIndented : Value → Text
  /-- The text of the error that a payload is refused with. -/
  validationText : StoryTask → Dict Value → String

/-- The names in `STORY_TASKS`. -/
def StoryTask.name : StoryTask → String
  | logline => "logline"
  | beatSheet => "beat_sheet"
  | sceneList => "scene_list"
  | prose => "prose"
  | script => "script"
  | promptPack => "prompt_pack"
  | characterSheet => "character_sheet"

/-- `STORY_TASKS`, in order. -/
def storyTasks : List StoryTask := [.logline, .beatSheet, .sceneList, .prose, .script, .promptPack, .characterSheet]

/-- `default_max_tokens`. -/
def StoryTask.defaultMaxTokens : StoryTask → ℤ
  | logline => 900
  | beatSheet => 1600
  | sceneList => 2600
  | prose => 4000
  | script => 1600
  | promptPack => 1600
  | characterSheet => 1200

/-- `_WRITER_SYSTEM`. -/
def writerSystem : String :=
  "You are a professional story developer working inside a production studio. " ++
    "Answer with a single JSON object matching the requested schema and nothing " ++
    "else: no prose, no explanation, no code fence. Write field values in the " ++
    "language named in the brief, except image prompts which are always English."

section
variable (lib : WriterLibrary)

/-- `get_story_task`. -/
def getStoryTask (name : String) : Except Exc StoryTask :=
  match storyTasks.find? fun task => task.name = name with
  | some task => .ok task
  | none => .error (.value (s!"Unknown story task {lib.repr (.str name)}; expected one of " ++
      "beat_sheet, character_sheet, logline, prompt_pack, prose, scene_list, script"))

/-- `int(value)`. -/
def pyInt : Value → Except Exc ℤ
  | .bool b => .ok (if b then 1 else 0)
  | .int n => .ok n
  | .float (.finite q) => .ok (truncate q)
  | .float .nan => .error (.value "cannot convert float NaN to integer")
  | .float _ => .error (.other "cannot convert float infinity to integer")
  | .str s => match lib.parseInt s with
    | some n => .ok n
    | none => .error (.value s!"invalid literal for int() with base 10: {lib.repr (.str s)}")
  | value => .error (.other ("int() argument must be a string, a bytes-like object or a real number, " ++
      s!"not '{typeName value}'"))

/-- `float(value)`. -/
def pyFloat (value : Value) : Except Exc PyFloat :=
  match toPyFloat lib.toValueLibrary value, value with
  | .ok x, _ => .ok x
  | .error .overflow, _ => .error (.other "int too large to convert to float")
  | .error .unreadable, .str s => .error (.value s!"could not convert string to float: {lib.repr (.str s)}")
  | .error .unreadable, value =>
    .error (.other s!"float() argument must be a string or a real number, not '{typeName value}'")

/-- `_optional_int`. -/
def optionalInt (value : Option Value) : Except Exc (Option ℤ) :=
  match toPyFloat lib.toValueLibrary (value.getD .null) with
  | .ok (.finite q) => .ok (some (truncate q))
  | .ok .nan => .ok none
  | .ok _ => .error (.other "cannot convert float infinity to integer")
  | .error .unreadable => .ok none
  | .error .overflow => .error (.other "int too large to convert to float")

/-! ## Before the lease -/

/-- The fields of a manifest that are read. -/
structure TextManifest where
  id : String
  publicModelId : String
  displayName : String
  runtime : String
  provider : String
  loader : String
  defaultParams : Dict Value

/-- What a request asks for. -/
structure TextRequest where
  prompt : String
  modelId : String
  seed : Option ℤ
  params : Dict Value

/-- The parameters that are not passed on to the brief. -/
def ownParams : List String :=
  ["task", "max_tokens", "temperature", "top_p", "context_window", "n_gpu_layers", "model_file", "chat_format",
    "model_name", "api_key_env", "timeout_seconds", "continuity_context", "continuity_snapshot"]

/-- What a request comes to before a runtime is acquired. -/
structure TextPlan where
  task : StoryTask
  maxTokens : ℤ
  temperature : PyFloat
  topP : PyFloat
  continuityContext : Text
  continuitySnapshot : Option Value
  /-- `effective_params`, without what is not passed on. -/
  params : Dict Value
  taskParams : Dict Value
  prompt : Text

/-- `str(value or "").strip()`. -/
def textOrBlank (value : Option Value) : Text :=
  match value.filter JsonOf.truthy with
  | some value => stripText (lib.str value).toList
  | none => []

/-- The part of `generate` before the lease. -/
def planText (manifest : TextManifest) (request : TextRequest) : Except Exc TextPlan := do
  let params := Dict.update manifest.defaultParams request.params
  let task ← getStoryTask lib (lib.str ((params.get? "task").getD (.str "logline")))
  let maxTokens ← pyInt lib ((params.get? "max_tokens").getD (.int task.defaultMaxTokens))
  let temperature ← pyFloat lib ((params.get? "temperature").getD (.float (.finite (4 / 5))))
  let topP ← pyFloat lib ((params.get? "top_p").getD (.float (.finite (19 / 20))))
  let continuityContext := textOrBlank lib (params.get? "continuity_context")
  let passedOn := ownParams.foldl Dict.erase params
  let brief := Dict.update [("premise", .str request.prompt), ("subject", .str request.prompt)] passedOn
  let taskParams := if continuityContext = [] then brief
    else brief.set "continuity_context" (.str (.ofList continuityContext))
  let prompt ← buildPrompt lib.toValueLibrary task taskParams
  return {
    task, maxTokens, temperature, topP, continuityContext, taskParams, prompt
    continuitySnapshot := params.get? "continuity_snapshot"
    params := passedOn }

/-! ## The commands -/

/-- One call of the model. -/
structure TextCall where
  prompt : Text
  system : String
  maxTokens : ℤ
  temperature : PyFloat
  topP : PyFloat
  seed : Option ℤ
  /-- The task whose schema is passed, if the runtime supports schemas. -/
  jsonSchema : Option StoryTask

/-- A loaded runtime: its manifest, its entries that are values, and whether it has a `generate`. -/
structure TextRuntime where
  manifest : TextManifest
  typeName : String
  hasGenerate : Bool
  entries : Dict Value

/-- What the generator asks of its surroundings. Every answer may be an exception, except that of the
lease when it is released. -/
inductive TextCmd : Type → Type
  /-- `model_service.get_manifest(...)`. -/
  | getManifest : TextCmd (Except Exc TextManifest)
  /-- `_acquire_runtime`. -/
  | acquireRuntime : TextCmd (Except Exc TextRuntime)
  /-- `RuntimeHandle.__exit__`. -/
  | release (hadException : Bool) : TextCmd Unit
  /-- `context.is_cancelled()`. -/
  | isCancelled : TextCmd (Except Exc Bool)
  /-- `generate_text(...)`. -/
  | generateText (call : TextCall) : TextCmd (Except Exc Text)
  /-- `uuid4().hex`. -/
  | uuid : TextCmd String
  /-- `output_dir.mkdir(...)`. -/
  | makeDirectory : TextCmd (Except Exc Unit)
  /-- `path.write_text(...)`, of a file in the output directory. -/
  | writeText (file : String) (text : Text) : TextCmd (Except Exc Unit)
  /-- `evaluate_text_output(...)`. -/
  | evaluate (file : String) (structured : Dict Value) (task : StoryTask) (targetWords : Option ℤ) :
      TextCmd (Except Exc Value)

/-- What the generator raises. -/
inductive TextExc
  /-- `StorySchemaValidationError`. -/
  | schema (message : String) (task : StoryTask) (rawText : Text) (lastError : String)
  /-- `_StructuredGenerationCancelled`. -/
  | structuredCancelled (rawText : Text) (attempts : ℕ)
  /-- `_StructuredGenerationProbeError`. -/
  | structuredProbeError (e : Exc)
  | other (e : Exc)

/-- A program of the generator. -/
abbrev TextProg (α : Type) := Prog TextCmd TextExc α

/-- The value of a computation that may raise. -/
def lift {α : Type} (x : Except Exc α) : TextProg α := Prog.ofExcept (x.mapError .other)

/-- A command that may raise. -/
def ask {α : Type} (c : TextCmd (Except Exc α)) : TextProg α := do lift (← Prog.exec c)

/-- `safe_is_cancelled(context)`; `observed` says that there is a context. -/
def probe (observed : Bool) : TextProg (Bool × Option Exc) :=
  if observed then do return Audio.safeIsCancelled (some (← Prog.exec .isCancelled))
  else return Audio.safeIsCancelled none

/-! ## Under the lease -/

/-- `extract_json_object`, `model_validate` and `model_dump`. -/
def acceptAnswer (task : StoryTask) (rawText : Text) : Except Exc (Dict Value) := do
  let payload ← extractJsonObject lib.loads rawText
  match validateResponse lib.toValueLibrary task payload with
  | some structured => return structured
  | none => throw (.value (lib.validationText task payload))

/-- The prompt of the second attempt. -/
def repairPrompt (prompt rawText : Text) (lastError : String) : Text :=
  prompt ++ "\n\n### PREVIOUS RESPONSE\n".toList ++ rawText.take 2000 ++ "\n\n### CORRECTION\n".toList ++
    ("The previous response was not valid for the required schema.\nError: " ++ lastError ++
      "\nReturn only a single corrected JSON object. No prose, no code fence.").toList

/-- A valid answer: the payload, the text it was read from and the attempt. -/
structure StructuredAnswer where
  structured : Dict Value
  rawText : Text
  attempts : ℕ

/-- The call of a plan with a prompt. -/
def callOf (request : TextRequest) (plan : TextPlan) (runtime : TextRuntime) (prompt : Text) : TextCall where
  prompt := prompt
  system := writerSystem
  maxTokens := plan.maxTokens
  temperature := plan.temperature
  topP := plan.topP
  seed := request.seed
  jsonSchema := if ((runtime.entries.get? "supports_json_schema").getD .null).truthy then some plan.task else none

section
variable (request : TextRequest) (plan : TextPlan) (observed : Bool) (runtime : TextRuntime)

/-- The loop of `_generate_structured`, over the attempts that are left. -/
def attemptStructured : List ℕ → Text → String → Text → TextProg StructuredAnswer
  | [], _, lastError, rawText =>
    Prog.raise (.schema (s!"Story task {lib.repr (.str plan.task.name)} did not return schema-valid output after a " ++
      s!"repair attempt: {lastError}.") plan.task rawText lastError)
  | attempt :: attempts, currentPrompt, _, _ => do
    let rawText ← ask (.generateText (callOf request plan runtime currentPrompt))
    match acceptAnswer lib plan.task rawText with
    | .ok structured => return { structured, rawText, attempts := attempt }
    | .error e =>
      if attempt = 1 ∧ observed then
        match ← probe observed with
        | (_, some probeError) => Prog.raise (.structuredProbeError probeError)
        | (true, none) => Prog.raise (.structuredCancelled rawText attempt)
        | (false, none) => attemptStructured attempts (repairPrompt plan.prompt rawText e.text) e.text rawText
      else attemptStructured attempts (repairPrompt plan.prompt rawText e.text) e.text rawText

/-- `_generate_structured`. -/
def generateStructured : TextProg StructuredAnswer :=
  attemptStructured lib request plan observed runtime [1, 2] plan.prompt "" []

/-- What the lease leaves behind. -/
inductive TextOutcome
  /-- `cancelled_before_generation` and `cancellation_probe_error`, of which one is set. -/
  | notStarted (stop : Bool × Option Exc)
  /-- `late_cancellation` and `late_cancellation_probe_error`, of which one is set between the attempts. -/
  | stopped (stop : Bool × Option Exc)
  /-- `schema_error`, and what the last question came to. -/
  | rejected (rawText : Text) (lastError : String) (late : Bool × Option Exc)
  /-- A valid answer, and what the last question came to. -/
  | answered (answer : StructuredAnswer) (late : Bool × Option Exc)

/-- What is made of the attempts; an exception of the model itself is not caught. -/
def concludeAttempts : Except TextExc StructuredAnswer → TextProg (TextRuntime × TextOutcome)
  | .ok answer => do return (runtime, .answered answer (← probe observed))
  | .error (.structuredCancelled _ _) => return (runtime, .stopped (true, none))
  | .error (.structuredProbeError e) => return (runtime, .stopped (false, some e))
  | .error (.schema _ _ rawText lastError) => do return (runtime, .rejected rawText lastError (← probe observed))
  | .error (.other e) => Prog.raise (.other e)

/-- The body of the lease. -/
def leaseText : TextProg (TextRuntime × TextOutcome) := do
  if !runtime.hasGenerate then Prog.raise (.other (.other "'generate'"))
  else
    match ← probe observed with
    | (false, none) => concludeAttempts observed runtime (← (generateStructured lib request plan observed runtime).attempt)
    | stop => return (runtime, .notStarted stop)

end

/-! ## After the lease -/

/-- The text generator. -/
structure TextGenerator where
  outputDir : String

/-- `GenerationResult`, of a text job. -/
structure TextResult where
  outputId : String
  document : String
  structuredPath : String
  task : StoryTask
  prompt : String
  resolvedPrompt : Text
  requestedModelId : Option String
  manifest : TextManifest
  runtimeType : String
  /-- `device`, `context_window`, `supports_json_schema` and `endpoint_base_url`. -/
  runtimeEntries : List (Option Value)
  seed : Option ℤ
  structured : Dict Value
  rawResponseCharacters : ℕ
  generationAttempts : ℕ
  qualityReport : Value
  continuityContext : Option Text
  continuitySnapshot : Option Value
  /-- `_extract_lineage_metadata`. -/
  lineage : Dict Value
  maxTokens : ℤ
  temperature : PyFloat
  topP : PyFloat
  params : Dict Value

/-- `_extract_lineage_metadata`. -/
def extractLineageMetadata (params : Dict Value) : Dict Value :=
  ["source_asset_id", "source_job_id", "reference_asset_path", "reuse_action", "story_id"].filterMap fun key =>
    ((params.get? key).filter fun value => value ≠ .null).map fun value => (key, value)

/-- `_write_raw_response`. -/
def writeRawResponse (generator : TextGenerator) (task : StoryTask) (rawText : Text) : TextProg String := do
  ask .makeDirectory
  let hex ← Prog.exec .uuid
  let file := s!"failed_{task.name}_" ++ .ofList (hex.toList.take 8) ++ ".txt"
  ask (.writeText file rawText)
  return generator.outputDir ++ "/" ++ file

/-- What a stop is raised as: the error of the question, or that the job is cancelled. -/
def stopError : Bool × Option Exc → Option Exc
  | (_, some e) => some e
  | (true, none) => some .generationCancelled
  | (false, none) => none

/-- The files of an answer and its result. -/
def writeAnswer (generator : TextGenerator) (request : TextRequest) (plan : TextPlan) (runtime : TextRuntime)
    (answer : StructuredAnswer) : TextProg TextResult := do
  let outputId := "txt_" ++ (← Prog.exec .uuid)
  let document ← lift (renderMarkdown lib.toValueLibrary plan.task answer.structured)
  ask (.writeText (outputId ++ ".md") document)
  ask (.writeText (outputId ++ ".json") (lib.dumpsIndented (.obj answer.structured) ++ ['\n']))
  let targetWords ← lift (optionalInt lib (plan.taskParams.get? "target_words"))
  let qualityReport ← ask (.evaluate (outputId ++ ".md") answer.structured plan.task targetWords)
  let requested := strip request.modelId
  return {
    outputId, qualityReport
    document := generator.outputDir ++ "/" ++ outputId ++ ".md"
    structuredPath := generator.outputDir ++ "/" ++ outputId ++ ".json"
    task := plan.task
    prompt := request.prompt
    resolvedPrompt := plan.prompt
    requestedModelId := if requested = "" then none else some requested
    manifest := runtime.manifest
    runtimeType := runtime.typeName
    runtimeEntries := ["device", "context_window", "supports_json_schema", "endpoint_base_url"].map runtime.entries.get?
    seed := request.seed
    structured := answer.structured
    rawResponseCharacters := answer.rawText.length
    generationAttempts := answer.attempts
    continuityContext := if plan.continuityContext = [] then none else some plan.continuityContext
    continuitySnapshot := plan.continuitySnapshot
    lineage := extractLineageMetadata request.params
    maxTokens := plan.maxTokens
    temperature := plan.temperature
    topP := plan.topP
    params := plan.params }

/-- The part of `generate` after the lease. -/
def finishText (generator : TextGenerator) (request : TextRequest) (plan : TextPlan) :
    TextRuntime × TextOutcome → TextProg TextResult
  | (_, .notStarted stop) => Prog.raise (.other ((stopError stop).getD .generationCancelled))
  | (_, .stopped stop) => Prog.raise (.other ((stopError stop).getD .generationCancelled))
  | (_, .rejected rawText lastError late) => match stopError late with
    | some e => Prog.raise (.other e)
    | none => do
      let path ← writeRawResponse generator plan.task rawText
      Prog.raise (.schema (s!"Story task {lib.repr (.str plan.task.name)} did not return schema-valid output after a " ++
        s!"repair attempt: {lastError}. Raw response saved to {path}.") plan.task rawText lastError)
  | (runtime, .answered answer late) => match stopError late with
    | some e => Prog.raise (.other e)
    | none => writeAnswer lib generator request plan runtime answer

/-- `TextGenerator.generate`. -/
def generateText (generator : TextGenerator) (request : TextRequest) (observed : Bool) : TextProg TextResult := do
  let manifest ← ask .getManifest
  let plan ← lift (planText lib manifest request)
  let leased ← Prog.withResource (ask .acquireRuntime) .release (leaseText lib request plan observed)
  finishText lib generator request plan leased

end
end CreativeStudio.Generators
