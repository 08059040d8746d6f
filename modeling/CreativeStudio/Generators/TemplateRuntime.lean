import CreativeStudio.Generators.Brief
import CreativeStudio.Schemas.Values

/-!
# The template runtime

Without a language model the answer is built from the JSON schema of the task: every field of the
schema is filled with a phrase about the subject and the mood of the brief. A schema may refer to its
own definitions, so the recursion is bounded by the depth that the interpreter allows.
-/

namespace CreativeStudio.Generators
open Data Story

/-- What the template runtime takes from elsewhere. -/
structure TemplateLibrary extends ValueLibrary where
  /-- `str.lower`. -/
  lower : String → String
  /-- `hashlib.sha1(text).hexdigest()`. -/
  sha1 : Text → Text
  /-- `json.dumps(value, ensure_ascii=False, indent=2)`. -/
  dumpsIndented : Value → Text

/-! ## Phrases -/

/-- A piece of a template text. -/
inductive Slot
  | text (s : String)
  | subject
  | mood
  | index
  | anchor

/-- What the slots of a template are filled with. -/
structure Filling where
  subject : Text
  mood : Text
  index : Text := []
  anchor : Text := []

/-- The text of a piece. -/
def Slot.render (filling : Filling) : Slot → Text
  | .text s => s.toList
  | .subject => filling.subject
  | .mood => filling.mood
  | .index => filling.index
  | .anchor => filling.anchor

/-- `template.format(...)`. -/
def fill (filling : Filling) (template : List Slot) : Text := template.flatMap (Slot.render filling)

/-- `_FIELD_PHRASES`. -/
def fieldPhrases : Dict (List Slot) :=
  [("heading", [.subject, .text " — 場面", .index]),
    ("summary", [.subject, .text "が", .mood, .text "の中で状況を進める場面", .index, .text "。"]),
    ("image_negative", [.text "blurry, low quality, distorted anatomy, watermark"]),
    ("bgm_mood", [.mood]),
    ("camera", [.text "ken_burns_in"]),
    ("text", [.subject, .text "が", .mood, .text "に導かれて動き出す物語。"]),
    ("hook", [.subject, .text "の選択が結末を変える"]),
    ("tone", [.mood]),
    ("act", [.text "第", .index, .text "幕"]),
    ("purpose", [.text "場面", .index, .text "の役割を果たす"]),
    ("title", [.subject]),
    ("prose_markdown", [.subject, .text "は静かに息を吸った。\n\n", .mood,
      .text "の空気が周囲を満たし、輪郭だけが浮かび上がる。\n\nそして", .subject, .text "は、次の一歩を選んだ。"]),
    ("speaker", [.subject]),
    ("direction", [.text "落ち着いた声で"]),
    ("label", [.text "variation-", .index]),
    ("prompt", [.subject, .text ", ", .mood, .text ", variation ", .index, .text ", detailed"]),
    ("negative_prompt", [.text "blurry, low quality, watermark"]),
    ("name", [.subject]),
    ("prompt_fragment", [.subject, .text ", ", .mood, .text ", consistent character design"]),
    ("negative_fragment", [.text "inconsistent features, extra limbs"])]

/-- `_DEFAULT_SUBJECT`. -/
def defaultSubject : Text := "主人公".toList

/-- `_DEFAULT_MOOD`. -/
def defaultMood : Text := "静かな緊張".toList

/-- `_SUBJECT_MAX_CHARS`. -/
def subjectMaxChars : ℕ := 120

/-- `_BOUNDARY_TIERS`. -/
def boundaryTiers : List (List Text) :=
  [["。", "．", "！", "？", ". ", "! ", "? "].map String.toList, ["、", "，", "; ", ", "].map String.toList]

/-- `_SCENE_ARC_NARRATION`. -/
def sceneArcNarration : List (List Slot) :=
  [[.subject, .text "。", .mood, .text "の中、物語が静かに幕を開ける。"],
    [.anchor, .text "。その瞬間、", .mood, .text "の空気が一変した。もう後戻りはできない。"],
    [.anchor, .text "。", .mood, .text "の気配が濃くなり、行く手を阻むものがひとつ、またひとつと迫ってくる。"],
    [.anchor, .text "。ついに決断の時が訪れる。", .mood, .text "の中、すべてはこの一瞬にかかっていた。"],
    [.anchor, .text "。やがて静けさが戻り、", .mood, .text "の余韻だけが残った。"]]

/-- `_SCENE_ARC_CUES`. -/
def sceneArcCues : List Text :=
  ["establishing scene, calm before the story begins, soft ambient light",
    "inciting incident, the moment everything changes, dramatic side light",
    "rising tension, obstacles close in, low-key moody light",
    "climax, the decisive moment, intense high-contrast light",
    "resolution, quiet aftermath, gentle diffused light"].map String.toList

/-- `_SUBJECT_ANCHOR_MAX_CHARS`. -/
def subjectAnchorMaxChars : ℕ := 24

/-- `_SINGLE_SCENE_CUE`. -/
def singleSceneCue : Text := "key moment of the whole story, the decisive action, dramatic light".toList

/-- `_SINGLE_SCENE_NARRATION`. -/
def singleSceneNarration : List Slot := [.subject, .text "。", .mood, .text "の中、物語は決定的な瞬間を迎える。"]

/-- `_SCENE_SHOTS`. -/
def sceneShots : List Text :=
  ["wide establishing shot", "medium shot", "close-up", "low-angle shot", "over-the-shoulder shot",
    "high-angle shot", "extreme close-up"].map String.toList

/-! ## The subject and the mood -/

/-- `text.rfind(mark)`, if the mark occurs. -/
def rfind (mark text : Text) : Option ℕ :=
  ((List.range (text.length + 1)).filter fun place => mark.isPrefixOf (text.drop place)).getLast?

/-- `max(window.rfind(mark) for mark in marks)`, if a mark occurs. -/
def latest (marks : List Text) (window : Text) : Option ℕ := (marks.filterMap fun mark => rfind mark window).max?

/-- `_clip_at_boundary`. -/
def clipAtBoundary (value : Text) (limit : ℕ) : Text :=
  if value.length ≤ limit then value
  else
    let window := value.take limit
    let floor := limit / 3
    match boundaryTiers.findSome? fun marks => (latest marks window).filter fun boundary => floor ≤ boundary with
    | some boundary => rstrip (window.take boundary)
    | none => match (rfind [' '] window).filter fun space => floor ≤ space with
      | some space => (window.take space).rdropWhile fun c => c ∈ [' ', ',', ';', ':']
      | none => window.take (limit - 1) ++ ['…']

/-- `context.get(key, "").strip()` of the first key where it is not empty. -/
def firstText (context : Dict String) (keys : List String) : Option Text :=
  (keys.map fun key => stripText ((context.get? key).getD "").toList).find? fun value => value ≠ []

/-- `_subject`. -/
def subject (context : Dict String) : Text :=
  match firstText context ["subject", "premise", "logline", "brief", "title", "scene"] with
  | some value => clipAtBoundary value subjectMaxChars
  | none => defaultSubject

/-- `text.split(mark, 1)[0]`. -/
def beforeMark (mark : Text) : Text → Text
  | [] => []
  | c :: rest => if mark.isPrefixOf (c :: rest) then [] else c :: beforeMark mark rest

/-- `_subject_anchor`. -/
def subjectAnchor (subject : Text) : Text :=
  let lead := (["。", "、", "，", "．", ". ", ", ", "; "].map String.toList).foldl
    (fun lead mark =>
      let head := stripText (beforeMark mark lead)
      if head = [] then lead else head) subject
  clipAtBoundary lead subjectAnchorMaxChars

/-- `_mood`. -/
def mood (context : Dict String) : Text :=
  match firstText context ["mood", "tone", "genre", "bgm_mood", "variation_axis"] with
  | some value => value.take 24
  | none => defaultMood

/-- `_render_plain_text`. -/
def renderPlainText (context : Dict String) : Text :=
  fill { subject := subject context, mood := mood context }
    [.text "# ", .subject, .text "\n\n", .subject, .text "は", .mood, .text "のなかで立ち止まった。\n\n",
      .text "やがて息を整え、次の一歩を選んだ。\n"]

section
variable (lib : TemplateLibrary)

/-! ## Counts -/

/-- `int(x)` of a float. -/
def intOfFloat : PyFloat → Except Exc ℤ
  | .finite q => .ok (truncate q)
  | .nan => .error (.value "cannot convert float NaN to integer")
  | _ => .error (.other "cannot convert float infinity to integer")

/-- `int(float(raw_value))`; a `ValueError` means that the next key is looked at. -/
def readCount (raw : String) : Except Exc (Option ℤ) :=
  match lib.parseFloat raw with
  | none => .ok none
  | some x => match intOfFloat x with
    | .ok n => .ok (some n)
    | .error (.value _) => .ok none
    | .error e => .error e

/-- The first of the keys that holds a number. -/
def firstCount (context : Dict String) : List String → Except Exc (Option ℤ)
  | [] => .ok none
  | key :: keys => match context.get? key with
    | none => firstCount context keys
    | some raw =>
      if raw = "" then firstCount context keys
      else do
        match ← readCount lib raw with
        | some n => return some n
        | none => firstCount context keys

/-- `_resolve_item_count`. -/
def resolveItemCount (schema : Dict Value) (context : Dict String) : Except Exc ℕ := do
  match ← firstCount lib context ["count", "scene_count", "beat_count"] with
  | some n => return (max 1 (min 24 n)).toNat
  | none => match schema.get? "minItems" with
    | some (.int minimum) => return if 0 < minimum then (min 24 minimum).toNat else 3
    | some (.bool true) => return 1
    | _ => return 3

/-- `_scene_total`. -/
def sceneTotal (context : Dict String) : Except Exc ℕ := do
  match ← firstCount lib context ["scene_count", "count"] with
  | some n => return (max 1 n).toNat
  | none => return sceneArcCues.length

/-! ## Scenes -/

/-- `_scene_arc_role`. -/
def sceneArcRole (index total : ℕ) : ℕ :=
  if total ≤ 1 then 0
  else
    let position := min (index - 1) (total - 1)
    (roundHalfEven (position * (sceneArcCues.length - 1 : ℕ) / (total - 1 : ℕ))).toNat

/-- The shot of a scene. -/
def sceneShot (index : ℕ) : Text := sceneShots.getD ((index - 1) % sceneShots.length) []

/-- The cue of a scene. -/
def sceneCue (index total : ℕ) : Text :=
  if total ≤ 1 then singleSceneCue else sceneArcCues.getD (sceneArcRole index total) []

/-- `_scene_image_prompt`. -/
def sceneImagePrompt (subject mood : Text) (index total : ℕ) : Text :=
  sceneShot index ++ ", ".toList ++ (sceneCue index total ++ (", ".toList ++ subject ++ ", ".toList ++ mood ++
    ", cinematic composition, detailed lighting".toList))

/-- The narration of a scene. -/
def sceneNarration (subject mood : Text) (index total : ℕ) : Text :=
  if total ≤ 1 then fill { subject, mood } singleSceneNarration
  else fill { subject, mood, anchor := subjectAnchor subject } (sceneArcNarration.getD (sceneArcRole index total) [])

/-- `_string_value`. -/
def stringValue (fieldName : String) (context : Dict String) (index : ℕ) (rngKey : Text) : Except Exc Text := do
  if fieldName = "image_prompt" then
    return sceneImagePrompt (subject context) (mood context) index (← sceneTotal lib context)
  if fieldName = "narration" then
    return sceneNarration (subject context) (mood context) index (← sceneTotal lib context)
  match fieldPhrases.get? fieldName with
  | some template =>
    return fill { subject := subject context, mood := mood context, index := (toString index).toList } template
  | none =>
    let digest := lib.sha1 (rngKey ++ s!":{fieldName}:{index}".toList)
    return fieldName.toList.map (fun c => if c = '_' then ' ' else c) ++ s!" {index} [".toList ++ digest.take 6 ++ [']']

/-! ## Schemas -/

/-- `target.get(segment, {})` along a path, if every target but the last is a dictionary. -/
def followPath : List String → Value → Option Value
  | [], target => some target
  | segment :: rest, .obj members => followPath rest ((Dict.get? members segment).getD (.obj []))
  | _ :: _, _ => none

/-- `reference.lstrip("#/").split("/")`. -/
def pathSegments (reference : String) : List String :=
  ((reference.toList.dropWhile fun c => c = '#' ∨ c = '/').splitOn '/').map String.ofList

/-- `$ref`, if it is local. -/
def localReference (schema : Dict Value) : Option String :=
  ((schema.get? "$ref").bind JsonOf.str?).filter fun reference => "#/".toList.isPrefixOf reference.toList

/-- `anyOf` or `oneOf`, if it is a list. -/
def schemaVariants (schema : Dict Value) : Option (List Value) :=
  let anyOf := (schema.get? "anyOf").getD .null
  match if anyOf.truthy then anyOf else (schema.get? "oneOf").getD .null with
  | .arr variants => some variants
  | _ => none

/-- A variant that is not `null`. -/
def concreteVariant : Value → Option (Dict Value)
  | .obj variant => if Dict.get? variant "type" = some (.str "null") then none else some variant
  | _ => none

/-- The loop of `_resolve_schema_ref`, for so many turns. -/
def resolveTurns (root : Dict Value) : ℕ → Dict Value → Dict Value
  | 0, resolved => resolved
  | turns + 1, resolved => match localReference resolved with
    | some reference => match followPath (pathSegments reference) (.obj root) with
      | none => []
      | some (.obj target) => resolveTurns root turns target
      | some _ => resolveTurns root turns []
    | none => match schemaVariants resolved with
      | none => resolved
      | some variants => match variants.findSome? concreteVariant with
        | some concrete => resolveTurns root turns concrete
        | none => [("type", .str "null")]

/-- `_resolve_schema_ref`. -/
def resolveSchemaRef (schema root : Dict Value) : Dict Value := resolveTurns root 8 schema

/-- What a schema asks for. -/
inductive SchemaKind
  | object | array | integer | number | boolean | null | mapping | string
  deriving DecidableEq, Repr

/-- The branch of `_synthesize_from_schema` that a resolved schema takes. -/
def schemaKind (schema : Dict Value) : SchemaKind :=
  match (schema.get? "type").getD .null with
  | .null =>
    if (schema.get? "properties").isSome then .object
    else if (schema.get? "additionalProperties").isSome then .mapping else .string
  | .str "object" => .object
  | .str "array" => .array
  | .str "integer" => .integer
  | .str "number" => .number
  | .str "boolean" => .boolean
  | .str "null" => .null
  | _ => .string

/-- `_mapping_value`. -/
def mappingValue (fieldName : String) (context : Dict String) : Value :=
  if fieldName = "attributes" then
    .obj [("hair", .str "long black straight"), ("eyes", .str "dark brown"), ("outfit", .str "layered coat"),
      ("build", .str "slender")]
  else .obj [("note", .str (.ofList (subject context)))]

/-- `float(value)` of a value that `isinstance(value, (int, float))` holds of. -/
def numberOf (value : Option Value) : Option (Except Exc PyFloat) :=
  match value with
  | some (.bool b) => some (.ok (.finite (if b then 1 else 0)))
  | some (.int n) => some (if PyFloat.overflow ≤ |(n : ℚ)| then .error (.other "int too large to convert to float")
      else .ok (.finite n))
  | some (.float x) => some (.ok x)
  | _ => none

/-- `_numeric_default`. -/
def numericDefault (schema : Dict Value) (fieldName : String) (index : ℕ) : Except Exc PyFloat :=
  match numberOf (schema.get? "default") with
  | some result => result
  | none =>
    if fieldName = "duration_seconds" then .ok (.finite 4)
    else if fieldName = "order" then .ok (.finite ((index : ℚ) - 1))
    else if fieldName = "word_count" then .ok (.finite 0)
    else (numberOf (schema.get? "minimum")).getD (.ok (.finite index))

/-- A schema that is no dictionary has no `get`. -/
def asSchema : Value → Except Exc (Dict Value)
  | .obj schema => .ok schema
  | value => .error (.other s!"'{typeName value}' object has no attribute 'get'")

/-- `schema.get("properties", {})`, if there is any. -/
def schemaProperties (schema : Dict Value) : Except Exc (Dict Value) :=
  match (schema.get? "properties").getD (.obj []) with
  | .obj properties => .ok properties
  | value => if value.truthy then .error (.other s!"'{typeName value}' object has no attribute 'items'") else .ok []

/-- `_synthesize_from_schema`, at the given number of calls below the limit of the interpreter. -/
def synthesizeFromSchema (root : Dict Value) (context : Dict String) (rngKey : Text) :
    ℕ → Dict Value → String → ℕ → Except Exc Value
  | 0, _, _, _ => .error (.other "maximum recursion depth exceeded")
  | calls + 1, schema, fieldName, index =>
    let schema := resolveSchemaRef schema root
    match schemaKind schema with
    | .mapping => .ok (mappingValue fieldName context)
    | .object => do
      let properties ← schemaProperties schema
      if properties = [] then return mappingValue fieldName context
      let members ← properties.mapM fun property => do
        let value ← synthesizeFromSchema root context rngKey calls (← asSchema property.2) property.1 index
        return (property.1, value)
      return .obj members
    | .array => do
      let item ← asSchema ((schema.get? "items").getD (.obj [("type", .str "string")]))
      let count ← resolveItemCount lib schema context
      let items ← (List.range count).mapM fun position =>
        synthesizeFromSchema root context rngKey calls item fieldName (position + 1)
      return .arr items
    | .integer => do return .int (← intOfFloat (← numericDefault schema fieldName index))
    | .number => do return .float (← numericDefault schema fieldName index)
    | .boolean => .ok (.bool false)
    | .null => .ok .null
    | .string => do return .str (.ofList (← stringValue lib fieldName context index rngKey))

/-- The generated text of `build_template_runtime`. -/
def templateGenerate (calls : ℕ) (seedSalt : String) (prompt : Text) (seed : Option ℤ) (jsonSchema : Option (Dict Value)) :
    Except Exc Text :=
  let context := parseBrief lib.lower prompt
  match jsonSchema with
  | none => .ok (renderPlainText context)
  | some schema => do
    let rngKey := (seedSalt ++ ":" ++ seed.elim "None" toString ++ ":").toList ++ prompt
    return lib.dumpsIndented (← synthesizeFromSchema lib schema context rngKey calls schema "" 1)

end
end CreativeStudio.Generators
