import CreativeStudio.Prompting.Composer

/-!
# The bible repository

One JSON file for each entry of the bible. An operation reads the file, changes what it has read, checks
it as a new entry is checked, and replaces the file. Promoting a generated asset is an update like any
other, which keeps a record of what it replaced.
-/

namespace CreativeStudio.Bible
open Data Prompting

/-- What the repository uses of the language. -/
structure BibleLibrary extends PromptLibrary where
  /-- `repr(value)`. -/
  reprJson : Json → String
  isoformat : ℕ → String
  fromisoformat : String → Option ℕ
  fromisoformat_isoformat : ∀ time, fromisoformat (isoformat time) = some time

/-- A library whose timestamps are plain numbers. -/
def BibleLibrary.plain : BibleLibrary where
  toPromptLibrary := PromptLibrary.plain
  reprJson _ := ""
  isoformat time := .ofList (Nat.toDigits 10 time)
  fromisoformat text := some (Nat.ofDigitChars 10 text.toList 0)
  fromisoformat_isoformat time := by simp [Nat.ofDigitChars_ten_toDigits]

/-- `BIBLE_KINDS`. -/
def bibleKinds : List String := ["character", "style", "brand", "location", "prop"]

/-- `SEED_MODES`. -/
def seedModes : List String := ["locked", "free"]

/-- `PROMOTION_EXCLUDED_PARAM_KEYS`. -/
def promotionExcludedParamKeys : List String :=
  ["bible_refs", "axis_values", "extra_fragments", "prompt_template", "freeze_composed_prompt",
    "batch_axis_labels", "batch_stage", "source_asset_id", "source_job_id", "reference_asset_path", "reuse_action"]

/-- The fields of a `BibleEntry` that may be changed. -/
structure Settings where
  kind : String
  name : String
  projectId : Option String := none
  summary : String := ""
  promptFragment : String := ""
  negativeFragment : String := ""
  tokens : List String := []
  attributes : Dict String := []
  lora : Option Obj := none
  referenceAssetIds : List String := []
  seedPolicy : Obj := []
  palette : List String := []
  toneAndManner : Obj := []
  lockedFields : List String := []
  metadata : Obj := []
  deriving DecidableEq, Repr

/-- `BibleEntry`. -/
structure Entry where
  id : String
  settings : Settings
  createdAt : ℕ
  updatedAt : ℕ
  deriving DecidableEq, Repr

/-- `__post_init__`. -/
def postInit (lib : BibleLibrary) (settings : Settings) : Except Exc Unit :=
  if settings.kind ∉ bibleKinds then
    .error (.value (s!"Unknown bible kind {lib.repr settings.kind}; " ++
      "expected one of " ++ ", ".intercalate bibleKinds))
  else if strip settings.name = "" then .error (.value "Bible entry name must not be empty.")
  else match settings.seedPolicy.get? "mode" with
    | none | some .null => .ok ()
    | some mode =>
      if mode ∈ seedModes.map Json.str then .ok ()
      else .error (.value (s!"Unknown seed policy mode {lib.reprJson mode}; " ++
        "expected one of " ++ ", ".intercalate seedModes))

/-! ## Files -/

/-- A list of texts. -/
def dumpTexts (texts : List String) : Json := .arr (texts.map .str)

/-- The members of a dictionary of texts. -/
def textMembers (texts : Dict String) : Obj := texts.mapValues .str

/-- `dict(self.lora) if self.lora else None`. -/
def dumpLora (lora : Option Obj) : Json :=
  match lora.filter fun members => !members.isEmpty with
  | some members => .obj members
  | none => .null

/-- The members of `to_dict` between the id and the timestamps. -/
def Settings.dump (settings : Settings) : Obj :=
  [("kind", .str settings.kind), ("name", .str settings.name), ("project_id", .ofStr? settings.projectId),
    ("summary", .str settings.summary), ("prompt_fragment", .str settings.promptFragment),
    ("negative_fragment", .str settings.negativeFragment), ("tokens", dumpTexts settings.tokens),
    ("attributes", .obj (textMembers settings.attributes)), ("lora", dumpLora settings.lora),
    ("reference_asset_ids", dumpTexts settings.referenceAssetIds), ("seed_policy", .obj settings.seedPolicy),
    ("palette", dumpTexts settings.palette), ("tone_and_manner", .obj settings.toneAndManner),
    ("locked_fields", dumpTexts settings.lockedFields), ("metadata", .obj settings.metadata)]

/-- `to_dict`. -/
def Entry.toDict (lib : BibleLibrary) (entry : Entry) : Obj :=
  ("id", .str entry.id) :: entry.settings.dump ++
    [("created_at", .str (lib.isoformat entry.createdAt)), ("updated_at", .str (lib.isoformat entry.updatedAt))]

/-- `data.get(key, "")`. -/
def readText (data : Obj) (key : String) : Option String := ((data.get? key).getD (.str "")).str?

/-- `list(data.get(key, []))`, of texts. -/
def readTexts (data : Obj) (key : String) : Option (List String) :=
  match (data.get? key).getD (.arr []) with
  | .arr items => items.mapM JsonOf.str?
  | _ => none

/-- `dict(data.get(key, {}))`. -/
def readObject (data : Obj) (key : String) : Option Obj := ((data.get? key).getD (.obj [])).obj?

/-- `dict(data["lora"]) if data.get("lora") else None`. -/
def readLora (data : Obj) : Option (Option Obj) :=
  match (data.get? "lora").filter JsonOf.truthy with
  | none => some none
  | some lora => lora.obj?.map some

/-- The members of a dictionary whose values are texts. -/
def readTextMembers (members : Obj) : Option (Dict String) :=
  members.mapM fun member => member.2.str?.map (member.1, ·)

/-- A text that has to be there. -/
def requireText (data : Obj) (key : String) : Option String := (data.get? key).bind JsonOf.str?

/-- `data.get("project_id")`. -/
def readProjectId (data : Obj) : Option (Option String) :=
  match data.get? "project_id" with
  | none | some .null => some none
  | some projectId => projectId.str?.map some

/-- A timestamp that has to be there. -/
def readTime (lib : BibleLibrary) (data : Obj) (key : String) : Option ℕ :=
  (requireText data key).bind lib.fromisoformat

/-- What `_load` reads before it checks the entry. -/
def readEntry (lib : BibleLibrary) (data : Obj) : Option Entry := do
  let id ← requireText data "id"
  let kind ← requireText data "kind"
  let name ← requireText data "name"
  let projectId ← readProjectId data
  let summary ← readText data "summary"
  let promptFragment ← readText data "prompt_fragment"
  let negativeFragment ← readText data "negative_fragment"
  let tokens ← readTexts data "tokens"
  let attributes ← readTextMembers (← readObject data "attributes")
  let lora ← readLora data
  let referenceAssetIds ← readTexts data "reference_asset_ids"
  let seedPolicy ← readObject data "seed_policy"
  let palette ← readTexts data "palette"
  let toneAndManner ← readObject data "tone_and_manner"
  let lockedFields ← readTexts data "locked_fields"
  let metadata ← readObject data "metadata"
  let createdAt ← readTime lib data "created_at"
  let updatedAt ← readTime lib data "updated_at"
  return {
    id
    settings := {
      kind, name, projectId, summary, promptFragment, negativeFragment, tokens, attributes, lora,
      referenceAssetIds, seedPolicy, palette, toneAndManner, lockedFields, metadata }
    createdAt
    updatedAt }

/-- `_try_load`. -/
def tryLoad (lib : BibleLibrary) (data : Obj) : Option Entry :=
  (readEntry lib data).filter fun entry => (postInit lib entry.settings).toOption.isSome

/-- The files, by the ids that name them. -/
abbrev Directory := Dict Obj

/-- `get`. -/
def get (lib : BibleLibrary) (id : String) (dir : Directory) : Option Entry := (dir.get? id).bind (tryLoad lib)

/-- `_save`: the file is written with sorted keys. -/
def save (lib : BibleLibrary) (entry : Entry) (dir : Directory) : Directory := dir.set entry.id (entry.toDict lib).canon

/-! ## Operations -/

/-- `create`, with a new id. -/
def create (lib : BibleLibrary) (id : String) (now : ℕ) (settings : Settings) (dir : Directory) :
    Except Exc Entry × Directory :=
  let entry : Entry := { id, settings, createdAt := now, updatedAt := now }
  match postInit lib settings with
  | .error e => (.error e, dir)
  | .ok () => (.ok entry, save lib entry dir)

/-- The fields that `update` is given. -/
structure Changes where
  kind : Option String := none
  name : Option String := none
  projectId : Option (Option String) := none
  summary : Option String := none
  promptFragment : Option String := none
  negativeFragment : Option String := none
  tokens : Option (List String) := none
  attributes : Option (Dict String) := none
  lora : Option (Option Obj) := none
  referenceAssetIds : Option (List String) := none
  seedPolicy : Option Obj := none
  palette : Option (List String) := none
  toneAndManner : Option Obj := none
  lockedFields : Option (List String) := none
  metadata : Option Obj := none
  deriving DecidableEq, Repr

/-- The settings after the fields have been set. -/
def Changes.apply (changes : Changes) (settings : Settings) : Settings where
  kind := changes.kind.getD settings.kind
  name := changes.name.getD settings.name
  projectId := changes.projectId.getD settings.projectId
  summary := changes.summary.getD settings.summary
  promptFragment := changes.promptFragment.getD settings.promptFragment
  negativeFragment := changes.negativeFragment.getD settings.negativeFragment
  tokens := changes.tokens.getD settings.tokens
  attributes := changes.attributes.getD settings.attributes
  lora := changes.lora.getD settings.lora
  referenceAssetIds := changes.referenceAssetIds.getD settings.referenceAssetIds
  seedPolicy := changes.seedPolicy.getD settings.seedPolicy
  palette := changes.palette.getD settings.palette
  toneAndManner := changes.toneAndManner.getD settings.toneAndManner
  lockedFields := changes.lockedFields.getD settings.lockedFields
  metadata := changes.metadata.getD settings.metadata

mutual
/-- The value with every number in one form: `True == 1 == 1.0`. -/
def plainNumbers : Json → Json
  | .bool b => .int (if b then 1 else 0)
  | .float q => if q.den = 1 then .int q.num else .float q
  | .arr xs => .arr (plainNumbersList xs)
  | .obj members => .obj (plainNumbersMembers members)
  | j => j
/-- `plainNumbers` on the elements of an array. -/
def plainNumbersList : List Json → List Json
  | [] => []
  | x :: xs => plainNumbers x :: plainNumbersList xs
/-- `plainNumbers` on the values of members. -/
def plainNumbersMembers : List (String × Json) → List (String × Json)
  | [] => []
  | (k, v) :: rest => (k, plainNumbers v) :: plainNumbersMembers rest
end

/-- `a == b`, of dictionaries. -/
def equalDicts (a b : Obj) : Bool := plainNumbersMembers a.canon == plainNumbersMembers b.canon

/-- The dictionaries of two entries are equal, but for `updated_at`. -/
def unchanged (lib : BibleLibrary) (before after : Entry) : Bool :=
  equalDicts (Dict.erase (before.toDict lib) "updated_at") (Dict.erase (after.toDict lib) "updated_at")

/-- `update`. -/
def update (lib : BibleLibrary) (id : String) (now : ℕ) (changes : Changes) (dir : Directory) :
    Except Exc (Option Entry) × Directory :=
  match get lib id dir with
  | none => (.ok none, dir)
  | some entry =>
    let edited := { entry with settings := changes.apply entry.settings }
    match postInit lib edited.settings with
    | .error e => (.error e, dir)
    | .ok () =>
      if unchanged lib entry edited then (.ok (get lib id dir), dir)
      else
        let edited := { edited with updatedAt := now }
        (.ok (some edited), save lib edited dir)

/-- What `promote_winner` is given about an asset. -/
structure Promotion where
  assetId : String
  jobId : Option String := none
  modelId : String
  seed : ℤ
  params : Obj := []
  attributes : Dict String := []
  deriving DecidableEq, Repr

/-- The parameters that belong to more than the one asset. -/
def Promotion.portableParams (promotion : Promotion) : Obj :=
  promotion.params.filter fun member => member.1 ∉ promotionExcludedParamKeys

/-- What the entry was like before a promotion, as the record of it says. -/
def previousRecord (settings : Settings) : Obj :=
  [("attributes", .obj (textMembers settings.attributes)), ("seed_policy", .obj settings.seedPolicy),
    ("reference_asset_ids", dumpTexts settings.referenceAssetIds),
    ("model_id", (settings.metadata.get? "promoted_model_id").getD .null),
    ("params", (settings.metadata.get? "promoted_params").getD .null)]

/-- What a promotion applies, as the record of it says. -/
def Promotion.applied (promotion : Promotion) : Obj :=
  [("model_id", .str promotion.modelId), ("seed", .int promotion.seed), ("params", .obj promotion.portableParams),
    ("attributes", .obj (textMembers promotion.attributes))]

/-- `promotion_record`. -/
def promotionRecord (lib : BibleLibrary) (promotedAt : ℕ) (promotion : Promotion) (settings : Settings) : Json :=
  .obj [("asset_id", .str promotion.assetId), ("job_id", .ofStr? promotion.jobId),
    ("promoted_at", .str (lib.isoformat promotedAt)), ("applied", .obj promotion.applied),
    ("previous", .obj (previousRecord settings))]

/-- `list(entry.metadata.get("promotion_history", []))`. -/
def promotionHistory (metadata : Obj) : Except Exc (List Json) :=
  match (metadata.get? "promotion_history").getD (.arr []) with
  | .arr records => .ok records
  | .str text => .ok (text.toList.map fun c => .str (String.singleton c))
  | .obj members => .ok (members.map fun member => .str member.1)
  | _ => .error (.other "object is not iterable")

/-- The metadata after a promotion. -/
def promotedMetadata (lib : BibleLibrary) (promotedAt : ℕ) (promotion : Promotion) (settings : Settings)
    (history : List Json) : Obj :=
  (((settings.metadata.set "promotion_history"
    (.arr (history ++ [promotionRecord lib promotedAt promotion settings]))).set "promoted_asset_id"
      (.str promotion.assetId)).set "promoted_model_id" (.str promotion.modelId)).set "promoted_params"
        (.obj promotion.portableParams)

/-- The fields that a promotion updates. -/
def promotedChanges (lib : BibleLibrary) (promotedAt : ℕ) (promotion : Promotion) (settings : Settings)
    (history : List Json) : Changes where
  attributes := some (settings.attributes.update promotion.attributes)
  seedPolicy := some [("mode", .str "locked"), ("seed", .int promotion.seed)]
  referenceAssetIds := some (if promotion.assetId ∈ settings.referenceAssetIds then settings.referenceAssetIds
    else settings.referenceAssetIds ++ [promotion.assetId])
  metadata := some (promotedMetadata lib promotedAt promotion settings history)

/-- `promote_winner`. -/
def promoteWinner (lib : BibleLibrary) (id : String) (now promotedAt : ℕ) (promotion : Promotion) (dir : Directory) :
    Except Exc (Option Entry) × Directory :=
  match get lib id dir with
  | none => (.ok none, dir)
  | some entry =>
    if strip promotion.assetId = "" then (.error (.value "Promotion requires a non-empty asset_id."), dir)
    else match promotionHistory entry.settings.metadata with
      | .error e => (.error e, dir)
      | .ok history => update lib id now (promotedChanges lib promotedAt promotion entry.settings history) dir

/-- `delete`. -/
def delete (id : String) (dir : Directory) : Bool × Directory :=
  if (dir.get? id).isSome then (true, Dict.erase dir id) else (false, dir)

/-- A call of the repository. -/
inductive Op
  | create (id : String) (now : ℕ) (settings : Settings)
  | update (id : String) (now : ℕ) (changes : Changes)
  | promote (id : String) (now promotedAt : ℕ) (promotion : Promotion)
  | delete (id : String)

namespace Op

/-- The entry that a call is about. -/
def target : Op → String
  | create id _ _ | update id _ _ | promote id _ _ _ | delete id => id

/-- What a call returns, and the directory after it. -/
def exec (lib : BibleLibrary) : Op → Directory → Except Exc (Option Entry) × Directory
  | create id now settings, dir =>
    ((Bible.create lib id now settings dir).1.map some, (Bible.create lib id now settings dir).2)
  | update id now changes, dir => Bible.update lib id now changes dir
  | promote id now promotedAt promotion, dir => promoteWinner lib id now promotedAt promotion dir
  | delete id, dir => (.ok none, (Bible.delete id dir).2)

end Op

/-- The directory after a sequence of calls. -/
def run (lib : BibleLibrary) (ops : List Op) (dir : Directory) : Directory :=
  ops.foldl (fun dir op => (op.exec lib dir).2) dir

end CreativeStudio.Bible
