import CreativeStudio.Prompting.References
import Mathlib.Data.List.Sort

/-!
# Composing a prompt

Entries of the bible and values of axes are folded into one draft, in an order that does not
depend on how the request lists entries of different kinds. Whatever is dropped on the way is
reported as a conflict.
-/

namespace CreativeStudio.Prompting
open Data

/-- `BIBLE_KINDS`. -/
inductive BibleKind
  | character | style | brand | location | prop
  deriving DecidableEq, Repr

namespace BibleKind

def text : BibleKind → String
  | character => "character"
  | style => "style"
  | brand => "brand"
  | location => "location"
  | prop => "prop"

/-- The place of the kind in `KIND_COMPOSITION_ORDER`. -/
def compositionRank : BibleKind → ℕ
  | character => 0
  | prop => 1
  | location => 2
  | style => 3
  | brand => 4

/-- The kinds that are also a `ReferenceRole`. -/
def role? : BibleKind → Option ReferenceRole
  | character => some .character
  | location => some .location
  | style | brand | prop => none

end BibleKind

/-- The fields of a `BibleEntry` that the composer reads. -/
structure BibleEntry where
  id : String
  kind : BibleKind
  name : String
  promptFragment : String := ""
  negativeFragment : String := ""
  tokens : List String := []
  attributes : Obj := []
  lora : Option Obj := none
  referenceAssetIds : List String := []
  seedPolicy : Obj := []
  palette : List String := []
  lockedFields : List String := []
  deriving DecidableEq, Repr

/-- `locked_seed`. -/
def BibleEntry.lockedSeed (entry : BibleEntry) : Option ℤ :=
  if entry.seedPolicy.get? "mode" = some (.str "locked") then
    match entry.seedPolicy.get? "seed" with
    | some (.bool b) => some (if b then 1 else 0)
    | some (.int n) => some n
    | some (.float q) => some (if 0 ≤ q then ⌊q⌋ else ⌈q⌉)
    | _ => none
  else none

/-- `TEMPLATE_TAILS`. -/
def templateTail : String → String
  | "image" => "highly detailed, sharp focus"
  | "logo" => "vector logo, flat, clean edges, plain background, centered"
  | "thumbnail" => "high contrast, bold readable composition, clear focal point"
  | "video" => "cinematic lighting, consistent framing"
  | "text" => ""
  | _ => "highly detailed, sharp focus"

/-- `TEMPLATE_NEGATIVE_TAILS`. -/
def templateNegativeTail : String → String
  | "logo" => "photograph, 3d render, busy background, gradient mesh, watermark, text artifacts"
  | "thumbnail" => "cluttered, illegible text, low contrast"
  | "video" => "flicker, warped geometry"
  | _ => ""

/-- `PromptSpec`. -/
structure PromptSpec where
  basePrompt : String := ""
  negativePrompt : Option String := none
  bibleRefs : List String := []
  axisValues : Obj := []
  template : String := "image"
  extraFragments : List String := []
  seed : Option ℤ := none
  deriving DecidableEq, Repr

/-- `ComposedPrompt`. -/
structure ComposedPrompt where
  prompt : String
  negativePrompt : Option String
  seed : Option ℤ
  lora : Option Obj
  referenceAssetIds : List String
  resolvedReferences : List ReferenceImageInput
  palette : List String
  attributes : Dict String
  applied : List Json
  conflicts : List String
  deriving DecidableEq, Repr

/-- The repositories of a `PromptComposer`, as they answer. -/
structure PromptComposer where
  bibleRepository : Option (String → Option BibleEntry) := none
  assetRepository : Option (String → Option Assets.Asset) := none

/-- The reference that an image of a bible entry becomes. -/
def bibleReference (role : ReferenceRole) (assetId : String) : ReferenceImageInput :=
  { assetId, role, strength := defaultReferenceStrength, preprocessing := .none }

/-- The local variables of `compose`. -/
structure Draft where
  positiveFragments : List String := []
  negativeFragments : List String := []
  attributes : Dict String := []
  attributeOwners : Dict String := []
  lockedAttributes : Dict String := []
  referenceAssetIds : List String := []
  resolvedReferences : List ReferenceImageInput := []
  seenResolvedReferences : List (String × ReferenceRole) := []
  palette : List String := []
  lora : Option Obj := none
  loraOwner : Option String := none
  seed : Option ℤ := none
  seedOwner : Option String := none
  applied : List Json := []
  conflicts : List String := []

namespace Draft

/-- A fragment that is appended, unless it is blank. -/
def spoken (fragment : String) : List String :=
  if strip fragment = "" then [] else [strip fragment]

def addPositive (fragment : String) (draft : Draft) : Draft :=
  { draft with positiveFragments := draft.positiveFragments ++ spoken fragment }

def addNegative (fragment : String) (draft : Draft) : Draft :=
  { draft with negativeFragments := draft.negativeFragments ++ spoken fragment }

def note (record : Obj) (draft : Draft) : Draft :=
  { draft with applied := draft.applied ++ [.obj record] }

def report (conflict : String) (draft : Draft) : Draft :=
  { draft with conflicts := draft.conflicts ++ [conflict] }

/-- `_assign_attribute`. -/
def assignAttribute (lib : PromptLibrary) (ownerName : String) (isLocked : Bool) (draft : Draft)
    (slot value : String) : Draft :=
  match (draft.lockedAttributes.get? slot).filter fun kept => kept ≠ value with
  | some kept =>
    let owner := lib.repr ((draft.attributeOwners.get? slot).getD "")
    draft.report (s!"locked attribute {lib.repr slot} kept as {lib.repr kept} from {owner}; " ++
      s!"ignored {lib.repr value} from {lib.repr ownerName}")
  | none => { draft with
      attributes := draft.attributes.set slot value
      attributeOwners := draft.attributeOwners.set slot ownerName
      lockedAttributes := if isLocked then draft.lockedAttributes.set slot value else draft.lockedAttributes }

/-- The attributes of an entry or of an axis value, by the order of their slots. -/
def assignAttributes (lib : PromptLibrary) (ownerName : String) (lockedFields : List String)
    (attributes : Obj) (draft : Draft) : Draft :=
  (Dict.sortByName attributes).foldl (fun draft slot =>
    draft.assignAttribute lib ownerName (lockedFields.contains slot.1) slot.1 (lib.format slot.2)) draft

/-- Values that are not there yet, in their order. -/
def addNew (old new : List String) : List String :=
  new.foldl (fun kept value => if value ∈ kept then kept else kept ++ [value]) old

def addPalette (colors : List String) (draft : Draft) : Draft :=
  { draft with palette := addNew draft.palette colors }

/-- The images of an entry of any kind. -/
def addReferenceIds (ids : List String) (draft : Draft) : Draft :=
  { draft with referenceAssetIds := addNew draft.referenceAssetIds ids }

/-- One image of a character or a location. -/
def addReference (role : ReferenceRole) (draft : Draft) (assetId : String) : Draft :=
  { draft with
    seenResolvedReferences := draft.seenResolvedReferences ++ [(assetId, role)]
    resolvedReferences := draft.resolvedReferences ++ [bibleReference role assetId] }

/-- What the texts and the attributes of an entry add. -/
def describe (lib : PromptLibrary) (entry : BibleEntry) (draft : Draft) : Draft :=
  let draft := entry.tokens.foldl (fun draft token => draft.addPositive token) (draft.addPositive entry.promptFragment)
  (draft.addNegative entry.negativeFragment).assignAttributes lib entry.name entry.lockedFields entry.attributes

/-- The one adapter slot goes to the first entry that names an adapter. -/
def addLora (lib : PromptLibrary) (entry : BibleEntry) (draft : Draft) : Draft :=
  match entry.lora.filter fun lora => !lora.isEmpty with
  | none => draft
  | some lora =>
    match draft.lora with
    | none => { draft with lora := some lora, loraOwner := some entry.name }
    | some kept =>
      let path (members : Obj) := lib.format ((members.get? "path").getD .null)
      if path lora = path kept then draft
      else draft.report ("LoRA conflict: keeping " ++ lib.repr (draft.loraOwner.getD "") ++ " and ignoring " ++
        s!"{lib.repr entry.name}; only one LoRA can be applied per generation")

/-- The first entry that locks a seed decides. -/
def lockSeed (lib : PromptLibrary) (entry : BibleEntry) (draft : Draft) : Draft :=
  match entry.lockedSeed with
  | none => draft
  | some locked =>
    match draft.seedOwner with
    | none =>
      { draft with seed := some locked, seedOwner := some entry.name }.note
        [("source", .str ("bible:" ++ entry.id)), ("kind", .str "seed_lock"), ("seed", .int locked)]
    | some owner =>
      if draft.seed = some locked then draft
      else draft.report (s!"Seed lock conflict: keeping seed {lib.format (draft.seed.elim .null .int)} " ++
        s!"from {lib.repr owner} and ignoring {locked} from {lib.repr entry.name}")

end Draft

namespace PromptComposer

/-- `_resolve_entries`: the entries in the order of composition, and what was not found. -/
def resolveEntries (composer : PromptComposer) (bibleRefs : List String) :
    List BibleEntry × List String :=
  if bibleRefs.isEmpty then ([], [])
  else
    match composer.bibleRepository with
    | none => ([], ["bible references were given but no bible repository is configured"])
    | some get =>
      let unknown := bibleRefs.filter fun id => (get id).isNone
      ((bibleRefs.filterMap get).insertionSort fun a b => a.kind.compositionRank ≤ b.kind.compositionRank,
        unknown.map fun id => s!"unknown bible entry: {id}")

/-- `_resolve_reference_asset`. -/
def resolveReferenceAsset (lib : PromptLibrary) (composer : PromptComposer) (assetId : String)
    (role : ReferenceRole) (entryName : String) : Except ReferenceError Unit :=
  let named := s!"Bible entry {lib.repr entryName} names {lib.repr assetId} as a {Assets.roleText role} reference, but "
  match composer.assetRepository with
  | none => .ok ()
  | some get =>
    match get assetId with
    | none => .error (.missingAsset (named ++ "no asset with that id exists (missing or deleted); update the " ++
        "Bible entry's reference_asset_ids or restore the asset before generating."))
    | some asset =>
      if asset.mediaType ≠ .image then
        .error (.missingAsset (named ++ s!"that asset is {lib.repr (Assets.mediaTypeText asset.mediaType)}, " ++
          "not image; reference-image conditioning requires an image asset."))
      else .ok ()

/-- One image of an entry that is a character or a location. -/
def resolveReference (lib : PromptLibrary) (composer : PromptComposer) (entryName : String)
    (role : ReferenceRole) (draft : Draft) (assetId : String) : Except ReferenceError Draft :=
  if (assetId, role) ∈ draft.seenResolvedReferences then .ok draft
  else (resolveReferenceAsset lib composer assetId role entryName).map fun _ =>
    draft.addReference role assetId

/-- What an entry adds to the references of the draft. -/
def addReferences (lib : PromptLibrary) (composer : PromptComposer) (entry : BibleEntry) (draft : Draft) :
    Except ReferenceError Draft :=
  let draft := draft.addReferenceIds entry.referenceAssetIds
  match entry.kind.role? with
  | none => .ok draft
  | some role => entry.referenceAssetIds.foldlM (resolveReference lib composer entry.name role) draft

/-- What the loop of `compose` does with one entry. -/
def addEntry (lib : PromptLibrary) (composer : PromptComposer) (draft : Draft) (entry : BibleEntry) :
    Except ReferenceError Draft := do
  let draft ← addReferences lib composer entry (draft.describe lib entry)
  let draft := ((draft.addPalette entry.palette).addLora lib entry).lockSeed lib entry
  return draft.note [("source", .str ("bible:" ++ entry.id)), ("kind", .str entry.kind.text),
    ("name", .str entry.name), ("fragment", .str (strip entry.promptFragment))]

end PromptComposer

/-- What `_normalize_axis_patch` makes of an axis value. -/
structure AxisPatch where
  fragment : String := ""
  negative : String := ""
  attributes : Obj := []
  palette : List String := []

/-- `_normalize_axis_patch`. -/
def normalizeAxisPatch (lib : PromptLibrary) (patch : Json) : AxisPatch :=
  match patch with
  | .null => {}
  | .str text => { fragment := strip text }
  | .obj members =>
    let first (keys : List String) : String :=
      match (keys.filterMap (Dict.get? members)).find? JsonOf.truthy with
      | some value => strip (lib.format value)
      | none => ""
    { fragment := first ["prompt_fragment", "prompt_suffix"]
      negative := first ["negative_fragment", "negative_suffix"]
      attributes := ((Dict.get? members "attributes").bind JsonOf.obj?).getD []
      palette := match Dict.get? members "palette" with
        | some (.arr colors) => colors.map lib.format
        | _ => [] }
  | other => { fragment := strip (lib.format other) }

/-- What the loop of `compose` does with one axis. -/
def Draft.addAxis (lib : PromptLibrary) (draft : Draft) (axis : String × Json) : Draft :=
  let patch := normalizeAxisPatch lib axis.2
  let draft := ((draft.addPositive patch.fragment).addNegative patch.negative).addPalette patch.palette
  (draft.assignAttributes lib axis.1 [] patch.attributes).note
    [("source", .str ("axis:" ++ axis.1)), ("kind", .str "axis"), ("fragment", .str patch.fragment)]

/-- A fragment that is appended and noted with its source, unless it is blank. -/
def Draft.addFrom (source : String) (draft : Draft) (fragment : String) : Draft :=
  if strip fragment = "" then draft
  else (draft.addPositive fragment).note [("source", .str source), ("fragment", .str (strip fragment))]

/-- The attributes are stated after everything that could contradict them. -/
def Draft.stateAttributes (draft : Draft) : Draft :=
  { draft with
    positiveFragments := draft.positiveFragments ++
      (Dict.sortByName draft.attributes).map fun (slot, value) => s!"{slot}: {value}" }

/-- `_join_fragments`: each token once, where it stands first, whatever its case. -/
def joinFragments (lib : PromptLibrary) (fragments : List String) : String :=
  let tokens := fragments.flatMap fun fragment => (fragment.toList.splitOn ',').map fun token =>
    " ".intercalate ((splitWords token).map String.ofList)
  let kept := tokens.foldl (fun (kept : List String) token =>
    if token = "" ∨ lib.lower token ∈ kept.map lib.lower then kept else kept ++ [token]) []
  ", ".intercalate kept

namespace PromptComposer

/-- The draft before the first entry. -/
def startingDraft (composer : PromptComposer) (spec : PromptSpec) : Draft :=
  let draft : Draft := { seed := spec.seed, conflicts := (composer.resolveEntries spec.bibleRefs).2 }
  (draft.addFrom "base" spec.basePrompt).addNegative (spec.negativePrompt.getD "")

/-- What `compose` adds after the entries. -/
def finishDraft (lib : PromptLibrary) (spec : PromptSpec) (draft : Draft) : Draft :=
  let draft := (Dict.sortByName spec.axisValues).foldl (Draft.addAxis lib) draft
  let draft := (spec.extraFragments.foldl (Draft.addFrom "extra") draft).stateAttributes
  (draft.addFrom "template" (templateTail spec.template)).addNegative (templateNegativeTail spec.template)

/-- What `compose` returns of its draft. -/
def composed (lib : PromptLibrary) (draft : Draft) : ComposedPrompt where
  prompt := joinFragments lib draft.positiveFragments
  negativePrompt :=
    let negative := joinFragments lib draft.negativeFragments
    if negative = "" then none else some negative
  seed := draft.seed
  lora := draft.lora
  referenceAssetIds := draft.referenceAssetIds
  resolvedReferences := draft.resolvedReferences
  palette := draft.palette
  attributes := draft.attributes
  applied := draft.applied
  conflicts := draft.conflicts

@[simp] theorem seed_composed (lib : PromptLibrary) (draft : Draft) :
    (composed lib draft).seed = draft.seed := rfl

@[simp] theorem resolvedReferences_composed (lib : PromptLibrary) (draft : Draft) :
    (composed lib draft).resolvedReferences = draft.resolvedReferences := rfl

/-- `compose`. -/
def compose (lib : PromptLibrary) (composer : PromptComposer) (spec : PromptSpec) :
    Except ReferenceError ComposedPrompt := do
  let draft ← (composer.resolveEntries spec.bibleRefs).1.foldlM (addEntry lib composer)
    (composer.startingDraft spec)
  return composed lib (finishDraft lib spec draft)

end PromptComposer

/-! ## What the seed of a spec does not change -/

/-- The drafts differ in the seed and in the two logs at most. -/
def Draft.SameText (a b : Draft) : Prop :=
  ∃ seed applied conflicts, b = { a with seed, applied, conflicts }

section SameText
variable (lib : PromptLibrary) {composer : PromptComposer} {a b : Draft}

theorem Draft.SameText.addPositive (h : a.SameText b) (fragment : String) :
    (a.addPositive fragment).SameText (b.addPositive fragment) := by
  obtain ⟨seed, applied, conflicts, rfl⟩ := h
  exact ⟨seed, applied, conflicts, rfl⟩

theorem Draft.SameText.addNegative (h : a.SameText b) (fragment : String) :
    (a.addNegative fragment).SameText (b.addNegative fragment) := by
  obtain ⟨seed, applied, conflicts, rfl⟩ := h
  exact ⟨seed, applied, conflicts, rfl⟩

theorem Draft.SameText.addPalette (h : a.SameText b) (colors : List String) :
    (a.addPalette colors).SameText (b.addPalette colors) := by
  obtain ⟨seed, applied, conflicts, rfl⟩ := h
  exact ⟨seed, applied, conflicts, rfl⟩

theorem Draft.SameText.note (h : a.SameText b) (record record' : Obj) :
    (a.note record).SameText (b.note record') := by
  obtain ⟨seed, applied, conflicts, rfl⟩ := h
  exact ⟨seed, _, conflicts, rfl⟩

theorem Draft.SameText.assignAttribute (h : a.SameText b) (owner : String) (isLocked : Bool)
    (slot value : String) : (a.assignAttribute lib owner isLocked slot value).SameText
      (b.assignAttribute lib owner isLocked slot value) := by
  obtain ⟨seed, applied, conflicts, rfl⟩ := h
  unfold Draft.assignAttribute
  cases (a.lockedAttributes.get? slot).filter fun kept => kept ≠ value with
  | some kept => exact ⟨seed, applied, _, rfl⟩
  | none => exact ⟨seed, applied, conflicts, rfl⟩

theorem Draft.SameText.addLora (h : a.SameText b) (entry : BibleEntry) :
    (a.addLora lib entry).SameText (b.addLora lib entry) := by
  obtain ⟨seed, applied, conflicts, rfl⟩ := h
  unfold Draft.addLora
  cases entry.lora.filter fun lora => !lora.isEmpty with
  | none => exact ⟨seed, applied, conflicts, rfl⟩
  | some lora =>
    cases hkept : a.lora with
    | none => exact ⟨seed, applied, conflicts, by simp⟩
    | some kept =>
      simp only
      split
      · exact ⟨seed, applied, conflicts, by rw [← hkept]⟩
      · exact ⟨seed, applied, _, by rw [← hkept]; rfl⟩

theorem Draft.SameText.lockSeed (h : a.SameText b) (entry : BibleEntry) :
    (a.lockSeed lib entry).SameText (b.lockSeed lib entry) := by
  obtain ⟨seed, applied, conflicts, rfl⟩ := h
  unfold Draft.lockSeed
  cases entry.lockedSeed with
  | none => exact ⟨seed, applied, conflicts, rfl⟩
  | some locked =>
    cases howner : a.seedOwner with
    | none => exact ⟨some locked, _, conflicts, rfl⟩
    | some owner =>
      simp only
      split <;> split
      · exact ⟨seed, applied, conflicts, by rw [← howner]⟩
      · exact ⟨seed, applied, _, by rw [← howner]; rfl⟩
      · exact ⟨seed, applied, conflicts, by rw [← howner]; rfl⟩
      · exact ⟨seed, applied, _, by rw [← howner]; rfl⟩

theorem Draft.SameText.foldl {step step' : Draft → ι → Draft}
    (hstep : ∀ a b i, a.SameText b → (step a i).SameText (step' b i)) (items : List ι) (h : a.SameText b) :
    (items.foldl step a).SameText (items.foldl step' b) :=
  List.foldl_rel h fun i _ a b hab => hstep a b i hab

open PromptComposer in
theorem Draft.SameText.addReferences (h : a.SameText b) (entry : BibleEntry) :
    Matched Draft.SameText (addReferences lib composer entry a) (addReferences lib composer entry b) := by
  have hids : (a.addReferenceIds entry.referenceAssetIds).SameText (b.addReferenceIds entry.referenceAssetIds) := by
    obtain ⟨seed, applied, conflicts, rfl⟩ := h
    exact ⟨seed, applied, conflicts, rfl⟩
  unfold PromptComposer.addReferences
  cases entry.kind.role? with
  | none => exact .ok hids
  | some role =>
    refine Matched.foldlM (fun a b assetId h => ?_) _ hids
    obtain ⟨seed, applied, conflicts, rfl⟩ := h
    unfold resolveReference
    simp only
    split
    · exact .ok ⟨seed, applied, conflicts, rfl⟩
    · cases resolveReferenceAsset lib composer assetId role entry.name with
      | error e => exact .error e
      | ok _ => exact .ok ⟨seed, applied, conflicts, rfl⟩

theorem Draft.SameText.assignAttributes (h : a.SameText b) (owner : String) (lockedFields : List String)
    (attributes : Obj) : (a.assignAttributes lib owner lockedFields attributes).SameText
      (b.assignAttributes lib owner lockedFields attributes) :=
  h.foldl (fun _ _ slot h => h.assignAttribute lib owner _ slot.1 (lib.format slot.2)) _

theorem Draft.SameText.describe (h : a.SameText b) (entry : BibleEntry) :
    (a.describe lib entry).SameText (b.describe lib entry) := by
  have htokens := (h.addPositive entry.promptFragment).foldl (fun _ _ token h => h.addPositive token) entry.tokens
  exact (htokens.addNegative entry.negativeFragment).assignAttributes lib _ _ _

open PromptComposer in
theorem Draft.SameText.addEntry (h : a.SameText b) (entry : BibleEntry) :
    Matched Draft.SameText (addEntry lib composer a entry) (addEntry lib composer b entry) := by
  refine ((h.describe lib entry).addReferences lib entry).bind fun a b h => ?_
  exact .ok ((((h.addPalette entry.palette).addLora lib entry).lockSeed lib entry).note _ _)

theorem Draft.SameText.addAxis (h : a.SameText b) (axis : String × Json) :
    (a.addAxis lib axis).SameText (b.addAxis lib axis) := by
  have htexts := ((h.addPositive (normalizeAxisPatch lib axis.2).fragment).addNegative
    (normalizeAxisPatch lib axis.2).negative).addPalette (normalizeAxisPatch lib axis.2).palette
  exact (htexts.assignAttributes lib _ _ _).note _ _

theorem Draft.SameText.addFrom (h : a.SameText b) (source fragment : String) :
    (a.addFrom source fragment).SameText (b.addFrom source fragment) := by
  unfold Draft.addFrom
  split
  · exact h
  · exact (h.addPositive fragment).note _ _

open PromptComposer in
theorem Draft.SameText.finishDraft (h : a.SameText b) (spec : PromptSpec) (seed : Option ℤ) :
    (finishDraft lib spec a).SameText (finishDraft lib { spec with seed } b) := by
  have haxes := h.foldl (fun _ _ axis h => h.addAxis lib axis) (Dict.sortByName spec.axisValues)
  have hextra := haxes.foldl (fun _ _ fragment h => h.addFrom "extra" fragment) spec.extraFragments
  refine Draft.SameText.addNegative (Draft.SameText.addFrom ?_ _ _) _
  obtain ⟨seed, applied, conflicts, heq⟩ := hextra
  exact ⟨seed, applied, conflicts, by simp only [heq, Draft.stateAttributes]⟩

/-- What the composed prompts agree on when their specs differ in the seed alone. -/
structure ComposedPrompt.SameText (a b : ComposedPrompt) : Prop where
  prompt : b.prompt = a.prompt
  negativePrompt : b.negativePrompt = a.negativePrompt
  lora : b.lora = a.lora
  resolvedReferences : b.resolvedReferences = a.resolvedReferences

open PromptComposer in
theorem compose_setSeed (spec : PromptSpec) (seed : Option ℤ) :
    Matched ComposedPrompt.SameText (compose lib composer spec) (compose lib composer { spec with seed }) := by
  have hstart : (startingDraft composer spec).SameText (startingDraft composer { spec with seed }) := by
    refine Draft.SameText.addNegative (Draft.SameText.addFrom ?_ _ _) _
    exact ⟨seed, [], _, rfl⟩
  have hentries := Matched.foldlM (fun _ _ entry h => @Draft.SameText.addEntry lib composer _ _ h entry)
    (composer.resolveEntries spec.bibleRefs).1 hstart
  refine Matched.bind hentries fun a b h => .ok ?_
  obtain ⟨seed', applied, conflicts, heq⟩ := Draft.SameText.finishDraft lib h spec seed
  constructor <;> simp only [composed, heq]

end SameText

/-! ## The seed of a composed prompt -/

/-- Neither the seed nor the resolved references have been touched. -/
structure Draft.SameChoices (a b : Draft) : Prop where
  seed : b.seed = a.seed
  seedOwner : b.seedOwner = a.seedOwner
  resolvedReferences : b.resolvedReferences = a.resolvedReferences
  seenResolvedReferences : b.seenResolvedReferences = a.seenResolvedReferences

section Seed
variable {lib : PromptLibrary} {composer : PromptComposer}

theorem Draft.SameChoices.refl (a : Draft) : a.SameChoices a := ⟨rfl, rfl, rfl, rfl⟩

theorem Draft.SameChoices.trans {a b c : Draft} (h : a.SameChoices b) (h' : b.SameChoices c) : a.SameChoices c :=
  ⟨h'.seed.trans h.seed, h'.seedOwner.trans h.seedOwner, h'.resolvedReferences.trans h.resolvedReferences,
    h'.seenResolvedReferences.trans h.seenResolvedReferences⟩

theorem Draft.SameChoices.foldl {step : Draft → ι → Draft}
    (hstep : ∀ (draft : Draft) (i : ι), draft.SameChoices (step draft i))
    (items : List ι) (draft : Draft) : draft.SameChoices (items.foldl step draft) := by
  induction items generalizing draft with
  | nil => exact ⟨rfl, rfl, rfl, rfl⟩
  | cons i rest ih => exact (hstep draft i).trans (ih _)

theorem Draft.sameChoices_assignAttribute (owner : String) (isLocked : Bool) (draft : Draft) (slot value : String) :
    draft.SameChoices (draft.assignAttribute lib owner isLocked slot value) := by
  unfold assignAttribute
  split <;> exact ⟨rfl, rfl, rfl, rfl⟩

theorem Draft.sameChoices_addFrom (source : String) (draft : Draft) (fragment : String) :
    draft.SameChoices (draft.addFrom source fragment) := by
  unfold addFrom
  split <;> exact ⟨rfl, rfl, rfl, rfl⟩

theorem Draft.sameChoices_addLora (entry : BibleEntry) (draft : Draft) :
    draft.SameChoices (draft.addLora lib entry) := by
  unfold addLora
  split
  · exact ⟨rfl, rfl, rfl, rfl⟩
  · split
    · exact ⟨rfl, rfl, rfl, rfl⟩
    · simp only
      split <;> exact ⟨rfl, rfl, rfl, rfl⟩

theorem Draft.sameChoices_assignAttributes (owner : String) (lockedFields : List String) (attributes : Obj)
    (draft : Draft) : draft.SameChoices (draft.assignAttributes lib owner lockedFields attributes) :=
  Draft.SameChoices.foldl (fun (draft : Draft) (slot : String × Json) =>
    draft.sameChoices_assignAttribute owner _ slot.1 (lib.format slot.2)) _ draft

theorem Draft.sameChoices_addPositive (fragment : String) (draft : Draft) :
    draft.SameChoices (draft.addPositive fragment) := ⟨rfl, rfl, rfl, rfl⟩

theorem Draft.sameChoices_addNegative (fragment : String) (draft : Draft) :
    draft.SameChoices (draft.addNegative fragment) := ⟨rfl, rfl, rfl, rfl⟩

theorem Draft.sameChoices_addPalette (colors : List String) (draft : Draft) :
    draft.SameChoices (draft.addPalette colors) := ⟨rfl, rfl, rfl, rfl⟩

theorem Draft.sameChoices_addReferenceIds (ids : List String) (draft : Draft) :
    draft.SameChoices (draft.addReferenceIds ids) := ⟨rfl, rfl, rfl, rfl⟩

theorem Draft.sameChoices_note (record : Obj) (draft : Draft) :
    draft.SameChoices (draft.note record) := ⟨rfl, rfl, rfl, rfl⟩

theorem Draft.sameChoices_stateAttributes (draft : Draft) : draft.SameChoices draft.stateAttributes :=
  ⟨rfl, rfl, rfl, rfl⟩

theorem Draft.sameChoices_addAxis (draft : Draft) (axis : String × Json) :
    draft.SameChoices (draft.addAxis lib axis) := by
  have htexts := (draft.sameChoices_addPositive (normalizeAxisPatch lib axis.2).fragment).trans
    (Draft.sameChoices_addNegative (normalizeAxisPatch lib axis.2).negative _)
  have hpalette := htexts.trans (Draft.sameChoices_addPalette (normalizeAxisPatch lib axis.2).palette _)
  exact (hpalette.trans (Draft.sameChoices_assignAttributes axis.1 [] _ _)).trans (Draft.sameChoices_note _ _)

theorem Draft.sameChoices_describe (entry : BibleEntry) (draft : Draft) :
    draft.SameChoices (draft.describe lib entry) := by
  have htokens := (draft.sameChoices_addPositive entry.promptFragment).trans
    (Draft.SameChoices.foldl (fun draft token => Draft.sameChoices_addPositive token draft) entry.tokens _)
  have hnegative := htokens.trans (Draft.sameChoices_addNegative entry.negativeFragment _)
  exact hnegative.trans (Draft.sameChoices_assignAttributes entry.name entry.lockedFields entry.attributes _)

theorem Draft.sameChoices_finishDraft (spec : PromptSpec) (draft : Draft) :
    draft.SameChoices (PromptComposer.finishDraft lib spec draft) := by
  have haxes := Draft.SameChoices.foldl (@Draft.sameChoices_addAxis lib) (Dict.sortByName spec.axisValues) draft
  have hextra := haxes.trans (Draft.SameChoices.foldl (Draft.sameChoices_addFrom "extra") spec.extraFragments _)
  unfold PromptComposer.finishDraft
  refine SameChoices.trans ?_ (Draft.sameChoices_addNegative _ _)
  exact (hextra.trans (Draft.sameChoices_stateAttributes _)).trans (Draft.sameChoices_addFrom "template" _ _)

theorem PromptComposer.sameChoices_startingDraft (composer : PromptComposer) (spec : PromptSpec) :
    Draft.SameChoices { seed := spec.seed } (composer.startingDraft spec) := by
  unfold startingDraft
  refine Draft.SameChoices.trans ?_ (Draft.sameChoices_addNegative _ _)
  refine Draft.SameChoices.trans ?_ (Draft.sameChoices_addFrom "base" _ _)
  exact ⟨rfl, rfl, rfl, rfl⟩

theorem seed_of_resolveReferences {entryName : String} {role : ReferenceRole} {ids : List String}
    {draft draft' : Draft} (h : ids.foldlM (composer.resolveReference lib entryName role) draft = .ok draft') :
    draft'.seed = draft.seed ∧ draft'.seedOwner = draft.seedOwner := by
  induction ids generalizing draft with
  | nil =>
    cases h
    exact ⟨rfl, rfl⟩
  | cons assetId rest ih =>
    obtain ⟨mid, hmid, hrest⟩ := ok_of_bind h
    unfold PromptComposer.resolveReference at hmid
    split at hmid
    · cases hmid
      exact ih hrest
    · obtain ⟨-, -, rfl⟩ := ok_of_map hmid
      obtain ⟨hseed, howner⟩ := ih hrest
      exact ⟨hseed, howner⟩

/-- The references of an entry leave the seed alone. -/
theorem seed_of_addReferences {entry : BibleEntry} {draft draft' : Draft}
    (h : composer.addReferences lib entry draft = .ok draft') :
    draft'.seed = draft.seed ∧ draft'.seedOwner = draft.seedOwner := by
  unfold PromptComposer.addReferences at h
  simp only at h
  split at h
  · cases h
    exact ⟨rfl, rfl⟩
  · obtain ⟨hseed, howner⟩ := seed_of_resolveReferences h
    exact ⟨hseed, howner⟩

theorem Draft.seed_lockSeed (entry : BibleEntry) (draft : Draft) :
    (draft.lockSeed lib entry).seed = (if draft.seedOwner.isSome then draft.seed
      else entry.lockedSeed.or draft.seed) ∧
      (draft.lockSeed lib entry).seedOwner.isSome = (draft.seedOwner.isSome || entry.lockedSeed.isSome) := by
  unfold lockSeed
  cases entry.lockedSeed with
  | none => simp
  | some locked =>
    cases howner : draft.seedOwner with
    | none => simp [note]
    | some owner =>
      simp only
      split <;> simp [report, howner]

/-- An entry decides the seed when it locks one and none before it has. -/
theorem seed_of_addEntry {entry : BibleEntry} {draft draft' : Draft}
    (h : composer.addEntry lib draft entry = .ok draft') :
    draft'.seed = (if draft.seedOwner.isSome then draft.seed else entry.lockedSeed.or draft.seed) ∧
      draft'.seedOwner.isSome = (draft.seedOwner.isSome || entry.lockedSeed.isSome) := by
  obtain ⟨mid, hmid, hrest⟩ := ok_of_bind h
  cases hrest
  have htexts := @Draft.sameChoices_describe lib entry draft
  have hlora := @Draft.sameChoices_addLora lib entry (mid.addPalette entry.palette)
  obtain ⟨hseed, howner⟩ := seed_of_addReferences hmid
  have hseed' : (mid.addPalette entry.palette).seed = draft.seed := hseed.trans htexts.seed
  have howner' : (mid.addPalette entry.palette).seedOwner = draft.seedOwner := howner.trans htexts.seedOwner
  have hlock := @Draft.seed_lockSeed lib entry ((mid.addPalette entry.palette).addLora lib entry)
  rw [hlora.seed, hlora.seedOwner, hseed', howner'] at hlock
  exact hlock

/-- The first entry that locks a seed has decided it. -/
theorem seed_of_entries {entries : List BibleEntry} {draft draft' : Draft}
    (h : entries.foldlM (composer.addEntry lib) draft = .ok draft') :
    draft'.seed = if draft.seedOwner.isSome then draft.seed
      else (entries.findSome? BibleEntry.lockedSeed).or draft.seed := by
  induction entries generalizing draft with
  | nil =>
    cases h
    simp
  | cons entry rest ih =>
    obtain ⟨mid, hmid, hrest⟩ := ok_of_bind h
    obtain ⟨hseed, howner⟩ := seed_of_addEntry hmid
    rw [ih hrest, hseed, howner, List.findSome?_cons]
    cases entry.lockedSeed <;> cases draft.seedOwner.isSome <;> simp

/-- The seed that the entries of a request lock. -/
def PromptComposer.lockedSeed (composer : PromptComposer) (bibleRefs : List String) : Option ℤ :=
  (composer.resolveEntries bibleRefs).1.findSome? BibleEntry.lockedSeed

/-- **The seed of a composed prompt** is the one that its entries lock, or the one of the spec. -/
theorem seed_of_compose {spec : PromptSpec} {composed : ComposedPrompt}
    (h : composer.compose lib spec = .ok composed) :
    composed.seed = (composer.lockedSeed spec.bibleRefs).or spec.seed := by
  obtain ⟨draft, hentries, hrest⟩ := ok_of_bind h
  obtain rfl := Except.ok.inj hrest
  have hstart := composer.sameChoices_startingDraft spec
  have hfinish := (@Draft.sameChoices_finishDraft lib spec draft).seed
  rw [seed_of_entries hentries, hstart.seed, hstart.seedOwner] at hfinish
  rw [PromptComposer.seed_composed, hfinish]
  rfl

end Seed

/-! ## The references of a composed prompt -/

/-- The references that an entry asks for. -/
def BibleEntry.references (entry : BibleEntry) : List ReferenceImageInput :=
  match entry.kind.role? with
  | none => []
  | some role => entry.referenceAssetIds.map (bibleReference role)

/-- The draft has resolved the references of a kind, each of them once. -/
structure Draft.Collected (draft : Draft) (asked : ReferenceImageInput → Prop) : Prop where
  listed : ∀ reference, reference ∈ draft.resolvedReferences ↔ asked reference
  seen : ∀ assetId role, (assetId, role) ∈ draft.seenResolvedReferences ↔
    bibleReference role assetId ∈ draft.resolvedReferences

section References
variable {lib : PromptLibrary} {composer : PromptComposer} {asked : ReferenceImageInput → Prop}

theorem bibleReference_inj {role role' : ReferenceRole} {assetId assetId' : String} :
    bibleReference role assetId = bibleReference role' assetId' ↔ assetId = assetId' ∧ role = role' := by
  simp [bibleReference]

theorem Draft.Collected.congr {draft draft' : Draft} (h : draft.Collected asked) (hsame : draft.SameChoices draft') :
    draft'.Collected asked := by
  refine ⟨fun reference => ?_, fun assetId role => ?_⟩
  · rw [hsame.resolvedReferences, h.listed]
  · rw [hsame.resolvedReferences, hsame.seenResolvedReferences, h.seen]

theorem Draft.Collected.mono {draft : Draft} {asked' : ReferenceImageInput → Prop} (h : draft.Collected asked)
    (hiff : ∀ reference, asked reference ↔ asked' reference) : draft.Collected asked' :=
  ⟨fun reference => (h.listed reference).trans (hiff reference), h.seen⟩

theorem Draft.Collected.resolveReference {entryName assetId : String} {role : ReferenceRole} {draft draft' : Draft}
    (hdraft : draft.Collected asked)
    (h : composer.resolveReference lib entryName role draft assetId = .ok draft') :
    draft'.Collected fun reference => asked reference ∨ reference = bibleReference role assetId := by
  unfold PromptComposer.resolveReference at h
  split at h
  next hseen =>
    cases h
    refine hdraft.mono fun reference => ⟨.inl, ?_⟩
    rintro (hasked | rfl)
    · exact hasked
    · rw [← hdraft.listed, ← hdraft.seen]
      exact hseen
  next hnew =>
    obtain ⟨-, -, rfl⟩ := ok_of_map h
    refine ⟨fun reference => ?_, fun assetId' role' => ?_⟩
    · simp [addReference, hdraft.listed]
    · simp [addReference, hdraft.seen, bibleReference_inj]

theorem Draft.Collected.resolveReferences {entryName : String} {role : ReferenceRole} {ids : List String}
    {draft draft' : Draft} (hdraft : draft.Collected asked)
    (h : ids.foldlM (composer.resolveReference lib entryName role) draft = .ok draft') :
    draft'.Collected fun reference => asked reference ∨ reference ∈ ids.map (bibleReference role) := by
  induction ids generalizing draft asked with
  | nil =>
    cases h
    simpa using hdraft
  | cons assetId rest ih =>
    obtain ⟨mid, hmid, hrest⟩ := ok_of_bind h
    refine (ih (hdraft.resolveReference hmid) hrest).mono fun reference => ?_
    rw [List.map_cons, List.mem_cons, or_assoc]

theorem Draft.Collected.lockSeed {draft : Draft} (h : draft.Collected asked) (entry : BibleEntry) :
    (draft.lockSeed lib entry).Collected asked := by
  unfold Draft.lockSeed
  split
  · exact h
  · split
    · exact ⟨h.listed, h.seen⟩
    · split
      · exact h
      · exact ⟨h.listed, h.seen⟩

theorem Draft.Collected.addEntry {entry : BibleEntry} {draft draft' : Draft} (hdraft : draft.Collected asked)
    (h : composer.addEntry lib draft entry = .ok draft') :
    draft'.Collected fun reference => asked reference ∨ reference ∈ entry.references := by
  obtain ⟨mid, hmid, hrest⟩ := ok_of_bind h
  cases hrest
  have hcollected : mid.Collected fun reference => asked reference ∨ reference ∈ entry.references := by
    have hdescribed := hdraft.congr ((@sameChoices_describe lib entry draft).trans
      (sameChoices_addReferenceIds entry.referenceAssetIds _))
    unfold PromptComposer.addReferences at hmid
    unfold BibleEntry.references
    simp only at hmid
    cases hrole : entry.kind.role? with
    | none =>
      simp only [hrole] at hmid
      cases hmid
      simpa using hdescribed
    | some role =>
      simp only [hrole] at hmid
      exact hdescribed.resolveReferences hmid
  have hlora := hcollected.congr ((mid.sameChoices_addPalette entry.palette).trans (@sameChoices_addLora lib entry _))
  exact (hlora.lockSeed entry).congr (sameChoices_note _ _)

/-- **The references of a composed prompt** are those that its entries ask for. -/
theorem mem_resolvedReferences_of_compose {spec : PromptSpec} {composed : ComposedPrompt}
    (h : composer.compose lib spec = .ok composed) {reference : ReferenceImageInput} :
    reference ∈ composed.resolvedReferences ↔
      ∃ entry ∈ (composer.resolveEntries spec.bibleRefs).1, reference ∈ entry.references := by
  obtain ⟨draft, hentries, hrest⟩ := ok_of_bind h
  obtain rfl := Except.ok.inj hrest
  have hstart : (composer.startingDraft spec).Collected fun _ => False := by
    have hempty : Draft.Collected { seed := spec.seed } fun _ => False := ⟨by simp, by simp⟩
    exact hempty.congr (composer.sameChoices_startingDraft spec)
  suffices key : ∀ (entries : List BibleEntry) (asked : ReferenceImageInput → Prop) (a b : Draft),
      a.Collected asked → entries.foldlM (composer.addEntry lib) a = .ok b →
        b.Collected fun reference => asked reference ∨ ∃ entry ∈ entries, reference ∈ entry.references by
    have hfinal := (key _ _ _ _ hstart hentries).congr (@Draft.sameChoices_finishDraft lib spec draft)
    rw [PromptComposer.resolvedReferences_composed, hfinal.listed, false_or]
  intro entries
  induction entries with
  | nil =>
    rintro asked a b ha ⟨rfl⟩
    simpa using ha
  | cons entry rest ih =>
    intro asked a b ha hfold
    obtain ⟨mid, hmid, hrest⟩ := ok_of_bind hfold
    refine (ih _ _ _ (ha.addEntry hmid) hrest).mono fun reference => ?_
    simp [or_assoc]

/-- The image of a reference is there, if it is looked for. -/
def PromptComposer.Present (composer : PromptComposer) (assetId : String) : Prop :=
  ∀ get, composer.assetRepository = some get → ∃ asset, get assetId = some asset ∧ asset.mediaType = .image

theorem resolveReferenceAsset_ok {assetId : String} (h : composer.Present assetId) (role : ReferenceRole)
    (entryName : String) : composer.resolveReferenceAsset lib assetId role entryName = .ok () := by
  unfold PromptComposer.resolveReferenceAsset
  cases hrepository : composer.assetRepository with
  | none => rfl
  | some get =>
    obtain ⟨asset, hasset, himage⟩ := h get hrepository
    simp [hasset, himage]

/-- A prompt is composed when the images are there that its entries ask for. -/
theorem compose_ok {spec : PromptSpec}
    (h : ∀ entry ∈ (composer.resolveEntries spec.bibleRefs).1, ∀ reference ∈ entry.references,
      composer.Present reference.assetId) : ∃ composed, composer.compose lib spec = .ok composed := by
  have hentry (draft : Draft) (entry : BibleEntry)
      (hmem : entry ∈ (composer.resolveEntries spec.bibleRefs).1) :
      ∃ draft', composer.addEntry lib draft entry = .ok draft' := by
    obtain ⟨mid, hmid⟩ : ∃ mid, composer.addReferences lib entry (draft.describe lib entry) = .ok mid := by
      unfold PromptComposer.addReferences
      cases hrole : entry.kind.role? with
      | none => exact ⟨_, rfl⟩
      | some role =>
        refine exists_foldlM_ok (fun draft assetId hid => ?_) _
        have hpresent : composer.Present assetId := h entry hmem (bibleReference role assetId) (by
          simp only [BibleEntry.references, hrole]
          exact List.mem_map_of_mem hid)
        unfold PromptComposer.resolveReference
        split
        · exact ⟨draft, rfl⟩
        · rw [resolveReferenceAsset_ok hpresent]
          exact ⟨_, rfl⟩
    exact ⟨_, by rw [PromptComposer.addEntry, hmid]; rfl⟩
  obtain ⟨draft, hdraft⟩ := exists_foldlM_ok hentry (composer.startingDraft spec)
  exact ⟨_, by rw [PromptComposer.compose, hdraft]; rfl⟩

end References

end CreativeStudio.Prompting
