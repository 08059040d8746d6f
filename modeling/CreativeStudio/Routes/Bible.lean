import CreativeStudio.Bible.Promotion
import CreativeStudio.Routes.Stories

/-!
# Promoting a generated asset

The route reads off an asset with what it was generated, and makes that the baseline of a bible entry. A
prompt that is composed with the entry afterwards has the seed of the asset.
-/

namespace CreativeStudio.Routes
open Data Jobs Assets Prompting Bible

/-- What `_effective_promotion_settings` returns. -/
structure PromotionSettings where
  modelId : Option String
  seed : Option ℤ := none
  params : Obj := []
  attributes : Dict String := []
  deriving DecidableEq, Repr

/-- `_effective_promotion_settings`. -/
def effectivePromotionSettings (lib : BibleLibrary) (asset : Asset) : PromotionSettings :=
  let snapshot := (asset.metadata.get? "request_snapshot").bind JsonOf.obj?
  let read (key : String) := snapshot.bind fun members => Dict.get? members key
  let composition := (asset.metadata.get? "prompt_composition").bind JsonOf.obj?
  let attributes := (composition.bind fun members => Dict.get? members "attributes").bind JsonOf.obj?
  { modelId := (((read "model_id").bind JsonOf.str?).filter (· ≠ "")).or (orNone asset.modelId)
    seed := (read "seed").bind JsonOf.int?
    params := ((read "params").bind JsonOf.obj?).getD []
    attributes := (attributes.getD []).mapValues lib.format }

/-- What the route answers: the entry, and the record of the promotion. -/
structure PromoteWinnerResponse where
  entry : Entry
  promotion : Json

/-- `history[-1] if isinstance(history, list) and history else {}`. -/
def latestPromotion (metadata : Obj) : Json :=
  match metadata.get? "promotion_history" with
  | some (.arr records) => records.getLast?.getD (.obj [])
  | _ => .obj []

/-- `promote_bible_winner`, and the directory that it leaves behind. -/
def promoteBibleWinner (lib : BibleLibrary) (assets : AssetId → Option Asset) (entryId : String) (assetId : AssetId)
    (now promotedAt : ℕ) (dir : Directory) : Except RouteError PromoteWinnerResponse × Directory :=
  match assets assetId with
  | none => (.error (.http 404 "Asset not found"), dir)
  | some asset =>
    let settings := effectivePromotionSettings lib asset
    match settings.seed with
    | none => (.error (.http 422 (s!"Asset {lib.repr asset.id} has no effective seed to lock; " ++
        "promotion requires a completed generation with a recorded seed.")), dir)
    | some seed =>
      match settings.modelId with
      | none => (.error (.http 422 s!"Asset {lib.repr asset.id} has no effective model_id to promote."), dir)
      | some modelId =>
        let promotion : Promotion := {
          assetId := asset.id
          jobId := some (toString asset.jobId)
          modelId
          seed
          params := settings.params
          attributes := settings.attributes }
        match promoteWinner lib entryId now promotedAt promotion dir with
        | (.error (.value message), dir) => (.error (.http 400 message), dir)
        | (.error e, dir) => (.error (.raised e), dir)
        | (.ok none, dir) => (.error (.http 404 "Bible entry not found"), dir)
        | (.ok (some entry), dir) => (.ok ⟨entry, latestPromotion entry.settings.metadata⟩, dir)

/-! ## What the composer makes of it -/

/-- The kind of that text. -/
def bibleKind? : String → Option BibleKind
  | "character" => some .character
  | "style" => some .style
  | "brand" => some .brand
  | "location" => some .location
  | "prop" => some .prop
  | _ => none

/-- The entry as the composer reads it. -/
def promptEntry (entry : Entry) : Option BibleEntry := (bibleKind? entry.settings.kind).map fun kind => {
  id := entry.id
  kind
  name := entry.settings.name
  promptFragment := entry.settings.promptFragment
  negativeFragment := entry.settings.negativeFragment
  tokens := entry.settings.tokens
  attributes := textMembers entry.settings.attributes
  lora := entry.settings.lora
  referenceAssetIds := entry.settings.referenceAssetIds
  seedPolicy := entry.settings.seedPolicy
  palette := entry.settings.palette
  lockedFields := entry.settings.lockedFields }

/-- The composer that reads the bible in a directory. -/
def bibleComposer (lib : BibleLibrary) (dir : Directory) (assets : Option (AssetId → Option Asset)) :
    PromptComposer where
  bibleRepository := some fun id => (get lib id dir).bind promptEntry
  assetRepository := assets

/-- The seed that an output of a job was generated with, as its metadata and the request tell. -/
def resultSeed (job : JobRecord) (metadata : Obj) : Option ℤ :=
  match metadata.get? "seed" with
  | some (.int n) => some n
  | _ => job.request.seed

/-- The metadata of an output, over those of an asset that is there. -/
def outputMetadata (source : SyncSource) (index : ℕ) (path : String) (existing : Option Asset) : Obj :=
  Dict.update (Dict.update (existing.elim [] Asset.metadata) source.metadata)
    (variationMetadataForOutput source.variations path index)

section
variable {lib : BibleLibrary} {assets : AssetId → Option Asset} {asset : Asset} {entryId : String} {assetId : AssetId}
  {now promotedAt : ℕ} {dir : Directory}

theorem snapshot_of_syncedAsset {job : JobRecord} {source : SyncSource} {index : ℕ} {path : String}
    {existing : Option Asset} (h : syncedAsset lib.toLibrary job source index path existing = .ok asset) :
    asset.metadata.get? "request_snapshot" =
      some (effectiveRequestSnapshot job (outputMetadata source index path existing)) := by
  obtain ⟨reuseCount, -, h⟩ := bind_eq_ok.mp h
  rw [← Except.ok.inj h]
  simp only [Dict.get?_set]
  rfl

/-- The route reads off a stored asset the seed that it was generated with. -/
theorem seed_effectivePromotionSettings {job : JobRecord} {source : SyncSource} {index : ℕ} {path : String}
    {existing : Option Asset} (h : syncedAsset lib.toLibrary job source index path existing = .ok asset) :
    (effectivePromotionSettings lib asset.saved).seed = resultSeed job (outputMetadata source index path existing) := by
  have hsnapshot : Dict.get? asset.saved.metadata "request_snapshot" =
      some (effectiveRequestSnapshot job (outputMetadata source index path existing)).canon := by
    rw [show asset.saved.metadata = asset.metadata.canon from rfl, Obj.get?_canon, snapshot_of_syncedAsset h]
    rfl
  have hseed (seed : Option ℤ) : JsonOf.int? (JsonOf.canon (seed.elim (.null : Json) .int)) = seed := by
    cases seed <;> rfl
  rw [← hseed (resultSeed job (outputMetadata source index path existing))]
  simp only [effectivePromotionSettings, hsnapshot, Option.bind_some, effectiveRequestSnapshot, dumpRequest,
    JsonOf.canon_obj, JsonOf.obj?, Obj.get?_canon]
  rfl

/-- What a promotion of the route leaves: the entry locks the seed of the asset. -/
theorem promoteBibleWinner_eq_ok {response : PromoteWinnerResponse}
    (h : (promoteBibleWinner lib assets entryId assetId now promotedAt dir).1 = .ok response) :
    ∃ asset, assets assetId = some asset ∧ ∃ promotion : Promotion,
      (effectivePromotionSettings lib asset).seed = some promotion.seed ∧
        promoteWinner lib entryId now promotedAt promotion dir = (.ok (some response.entry),
          (promoteBibleWinner lib assets entryId assetId now promotedAt dir).2) := by
  rw [promoteBibleWinner] at h ⊢
  cases hasset : assets assetId with
  | none =>
    rw [hasset] at h
    cases h
  | some asset =>
    rw [hasset] at h
    simp only at h ⊢
    cases hseed : (effectivePromotionSettings lib asset).seed with
    | none =>
      rw [hseed] at h
      cases h
    | some seed =>
      rw [hseed] at h
      simp only at h ⊢
      cases hmodel : (effectivePromotionSettings lib asset).modelId with
      | none =>
        rw [hmodel] at h
        cases h
      | some modelId =>
        rw [hmodel] at h
        simp only at h ⊢
        split at h
        next => cases h
        next => cases h
        next => cases h
        next entry after hpromote =>
          refine ⟨asset, rfl, ⟨asset.id, some (toString asset.jobId), modelId, seed,
            (effectivePromotionSettings lib asset).params, (effectivePromotionSettings lib asset).attributes⟩,
            hseed, ?_⟩
          rw [hpromote]
          obtain rfl := Except.ok.inj h
          rfl

theorem bibleKind?_isSome {kind : String} (h : kind ∈ bibleKinds) : (bibleKind? kind).isSome := by
  simp only [bibleKinds, List.mem_cons, List.not_mem_nil, or_false] at h
  rcases h with rfl | rfl | rfl | rfl | rfl <;> rfl

/-- A valid entry is one that the composer reads. -/
theorem exists_promptEntry {entry : Entry} (h : postInit lib entry.settings = .ok ()) :
    ∃ prompted, promptEntry entry = some prompted ∧ prompted.seedPolicy = entry.settings.seedPolicy := by
  have hkind : entry.settings.kind ∈ bibleKinds := by
    rw [postInit] at h
    split at h
    next => cases h
    next hkind => exact not_not.mp hkind
  obtain ⟨kind, hsome⟩ := Option.isSome_iff_exists.mp (bibleKind?_isSome hkind)
  rw [promptEntry, hsome]
  exact ⟨_, rfl, rfl⟩

/-- The only value that is found is the one that is there. -/
theorem findSome?_eq_of_unique {α β : Type} {f : α → Option β} {items : List α} {item : α} {value : β}
    (hitem : item ∈ items) (hvalue : f item = some value)
    (hunique : ∀ other ∈ items, ∀ found, f other = some found → found = value) :
    items.findSome? f = some value := by
  have hsome : (items.findSome? f).isSome := by
    rw [List.findSome?_isSome_iff]
    exact ⟨item, hitem, by rw [hvalue]; rfl⟩
  obtain ⟨found, hfound⟩ := Option.isSome_iff_exists.mp hsome
  obtain ⟨other, hother, hfother⟩ := List.exists_of_findSome?_eq_some hfound
  rw [hfound, hunique other hother found hfother]

/-- An entry that locks a seed is read with that seed. -/
theorem lockedSeed_of_save {entry : Entry} {seed : ℤ} (hvalid : postInit lib entry.settings = .ok ())
    (hpolicy : entry.settings.seedPolicy = [("mode", .str "locked"), ("seed", .int seed)]) :
    ∃ prompted, (get lib entry.id (save lib entry dir)).bind promptEntry = some prompted ∧
      prompted.lockedSeed = some seed := by
  have hsaved : postInit lib entry.saved.settings = .ok () := postInit_saved hvalid
  obtain ⟨prompted, hprompted, hkept⟩ := exists_promptEntry hsaved
  refine ⟨prompted, ?_, ?_⟩
  · rw [get_save hvalid, Option.bind_some, hprompted]
  · have hcanon : prompted.seedPolicy = Obj.canon entry.settings.seedPolicy := hkept
    rw [BibleEntry.lockedSeed, hcanon, hpolicy]
    simp only [Obj.get?_canon]
    rfl

/-- The entry that a promotion leaves is read with the seed of the promotion. -/
theorem lockedSeed_promoted {promotion : Promotion} {entry : Entry} {after : Directory} (hdir : Sound lib dir)
    (h : promoteWinner lib entryId now promotedAt promotion dir = (.ok (some entry), after)) :
    ∃ prompted, (get lib entryId after).bind promptEntry = some prompted ∧
      prompted.lockedSeed = some promotion.seed := by
  rcases @promoteWinner_cases lib entryId now promotedAt promotion dir with ⟨-, heq⟩ | ⟨before, hget, ⟨e, heq⟩ |
    ⟨history, hhistory, heq⟩⟩
  · rw [heq] at h
    cases h
  · rw [heq] at h
    cases h
  · rw [heq] at h
    rcases @update_cases lib entryId now (promotedChanges lib promotedAt promotion before.settings history) dir with
      ⟨-, hupdate⟩ | ⟨found, hfound, ⟨e, hupdate⟩ | ⟨hsame, -⟩ | ⟨-, hvalid, hupdate⟩⟩
    · rw [hupdate] at h
      cases h
    · rw [hupdate] at h
      cases h
    · rw [hget, Option.some.injEq] at hfound
      rw [← hfound, unchanged_promoted promotedAt promotion hhistory] at hsame
      cases hsame
    · rw [hget, Option.some.injEq] at hfound
      subst hfound
      rw [hupdate] at h
      obtain ⟨hentry, hafter⟩ := Prod.mk.inj h
      obtain rfl := Option.some.inj (Except.ok.inj hentry)
      obtain rfl := (hdir.get hget).1
      rw [← hafter]
      exact @lockedSeed_of_save lib dir { before with
        settings := (promotedChanges lib promotedAt promotion before.settings history).apply before.settings
        updatedAt := now } promotion.seed hvalid rfl

/-- **A promotion pins the seed that an asset was generated with.** Whatever the bible holds, once the route has
promoted an output of a job into an entry, every prompt composed with that entry, and with no other entry that
locks a seed, has the seed of the output. -/
theorem seed_of_promoted {ops : List Op} {job : JobRecord} {source : SyncSource} {index : ℕ} {path : String}
    {existing : Option Asset} (hsync : syncedAsset lib.toLibrary job source index path existing = .ok asset)
    (hstored : assets assetId = some asset.saved) {response : PromoteWinnerResponse} {after : Directory}
    (hroute : promoteBibleWinner lib assets entryId assetId now promotedAt (run lib ops []) = (.ok response, after))
    {stores : Option (AssetId → Option Asset)} {spec : PromptSpec} {composed : ComposedPrompt}
    (hlisted : entryId ∈ spec.bibleRefs)
    (hothers : ∀ other ∈ spec.bibleRefs, other ≠ entryId → ∀ entry,
      ((get lib other after).bind promptEntry) = some entry → entry.lockedSeed = none)
    (hcompose : (bibleComposer lib after stores).compose lib.toPromptLibrary spec = .ok composed) :
    composed.seed = resultSeed job (outputMetadata source index path existing) := by
  have hdir : Sound lib (run lib ops []) := sound_run ops sound_nil
  have hok : (promoteBibleWinner lib assets entryId assetId now promotedAt (run lib ops [])).1 = .ok response := by
    rw [hroute]
  obtain ⟨promoted, hpromoted, promotion, hseed, hpromote⟩ := promoteBibleWinner_eq_ok hok
  rw [hstored, Option.some.injEq] at hpromoted
  rw [← hpromoted, seed_effectivePromotionSettings hsync] at hseed
  rw [hroute] at hpromote
  obtain ⟨prompted, hprompted, hlocked⟩ := lockedSeed_promoted hdir hpromote
  have hmem (other : BibleEntry) : other ∈ ((bibleComposer lib after stores).resolveEntries spec.bibleRefs).1 ↔
      ∃ id ∈ spec.bibleRefs, (get lib id after).bind promptEntry = some other := by
    have hne : spec.bibleRefs.isEmpty = false := by
      cases hrefs : spec.bibleRefs with
      | nil =>
        rw [hrefs] at hlisted
        cases hlisted
      | cons first rest => rfl
    simp only [PromptComposer.resolveEntries, hne, bibleComposer, Bool.false_eq_true, if_false]
    rw [List.mem_insertionSort, List.mem_filterMap]
  have hlock : (bibleComposer lib after stores).lockedSeed spec.bibleRefs = some promotion.seed := by
    rw [PromptComposer.lockedSeed]
    refine findSome?_eq_of_unique ((hmem prompted).mpr ⟨entryId, hlisted, hprompted⟩) hlocked ?_
    intro other hother found hfound
    obtain ⟨id, hid, hget⟩ := (hmem other).mp hother
    by_cases hsame : id = entryId
    · rw [hsame, hprompted, Option.some.injEq] at hget
      rw [← hget, hlocked, Option.some.injEq] at hfound
      exact hfound.symm
    · rw [hothers id hid hsame other hget] at hfound
      cases hfound
  rw [seed_of_compose hcompose, hlock, hseed]
  rfl

end

/-- A job that asked for no seed. -/
def drawnJob : JobRecord where
  id := 1
  projectId := none
  mediaType := .image
  status := .succeeded
  request := ⟨.image, none, "Mia", none, "sdxl", none, none, [], []⟩
  createdAt := 0
  updatedAt := 0

/-- Its output, and the seed that was drawn for it. -/
def drawnSource : SyncSource where
  outputs := ["mia.png"]
  previews := []
  metadata := [("seed", .int 7)]
  variations := []
  fallbackPreview := none

/-- One character. -/
def miaCreated : List Op := [.create "mia" 1 { kind := "character", name := "Mia" }]

/-- The output is promoted into the entry of the character. -/
def promotedMia (asset : Asset) : Except RouteError PromoteWinnerResponse × Directory :=
  promoteBibleWinner .plain (fun _ => some asset.saved) "mia" asset.id 2 2 (run .plain miaCreated [])

theorem seed_of_promoted_mia : ∃ composed, composed.seed = some 7 ∧ ∃ after,
    (bibleComposer .plain after none).compose PromptLibrary.plain { bibleRefs := ["mia"], seed := some 3 } =
      .ok composed := by
  have hsync : ∃ asset, syncedAsset BibleLibrary.plain.toLibrary drawnJob drawnSource 0 "mia.png" none = .ok asset :=
    ⟨_, rfl⟩
  obtain ⟨asset, hasset⟩ := hsync
  have hanswers : (promotedMia asset).1.toOption.isSome := by
    cases hasset
    decide +kernel
  have hcomposes : ((bibleComposer .plain (promotedMia asset).2 none).compose PromptLibrary.plain
      { bibleRefs := ["mia"], seed := some 3 }).toOption.isSome := by
    cases hasset
    decide +kernel
  obtain ⟨response, hresponse⟩ := Option.isSome_iff_exists.mp hanswers
  obtain ⟨composed, hcomposed⟩ := Option.isSome_iff_exists.mp hcomposes
  have hroute : promotedMia asset = (.ok response, (promotedMia asset).2) := Prod.ext (ok_of_toOption hresponse) rfl
  have hcompose := ok_of_toOption hcomposed
  have hothers : ∀ other ∈ ["mia"], other ≠ "mia" → ∀ entry,
      (get .plain other (promotedMia asset).2).bind promptEntry = some entry → entry.lockedSeed = none :=
    fun other hother hne => absurd (List.mem_singleton.mp hother) hne
  refine ⟨composed, ?_, _, hcompose⟩
  exact @seed_of_promoted .plain (fun _ => some asset.saved) asset "mia" asset.id 2 2 miaCreated drawnJob drawnSource 0
    "mia.png" none hasset rfl response _ hroute none _ composed (List.mem_singleton_self "mia") hothers hcompose

end CreativeStudio.Routes
