import CreativeStudio.Batches.Refine

/-!
# The fan-out of a spec

The first stage of a spec has one item for each combination of axis values. Items are
built in the order of the combinations, sorted by model, and numbered again: the sort is
stable, so the items of one model stay in the order of the declared axes, and a seed
that is counted from an index is counted from the last one. `fansOut` says what comes
out, for the whole grid and for a sample of it.
-/

namespace CreativeStudio.Batches
open Data Jobs

/-! ## The order of items -/

instance : Std.Total modelOrder where
  total a b := by
    unfold modelOrder
    rcases lt_trichotomy a.request.modelId b.request.modelId with h | h | h
    · exact .inl (.inl h)
    · rcases le_total a.index b.index with hindex | hindex
      · exact .inl (.inr ⟨h, hindex⟩)
      · exact .inr (.inr ⟨h.symm, hindex⟩)
    · exact .inr (.inl h)

instance : IsTrans BatchItem modelOrder where
  trans a b c := by
    rintro (hab | ⟨hab, hindex⟩) (hbc | ⟨hbc, hindex'⟩)
    · exact .inl (hab.trans hbc)
    · exact .inl (hbc ▸ hab)
    · exact .inl (hab ▸ hbc)
    · exact .inr ⟨hab.trans hbc, hindex.trans hindex'⟩

/-- Items that are built position by position. -/
def Numbered (items : List BatchItem) : Prop := items.map BatchItem.index = List.range items.length

theorem Numbered.pairwise {items : List BatchItem} (h : Numbered items) :
    items.Pairwise fun a b => a.index < b.index := by
  rw [← List.pairwise_map, h]
  exact List.pairwise_lt_range

/-- The items of one model come out of the sort in the order they went in. -/
theorem filter_insertionSort {items : List BatchItem} (h : Numbered items) (modelId : String) :
    (items.insertionSort modelOrder).filter (fun item => item.request.modelId == modelId) =
      items.filter fun item => item.request.modelId == modelId := by
  have hsorted : (items.filter fun item => item.request.modelId == modelId).Pairwise modelOrder := by
    refine (h.pairwise.filter _).imp_of_mem fun ha hb hindex => .inr ⟨?_, hindex.le⟩
    rw [beq_iff_eq.mp (List.mem_filter.mp ha).2, beq_iff_eq.mp (List.mem_filter.mp hb).2]
  have hsublist := List.sublist_insertionSort hsorted List.filter_sublist
  have hfiltered := hsublist.filter fun item => item.request.modelId == modelId
  rw [List.filter_filter] at hfiltered
  simp only [Bool.and_self] at hfiltered
  refine (hfiltered.eq_of_length ?_).symm
  exact ((List.perm_insertionSort modelOrder items).filter _).length_eq.symm

/-! ## The items of a list of combinations -/

/-- The items of a list of combinations, in the order and with the seeds they run with. -/
def expandCombinations (lib : Library) (spec : BatchSpec) (stage : Stage) (stageIndex : ℕ)
    (idPrefix : String) (combos : List AxisLabels) : Except Exc (List BatchItem) :=
  (buildItems lib spec stage stageIndex idPrefix 0 (combos.map fun c => (c, none))).map fun items =>
    ((items.insertionSort modelOrder).zipIdx).map fun c => reindex spec (reseeds spec none) c.1 c.2

theorem expandItems_none (lib : Library) (spec : BatchSpec) (stage : Stage) (stageIndex : ℕ)
    (idPrefix : String) :
    expandItems lib spec stage stageIndex none idPrefix =
      (combinations lib spec).bind (expandCombinations lib spec stage stageIndex idPrefix) := by
  rw [expandItems_eq, seededCombinations]
  cases combinations lib spec <;> rfl

/-- What the last of these patch entries under a key sets it to. -/
def lastValue (key : String) (entries : List (String × Json)) : Option Json :=
  ((entries.filter fun entry => entry.1 == key).getLast?).map Prod.snd

/-- The items of a stage over a list of combinations: one for each, numbered in the order
they run in. -/
structure FanOut (lib : Library) (spec : BatchSpec) (stage : Stage) (combos : List AxisLabels)
    (items : List BatchItem) : Prop where
  /-- No combination is lost or repeated. -/
  cells : (items.map BatchItem.axisValues).Perm combos
  distinct : (items.map BatchItem.axisValues).Nodup
  ids : (items.map BatchItem.id).Nodup
  indexes : items.map BatchItem.index = List.range items.length
  models : (items.map fun item => item.request.modelId).Pairwise (· ≤ ·)
  /-- The items of one model run in the order of the declared axes. -/
  declared : ∀ modelId,
    ((items.filter fun item => item.request.modelId == modelId).map BatchItem.axisValues).Sublist combos
  /-- All but the seed of a request comes from the patches of its cell. -/
  requests : ∀ item ∈ items, ∃ r, patchedRequest lib spec item.axisValues = .ok r ∧
    item.request = { r with
      seed := item.request.seed, params := finishParams spec item.axisValues stage r.params }
  counted : spec.seedPolicy = .perItem ∨ spec.seedPolicy = .sweep → ∀ item ∈ items,
    lastValue "seed" (chosenEntries spec item.axisValues) = none →
      item.request.seed = some (spec.seed.getD 0 + item.index)
  patched : spec.seedPolicy = .perItem ∨ spec.seedPolicy = .sweep → ∀ item ∈ items, ∀ value,
    lastValue "seed" (chosenEntries spec item.axisValues) = some value →
      readOptInt lib value = some item.request.seed

/-! ### Seeds -/

@[simp] theorem lastValue_nil (key : String) : lastValue key [] = none := rfl

theorem lastValue_cons (key : String) (entry : String × Json) (rest : List (String × Json)) :
    lastValue key (entry :: rest) =
      (lastValue key rest).or (if entry.1 == key then some entry.2 else none) := by
  unfold lastValue
  by_cases hkey : (entry.1 == key) = true
  · rw [List.filter_cons, if_pos hkey, List.getLast?_cons, if_pos hkey]
    cases (rest.filter fun entry => entry.1 == key).getLast? <;> rfl
  · rw [List.filter_cons, if_neg hkey, if_neg hkey, Option.or_none]

theorem mem_of_lookup {table : List (String × Field)} {key : String} {field : Field}
    (h : table.lookup key = some field) : (key, field) ∈ table := by
  obtain ⟨before, after, happend, -⟩ := List.lookup_eq_some_iff.mp h
  simp [happend]

/-- A top-level field has one key, which is not a key that appends. -/
theorem topLevelKeys_inj {key key' : String} {field : Field} (h : topLevelKeys.lookup key = some field)
    (h' : topLevelKeys.lookup key' = some field) : key = key' := by
  have htable : ∀ a ∈ topLevelKeys, ∀ b ∈ topLevelKeys, a.2 = b.2 → a.1 = b.1 := by decide
  exact htable _ (mem_of_lookup h) _ (mem_of_lookup h') rfl

theorem not_appends_of_topLevel {key : String} {field : Field} (h : topLevelKeys.lookup key = some field) :
    patchAppendKeys.lookup key = none := by
  have htable : ∀ a ∈ topLevelKeys, patchAppendKeys.lookup a.1 = none := by decide
  exact htable _ (mem_of_lookup h)

/-- Only the prompts are appended to. -/
theorem writeField_of_topLevel (lib : Library) {key : String} {field : Field}
    (htop : topLevelKeys.lookup key = some field) (hprompt : field ≠ .prompt ∧ field ≠ .negativePrompt)
    (value : Json) (entry : String × Json) :
    writeField lib field value entry = if entry.1 == key then entry.2 else value := by
  unfold writeField
  by_cases hkey : (entry.1 == key) = true
  · rw [if_pos hkey, beq_iff_eq.mp hkey, not_appends_of_topLevel htop]
    simp [htop]
  · rw [if_neg hkey]
    cases happend : patchAppendKeys.lookup entry.1 with
    | some target =>
      have htable : ∀ a ∈ patchAppendKeys, a.2 = .prompt ∨ a.2 = .negativePrompt := by decide
      have hne : field ≠ target := by
        rcases htable _ (mem_of_lookup happend) with rfl | rfl
        · exact hprompt.1
        · exact hprompt.2
      simp [hne]
    | none =>
      have hother : topLevelKeys.lookup entry.1 ≠ some field := fun hother =>
        hkey (beq_iff_eq.mpr (topLevelKeys_inj hother htop))
      simp [hother]

/-- The last entry under its key decides a field that is not appended to. -/
theorem settledField_of_topLevel (lib : Library) {key : String} {field : Field}
    (htop : topLevelKeys.lookup key = some field) (hprompt : field ≠ .prompt ∧ field ≠ .negativePrompt)
    (initial : Json) (entries : List (String × Json)) :
    settledField lib field initial entries = (lastValue key entries).getD initial := by
  induction entries generalizing initial with
  | nil => rfl
  | cons entry rest ih =>
    have hrest := ih (if entry.1 == key then entry.2 else initial)
    rw [settledField] at hrest
    rw [settledField, List.foldl_cons, writeField_of_topLevel lib htop hprompt, hrest, lastValue_cons]
    cases lastValue key rest with
    | some value => rfl
    | none => by_cases hkey : (entry.1 == key) = true <;> simp [hkey]

theorem axisValuesPatchSeed_iff (spec : BatchSpec) (axisValues : AxisLabels) :
    axisValuesPatchSeed spec axisValues = (lastValue "seed" (chosenEntries spec axisValues)).isSome := by
  unfold axisValuesPatchSeed
  induction chosenEntries spec axisValues with
  | nil => rfl
  | cons entry rest ih =>
    rw [List.any_cons, ih, lastValue_cons]
    cases lastValue "seed" rest with
    | some value => simp
    | none => by_cases hkey : (entry.1 == "seed") = true <;> simp [hkey]

theorem readOptInt_of_patchedRequest {lib : Library} {spec : BatchSpec} {axisValues : AxisLabels}
    {r : GenerationRequest} (h : patchedRequest lib spec axisValues = .ok r) :
    readOptInt lib (settledField lib .seed .null (chosenEntries spec axisValues)) = some r.seed := by
  rw [patchedRequest_eq lib (not_setsLocked_of_patchedRequest h), readPayload] at h
  split at h
  next request hread =>
    obtain rfl := Except.ok.inj h
    exact (readFields_eq_some hread).2.2.2
  next => cases h

/-! ### Positions -/

section Built
variable {lib : Library} {spec : BatchSpec} {stage : Stage} {stageIndex : ℕ} {idPrefix : String}
  {seeded : List (AxisLabels × Option ℤ)} {built : List BatchItem}

theorem numbered_of_buildItems
    (h : buildItems lib spec stage stageIndex idPrefix 0 seeded = .ok built) : Numbered built := by
  obtain ⟨hlen, hbuild⟩ := buildItems_getElem h
  refine List.ext_getElem (by simp) fun n hn hn' => ?_
  simp only [List.length_map] at hn
  obtain ⟨request, -, heq⟩ := buildItem_eq_ok (hbuild n (hlen ▸ hn) hn)
  rw [List.getElem_map, heq, List.getElem_range]

theorem axisValues_of_buildItems
    (h : buildItems lib spec stage stageIndex idPrefix 0 seeded = .ok built) :
    built.map BatchItem.axisValues = seeded.map fun c => Dict.ofPairs c.1 := by
  obtain ⟨hlen, hbuild⟩ := buildItems_getElem h
  refine List.ext_getElem (by simp [hlen]) fun n hn hn' => ?_
  simp only [List.length_map] at hn
  obtain ⟨request, -, heq⟩ := buildItem_eq_ok (hbuild n (hlen ▸ hn) hn)
  rw [List.getElem_map, heq, List.getElem_map]

/-- What the patches of its cell leave in an item's request. -/
theorem request_of_buildItems
    (h : buildItems lib spec stage stageIndex idPrefix 0 seeded = .ok built) {item : BatchItem}
    (hitem : item ∈ built) :
    ∃ r, patchedRequest lib spec item.axisValues = .ok r ∧
      (axisValuesPatchSeed spec item.axisValues = true → item.request.seed = r.seed) ∧
      item.request = { r with
        seed := item.request.seed, params := finishParams spec item.axisValues stage r.params } := by
  obtain ⟨hlen, hbuild⟩ := buildItems_getElem h
  obtain ⟨n, hn, rfl⟩ := List.mem_iff_getElem.mp hitem
  obtain ⟨request, hrequest, heq⟩ := buildItem_eq_ok (hbuild n (hlen ▸ hn) hn)
  rw [buildRequest_eq] at hrequest
  rw [heq]
  cases hp : patchedRequest lib spec (Dict.ofPairs seeded[n].1) with
  | error e => rw [hp] at hrequest; cases hrequest
  | ok r =>
    rw [hp] at hrequest
    obtain rfl := Except.ok.inj hrequest
    exact ⟨r, rfl, fun hseed => by simp [hseed], rfl⟩

end Built

section Reindexed
variable {spec : BatchSpec} {reseed : Bool} {α : Type} {f : BatchItem → α}

@[simp] theorem index_reindex (spec : BatchSpec) (reseed : Bool) (item : BatchItem) (order : ℕ) :
    (reindex spec reseed item order).index = order := by
  unfold reindex; split <;> rfl

@[simp] theorem modelId_reindex (spec : BatchSpec) (reseed : Bool) (item : BatchItem) (order : ℕ) :
    (reindex spec reseed item order).request.modelId = item.request.modelId := by
  unfold reindex; split <;> rfl

/-- The request keeps all but its seed. -/
theorem request_reindex (spec : BatchSpec) (reseed : Bool) (item : BatchItem) (order : ℕ) :
    (reindex spec reseed item order).request =
      { item.request with seed := (reindex spec reseed item order).request.seed } := by
  unfold reindex; split <;> rfl

theorem seed_reindex (spec : BatchSpec) (reseed : Bool) (item : BatchItem) (order : ℕ) :
    (reindex spec reseed item order).request.seed =
      if reseed && !axisValuesPatchSeed spec item.axisValues then resolveSeed spec order
      else item.request.seed := by
  unfold reindex; split <;> rfl

/-- What the numbering leaves alone is as it was. -/
theorem map_reindexed (hf : ∀ item order, f (reindex spec reseed item order) = f item)
    (items : List BatchItem) :
    (items.zipIdx.map fun c => reindex spec reseed c.1 c.2).map f = items.map f := by
  have hcomp : (f ∘ fun c : BatchItem × ℕ => reindex spec reseed c.1 c.2) = f ∘ Prod.fst := by
    funext c
    exact hf c.1 c.2
  rw [List.map_map, hcomp, ← List.map_map, List.zipIdx_map_fst]

theorem indexes_reindexed (items : List BatchItem) :
    (items.zipIdx.map fun c => reindex spec reseed c.1 c.2).map BatchItem.index =
      List.range items.length := by
  have hcomp : (BatchItem.index ∘ fun c : BatchItem × ℕ => reindex spec reseed c.1 c.2) = Prod.snd := by
    funext c
    exact index_reindex spec reseed c.1 c.2
  rw [List.map_map, hcomp, List.zipIdx_map_snd, List.range_eq_range']

/-- The cells of the items of one model. -/
theorem filter_reindexed (items : List BatchItem) (modelId : String) :
    ((items.zipIdx.map fun c => reindex spec reseed c.1 c.2).filter
        fun item => item.request.modelId == modelId).map BatchItem.axisValues =
      (items.filter fun item => item.request.modelId == modelId).map BatchItem.axisValues := by
  have hpairs : (items.zipIdx.map fun c => reindex spec reseed c.1 c.2).map
      (fun item => (item.request.modelId, item.axisValues)) =
        items.map fun item => (item.request.modelId, item.axisValues) := map_reindexed (by simp) items
  have hfilter : ∀ l : List BatchItem,
      (l.filter fun item => item.request.modelId == modelId).map BatchItem.axisValues =
        ((l.map fun item => (item.request.modelId, item.axisValues)).filter
          fun c => c.1 == modelId).map Prod.snd := by
    intro l
    rw [List.filter_map, List.map_map]
    rfl
  rw [hfilter, hfilter, hpairs]

end Reindexed

/-! ## What a fan-out returns -/

section FanOut
variable {lib : Library} {spec : BatchSpec} {stage : Stage} {stageIndex : ℕ} {idPrefix : String}
  {combos : List AxisLabels} {items : List BatchItem}

theorem fanOut_of_expandCombinations (hcombos : combos.Nodup)
    (hnames : ∀ c ∈ combos, (c.map Prod.fst).Nodup)
    (h : expandCombinations lib spec stage stageIndex idPrefix combos = .ok items)
    (hexpand : expandItems lib spec stage stageIndex none idPrefix = .ok items) :
    FanOut lib spec stage combos items := by
  unfold expandCombinations at h
  cases hbuilt : buildItems lib spec stage stageIndex idPrefix 0 (combos.map fun c => (c, none)) with
  | error e => rw [hbuilt] at h; cases h
  | ok built =>
    rw [hbuilt] at h
    obtain rfl := Except.ok.inj h
    have hnumbered := numbered_of_buildItems hbuilt
    have hcells : built.map BatchItem.axisValues = combos := by
      rw [axisValues_of_buildItems hbuilt, List.map_map]
      calc combos.map _ = combos.map id := List.map_congr_left fun c hc => Dict.ofPairs_of_nodup (hnames c hc)
        _ = combos := List.map_id combos
    have hperm := List.perm_insertionSort modelOrder built
    have haxes : (((built.insertionSort modelOrder).zipIdx.map fun c =>
        reindex spec (reseeds spec none) c.1 c.2).map BatchItem.axisValues).Perm combos := by
      rw [map_reindexed (by simp)]
      exact (hperm.map _).trans (.of_eq hcells)
    refine ⟨haxes, haxes.nodup_iff.mpr hcombos, nodup_ids hexpand, ?_, ?_, ?_, ?_, ?_, ?_⟩
    · rw [indexes_reindexed]
      simp
    · rw [map_reindexed (by simp), List.pairwise_map]
      refine (List.pairwise_insertionSort modelOrder built).imp ?_
      rintro a b (hlt | ⟨heq, -⟩)
      · exact hlt.le
      · exact heq.le
    · intro modelId
      rw [filter_reindexed, filter_insertionSort hnumbered]
      exact hcells ▸ List.filter_sublist.map _
    · intro item hitem
      obtain ⟨b, hb, order, rfl⟩ := mem_reindexed hitem
      obtain ⟨r, hr, -, hrequest⟩ := request_of_buildItems hbuilt hb
      refine ⟨r, by simpa using hr, ?_⟩
      rw [axisValues_reindex, request_reindex]
      simp only []
      rw [hrequest]
    · intro hpolicy item hitem hseed
      obtain ⟨b, hb, order, rfl⟩ := mem_reindexed hitem
      rw [axisValues_reindex] at hseed
      have hreseeds : reseeds spec none = true := by
        rcases hpolicy with hpolicy | hpolicy <;> simp [reseeds, hpolicy]
      rw [seed_reindex, hreseeds, axisValuesPatchSeed_iff, hseed, index_reindex]
      rcases hpolicy with hpolicy | hpolicy <;> simp [resolveSeed, hpolicy]
    · intro _ item hitem value hvalue
      obtain ⟨b, hb, order, rfl⟩ := mem_reindexed hitem
      rw [axisValues_reindex] at hvalue
      have hpatched : axisValuesPatchSeed spec b.axisValues = true := by
        rw [axisValuesPatchSeed_iff, hvalue]; rfl
      obtain ⟨r, hr, hseed, -⟩ := request_of_buildItems hbuilt hb
      have hread := readOptInt_of_patchedRequest hr
      rw [seed_reindex, hpatched, hseed hpatched]
      have htop : topLevelKeys.lookup "seed" = some .seed := by decide
      rw [settledField_of_topLevel lib htop (by simp), hvalue] at hread
      simpa using hread

end FanOut

/-! ## The combinations of a spec -/

theorem length_product (axes : List Axis) :
    (product axes).length = (axes.map fun axis => axis.values.length).prod := by
  induction axes with
  | nil => rfl
  | cons axis rest ih => simp [product, List.length_flatMap, ih]

theorem names_of_mem_product {axes : List Axis} {combination : AxisLabels}
    (h : combination ∈ product axes) : combination.map Prod.fst = axes.map Axis.name := by
  induction axes generalizing combination with
  | nil =>
    obtain rfl := List.mem_singleton.mp h
    rfl
  | cons axis rest ih =>
    obtain ⟨value, -, hmem⟩ := List.mem_flatMap.mp h
    obtain ⟨labels, hlabels, rfl⟩ := List.mem_map.mp hmem
    simp [ih hlabels]

/-- Labels that tell the values of an axis apart tell its combinations apart. -/
theorem nodup_product {axes : List Axis} (h : ∀ axis ∈ axes, axis.Valid) : (product axes).Nodup := by
  induction axes with
  | nil => simp [product]
  | cons axis rest ih =>
    have hrest := ih fun axis' haxis' => h axis' (List.mem_cons_of_mem _ haxis')
    have hlabels := (h axis List.mem_cons_self).labels_nodup
    refine List.nodup_flatMap.mpr ⟨fun value _ => hrest.map fun a b hab => (List.cons.inj hab).2, ?_⟩
    refine (List.pairwise_map.mp hlabels).imp fun hne => ?_
    intro labels ha hb
    obtain ⟨_, -, rfl⟩ := List.mem_map.mp ha
    obtain ⟨_, -, heq⟩ := List.mem_map.mp hb
    exact hne (Prod.ext_iff.mp (List.cons.inj heq).1).2.symm

theorem pick_range (all : List AxisLabels) :
    (List.range all.length).filterMap (fun i => all[i]?) = all := by
  induction all with
  | nil => rfl
  | cons combination rest ih =>
    rw [List.length_cons, List.range_succ_eq_map, List.filterMap_cons, List.filterMap_map]
    simpa [Function.comp_def] using ih

/-- Picking at increasing positions picks in order. -/
theorem pick_sublist (all : List AxisLabels) {positions : List ℕ}
    (hsorted : positions.Pairwise (· ≤ ·)) (hnodup : positions.Nodup)
    (hlt : ∀ i ∈ positions, i < all.length) :
    (positions.filterMap fun i => all[i]?).Sublist all := by
  have hsubset : positions.Subperm (List.range all.length) :=
    List.subperm_of_subset hnodup fun i hi => List.mem_range.mpr (hlt i hi)
  have hsublist := List.sublist_of_subperm_of_pairwise hsubset hsorted List.pairwise_le_range
  have hpicked := hsublist.filterMap fun i => all[i]?
  rwa [pick_range] at hpicked

theorem length_pick (all : List AxisLabels) {positions : List ℕ} (hlt : ∀ i ∈ positions, i < all.length) :
    (positions.filterMap fun i => all[i]?).length = positions.length := by
  rw [List.length_filterMap_eq_countP, List.countP_eq_length]
  intro i hi
  simp [List.getElem?_eq_getElem (hlt i hi)]

/-- A sample is a choice of so many combinations of the grid, in the grid's order. -/
theorem chooseCombinations_of_sample (lib : Library) {spec : BatchSpec} {maxItems : ℕ}
    (hstrategy : spec.strategy = .sample) (hmax : spec.maxItems = some maxItems) (all : List AxisLabels) :
    ∃ chosen, chooseCombinations lib spec all = .ok chosen ∧ chosen.Sublist all ∧
      chosen.length = min maxItems all.length := by
  unfold chooseCombinations
  rw [hstrategy, hmax]
  simp only []
  split
  next hlt =>
    have hperm := List.perm_insertionSort (· ≤ ·) (lib.sample spec.sampleSeed all.length maxItems)
    have hbound : ∀ i ∈ (lib.sample spec.sampleSeed all.length maxItems).insertionSort (· ≤ ·),
        i < all.length := fun i hi => lib.sample_lt _ _ _ i (hperm.mem_iff.mp hi)
    refine ⟨_, rfl, pick_sublist all (List.pairwise_insertionSort _ _) ?_ hbound, ?_⟩
    · exact hperm.nodup_iff.mpr (lib.sample_nodup _ _ _)
    · rw [length_pick all hbound, hperm.length_eq, lib.sample_length _ _ _ hlt.le]
      omega
  next hge => exact ⟨all, rfl, List.Sublist.refl all, by omega⟩

/-! ## How an expansion ends -/

/-- How the first stage ends over a list of combinations. -/
inductive FansOut (lib : Library) (spec : BatchSpec) (stage : Stage) (stageIndex : ℕ)
    (idPrefix : String) (combos : List AxisLabels) : Prop
  /-- There are more than the limit allows. -/
  | tooMany (hlimit : spec.limit < combos.length) (e : Exc)
      (hraises : expandItems lib spec stage stageIndex none idPrefix = .error e)
  /-- The patches of some combination do not make a request. -/
  | rejected (combination : AxisLabels) (hcombination : combination ∈ combos) (e e' : Exc)
      (hpatches : patchedRequest lib spec combination = .error e)
      (hraises : expandItems lib spec stage stageIndex none idPrefix = .error e')
  | expanded (hlimit : combos.length ≤ spec.limit)
      (hpatches : ∀ c ∈ combos, ∃ r, patchedRequest lib spec c = .ok r) (items : List BatchItem)
      (hreturns : expandItems lib spec stage stageIndex none idPrefix = .ok items)
      (hfanOut : FanOut lib spec stage combos items)

section FansOut
variable {lib : Library} {spec : BatchSpec} {combos : List AxisLabels}

/-- A stage expands when the patches of every combination make a request. -/
theorem expandCombinations_cases (lib : Library) (spec : BatchSpec)
    (hnames : ∀ c ∈ combos, (c.map Prod.fst).Nodup) (stage : Stage) (stageIndex : ℕ) (idPrefix : String) :
    (∃ c ∈ combos, ∃ e, patchedRequest lib spec c = .error e) ∧
        (∃ e, expandCombinations lib spec stage stageIndex idPrefix combos = .error e) ∨
      (∀ c ∈ combos, ∃ r, patchedRequest lib spec c = .ok r) ∧
        ∃ items, expandCombinations lib spec stage stageIndex idPrefix combos = .ok items := by
  unfold expandCombinations
  by_cases hall : ∀ c ∈ combos, ∃ r, patchedRequest lib spec c = .ok r
  · have hseeded : ∀ c ∈ combos.map fun c => (c, (none : Option ℤ)),
        ∃ r, patchedRequest lib spec (Dict.ofPairs c.1) = .ok r := by
      intro c hc
      obtain ⟨combination, hcombination, rfl⟩ := List.mem_map.mp hc
      simpa [Dict.ofPairs_of_nodup (hnames _ hcombination)] using hall _ hcombination
    obtain ⟨built, hbuilt⟩ := exists_buildItems stage stageIndex idPrefix 0 hseeded
    rw [hbuilt]
    exact .inr ⟨hall, _, rfl⟩
  · obtain ⟨c, hc, hnot⟩ := by simpa only [not_forall] using hall
    have herror : ∃ e, patchedRequest lib spec c = .error e := by
      cases hp : patchedRequest lib spec c with
      | error e => exact ⟨e, rfl⟩
      | ok r => exact absurd ⟨r, hp⟩ hnot
    refine .inl ⟨⟨c, hc, herror⟩, ?_⟩
    cases hbuilt : buildItems lib spec stage stageIndex idPrefix 0 (combos.map fun c => (c, none)) with
    | error e => exact ⟨e, rfl⟩
    | ok built =>
      -- an item of the combination would be a request of its patches
      have hcells := axisValues_of_buildItems hbuilt
      have hmem : Dict.ofPairs c ∈ built.map BatchItem.axisValues :=
        hcells ▸ List.mem_map.mpr ⟨(c, none), List.mem_map.mpr ⟨c, hc, rfl⟩, rfl⟩
      obtain ⟨item, hitem, haxes⟩ := List.mem_map.mp hmem
      obtain ⟨r, hr, -⟩ := request_of_buildItems hbuilt hitem
      rw [haxes, Dict.ofPairs_of_nodup (hnames c hc)] at hr
      exact absurd ⟨r, hr⟩ hnot

theorem fansOut_of_combinations (hcombos : combos.Nodup) (hnames : ∀ c ∈ combos, (c.map Prod.fst).Nodup)
    (h : combinations lib spec = if spec.limit < combos.length then
      .error (.value s!"Batch would expand to {combos.length} items, which exceeds the limit of {spec.limit}.")
      else .ok combos)
    (stage : Stage) (stageIndex : ℕ) (idPrefix : String) :
    FansOut lib spec stage stageIndex idPrefix combos := by
  have hexpand := expandItems_none lib spec stage stageIndex idPrefix
  rw [h] at hexpand
  by_cases hlimit : spec.limit < combos.length
  · rw [if_pos hlimit] at hexpand
    exact .tooMany hlimit _ hexpand
  · rw [if_neg hlimit] at hexpand
    rcases expandCombinations_cases lib spec hnames stage stageIndex idPrefix with
      ⟨⟨c, hc, e, hpatches⟩, e', hraises⟩ | ⟨hall, items, hitems⟩
    · exact .rejected c hc e e' hpatches (hexpand.trans hraises)
    · have hreturns := hexpand.trans hitems
      exact .expanded (not_lt.mp hlimit) hall items hreturns
        (fanOut_of_expandCombinations hcombos hnames hitems hreturns)

end FansOut

/-- The first stage of a valid spec runs its whole grid, or a sample of it in the grid's
order: within the limit, one item for each combination. -/
theorem fansOut (lib : Library) {spec : BatchSpec} (hvalid : spec.Valid) (stage : Stage)
    (stageIndex : ℕ) (idPrefix : String) :
    (product spec.axes).length = (spec.axes.map fun axis => axis.values.length).prod ∧
    (spec.strategy = .grid → FansOut lib spec stage stageIndex idPrefix (product spec.axes)) ∧
    ∀ maxItems, spec.strategy = .sample → spec.maxItems = some maxItems →
      ∃ chosen, chosen.Sublist (product spec.axes) ∧
        chosen.length = min maxItems (product spec.axes).length ∧
        FansOut lib spec stage stageIndex idPrefix chosen := by
  have hnames : ∀ c ∈ product spec.axes, (c.map Prod.fst).Nodup := fun c hc =>
    names_of_mem_product hc ▸ hvalid.names_nodup
  have hnodup := nodup_product hvalid.axes
  refine ⟨length_product spec.axes, fun hgrid => ?_, fun maxItems hsample hmax => ?_⟩
  · refine fansOut_of_combinations hnodup hnames ?_ stage stageIndex idPrefix
    unfold combinations
    by_cases haxes : spec.axes = []
    · have hlimit := hvalid.limit_pos
      simp [haxes, product, not_lt.mpr hlimit]
    · simp [haxes, chooseCombinations, hgrid, Except.bind]
  · obtain ⟨chosen, hchosen, hsublist, hlength⟩ :=
      chooseCombinations_of_sample lib hsample hmax (product spec.axes)
    refine ⟨chosen, hsublist, hlength, fansOut_of_combinations (hnodup.sublist hsublist)
      (fun c hc => hnames c (hsublist.subset hc)) ?_ stage stageIndex idPrefix⟩
    unfold combinations
    by_cases haxes : spec.axes = []
    · have hlimit := hvalid.limit_pos
      have hpos := hvalid.maxItems_pos maxItems hmax
      rw [haxes, product] at hsublist hlength
      obtain rfl : chosen = [[]] := hsublist.eq_of_length (by simpa using hlength.trans (by simpa using hpos))
      simp [haxes, not_lt.mpr hlimit]
    · simp [haxes, hchosen, Except.bind]

/-- Two models, one of which sets its own seed. -/
def twoModels : BatchSpec where
  name := "models"
  modelId := "sdxl"
  seed := some 100
  seedPolicy := .perItem
  axes := [
    { name := "model", values := [
      { label := "turbo", patch := [("model_id", .str "turbo"), ("seed", .int 7)] },
      { label := "flux", patch := [("model_id", .str "flux")] }] },
    { name := "tone", values := [
      { label := "warm", patch := [("prompt_suffix", .str "warm light")] },
      { label := "cold", patch := [("prompt_suffix", .str "cold light")] }] }]

theorem valid_twoModels : twoModels.Valid where
  name_ne := by decide
  axes axis haxis := by
    simp only [twoModels, List.mem_cons, List.not_mem_nil, or_false] at haxis
    rcases haxis with rfl | rfl <;> exact ⟨by decide, by decide, by simp, by decide⟩
  names_nodup := by decide
  maxItems_pos := by simp [twoModels]
  limit_pos := by decide
  stageNames_ne := by simp [twoModels]
  keepTopN_pos := by simp [twoModels]
  locks := by simp [BatchSpec.RespectsLocks, twoModels]

theorem fansOut_twoModels : twoModels.Valid ∧
    FansOut Library.plain twoModels { name := "probe" } 0 "item" (product twoModels.axes) :=
  ⟨valid_twoModels, (fansOut Library.plain valid_twoModels { name := "probe" } 0 "item").2.1 rfl⟩

/-- A valid spec whose one axis value puts a number where a request needs a text. -/
def numberedPrompt : BatchSpec where
  name := "numbers"
  axes := [{ name := "prompt", values := [{ label := "five", patch := [("prompt", .int 5)] }] }]

/-- A grid within its limit raises: its patches do not make a request. -/
theorem raises_numberedPrompt : numberedPrompt.Valid ∧ numberedPrompt.strategy = .grid ∧
    (product numberedPrompt.axes).length ≤ numberedPrompt.limit ∧
    ∃ e, expandItems Library.plain numberedPrompt { name := "probe" } 0 none "item" = .error e := by
  refine ⟨⟨by decide, fun axis haxis => ?_, by decide, by simp [numberedPrompt], by decide,
    by simp [numberedPrompt], by simp [numberedPrompt], ?_⟩, rfl, by decide, _, rfl⟩
  · obtain rfl := List.mem_singleton.mp haxis
    exact ⟨by decide, by decide, by simp, by decide⟩
  · simp [BatchSpec.RespectsLocks, numberedPrompt]

end CreativeStudio.Batches
