import CreativeStudio.Batches.Records

/-!
# Whether a batch can get stuck

A batch whose items are all terminal should have a final status or go on to its next
stage. `Reached` collects the records that creation, outcomes of child jobs and stage
advances lead to, without cancellation. The status counts successes over all stages and
the advance ranks the current stage alone: `progresses_iff` says when the two agree.
-/

namespace CreativeStudio.Batches
open Data Jobs

section
variable (lib : Library) (preflight : Preflight)

/-- The records of a batch that is never cancelled. -/
inductive Reached : BatchRecord → Prop
  | create {maxItemsLimit : ℕ} {spec : BatchSpec} {batchId : BatchId} {record : BatchRecord}
      (hlimit : 1 ≤ maxItemsLimit) (hspec : spec.Valid)
      (h : newRecord lib preflight.validate maxItemsLimit spec batchId = .ok record) :
      Reached record
  | assignIds {record : BatchRecord} (h : Reached record) (stageIndex : ℕ) (ids : ℕ → JobId) :
      Reached (record.assignIds stageIndex ids)
  | recompute {record : BatchRecord} (h : Reached record) (children : JobId → ChildRow) :
      Reached (record.recompute children)
  | advance {record record' : BatchRecord} (h : Reached record)
      (hadvance : tryAdvanceInPlace lib preflight.validate record = .ok record') :
      Reached record'

/-- The advance appends a non-empty next stage. -/
def AdvancesTo (record record' : BatchRecord) : Prop :=
  tryAdvanceInPlace lib preflight.validate record = .ok record' ∧
    record'.stageIndex = record.stageIndex + 1 ∧
    ∃ newItems, newItems ≠ [] ∧ record'.items = record.items ++ newItems ∧
      ∀ item ∈ newItems, item.stageIndex = record.stageIndex + 1

/-- The status is final, or the advance makes progress or raises a reference preflight
error. -/
def Progresses (record : BatchRecord) : Prop :=
  (deriveStatus record).Final ∨ (∃ record', AdvancesTo lib preflight record record') ∨
    ∃ message, tryAdvanceInPlace lib preflight.validate record = .error (.reference message)

end

/-- A further stage exists, some item of some stage succeeded, and none of the current
stage did. -/
def LostStage (record : BatchRecord) : Prop :=
  record.stageIndex + 1 < record.spec.resolvedStages.length ∧
    (∃ item ∈ record.items, item.status = .job .succeeded) ∧
    ∀ item ∈ record.itemsForStage record.stageIndex, item.status ≠ .job .succeeded

/-- What every reached record satisfies. -/
structure Underway (lib : Library) (record : BatchRecord) : Prop where
  notCancelled : record.cancellationRequested = false
  noError : record.advanceError = none
  keepTopN_pos : ∀ stage ∈ record.spec.resolvedStages, ∀ n, stage.keepTopN = some n → 1 ≤ n
  stage_lt : record.stageIndex < record.spec.resolvedStages.length
  current_ne : ∃ item ∈ record.items, item.stageIndex = record.stageIndex
  /-- The patches of every item make a request, so a later stage can build one. -/
  buildable : ∀ item ∈ record.items,
    ∃ r, patchedRequest lib record.spec (Dict.ofPairs item.axisValues) = .ok r
  /-- The rollup is up to date once nothing is left to wait for. -/
  rolledUp : (∀ item ∈ record.items, item.isTerminal) →
    record.aggregate = buildAggregate record.items

/-! ## Creation -/

theorem product_ne_nil {axes : List Axis} (h : ∀ axis ∈ axes, axis.values ≠ []) :
    product axes ≠ [] := by
  induction axes with
  | nil => simp [product]
  | cons axis rest ih =>
    have hrest := ih fun a ha => h a (List.mem_cons_of_mem _ ha)
    obtain ⟨value, hvalue⟩ := List.exists_mem_of_ne_nil _ (h axis List.mem_cons_self)
    obtain ⟨labels, hlabels⟩ := List.exists_mem_of_ne_nil _ hrest
    have hmem : (axis.name, value.label) :: labels ∈ product (axis :: rest) :=
      List.mem_flatMap.mpr ⟨value, hvalue, List.mem_map_of_mem hlabels⟩
    exact List.ne_nil_of_mem hmem

/-- A valid spec expands to at least one combination. -/
theorem chooseCombinations_ne_nil {lib : Library} {spec : BatchSpec} (hspec : spec.Valid)
    {all chosen : List AxisLabels} (hall : all ≠ [])
    (h : chooseCombinations lib spec all = .ok chosen) : chosen ≠ [] := by
  unfold chooseCombinations at h
  split at h
  · cases h
  next n hstrategy hmax =>
    split at h
    next hlt =>
      have hpos := hspec.maxItems_pos n hmax
      have hlen := lib.sample_length spec.sampleSeed all.length n hlt.le
      have hne : lib.sample spec.sampleSeed all.length n ≠ [] := by
        intro hnil
        rw [hnil, List.length_nil] at hlen
        omega
      obtain ⟨i, hi⟩ := List.exists_mem_of_ne_nil _ hne
      have hilt := lib.sample_lt _ _ _ i hi
      have hmem : all[i] ∈ chosen := by
        rw [← Except.ok.inj h]
        exact List.mem_filterMap.mpr
          ⟨i, (List.mem_insertionSort _).mpr hi, List.getElem?_eq_getElem hilt⟩
      exact List.ne_nil_of_mem hmem
    next => exact Except.ok.inj h ▸ hall
  next => exact Except.ok.inj h ▸ hall

theorem combinations_ne_nil {lib : Library} {spec : BatchSpec} (hspec : spec.Valid)
    {chosen : List AxisLabels} (h : combinations lib spec = .ok chosen) : chosen ≠ [] := by
  unfold combinations at h
  split at h
  · obtain rfl := Except.ok.inj h
    simp
  next =>
    cases hc : chooseCombinations lib spec (product spec.axes) with
    | error e => simp [hc, Except.bind] at h
    | ok chosen' =>
      simp only [hc, Except.bind] at h
      split at h
      · cases h
      · have hproduct := product_ne_nil fun axis haxis => (hspec.axes axis haxis).values_ne_nil
        exact Except.ok.inj h ▸ chooseCombinations_ne_nil hspec hproduct hc

/-- Every item of an expansion has axis values that its patches make a request of. -/
theorem buildable_of_expandItems {lib : Library} {spec : BatchSpec} {stage : Stage} {stageIndex : ℕ}
    {seedItems : Option (List BatchItem)} {idPrefix : String} {items : List BatchItem}
    (h : expandItems lib spec stage stageIndex seedItems idPrefix = .ok items) :
    ∀ item ∈ items, item.stageIndex = stageIndex ∧ item.jobId = none ∧ item.status = .pending ∧
      ∃ r, patchedRequest lib spec (Dict.ofPairs item.axisValues) = .ok r := by
  intro item hitem
  obtain ⟨seeded, -, hseeded, -, -⟩ := expandItems_eq_ok h
  obtain ⟨position, c, -, b, order, hc, rfl⟩ := builtAt_of_mem h hseeded hitem
  obtain ⟨request, hrequest, rfl⟩ := buildItem_eq_ok hc
  refine ⟨by simp, by simp, by simp, ?_⟩
  simp only [axisValues_reindex, Dict.ofPairs_ofPairs]
  rw [buildRequest_eq] at hrequest
  cases hp : patchedRequest lib spec (Dict.ofPairs c.1) with
  | error e => simp [hp, Except.map] at hrequest
  | ok r => exact ⟨r, rfl⟩

theorem length_expandItems {lib : Library} {spec : BatchSpec} {stage : Stage} {stageIndex : ℕ}
    {seedItems : Option (List BatchItem)} {idPrefix : String} {items : List BatchItem}
    (h : expandItems lib spec stage stageIndex seedItems idPrefix = .ok items) :
    ∃ seeded, seededCombinations lib spec seedItems = .ok seeded ∧ items.length = seeded.length := by
  obtain ⟨seeded, built, hseeded, hbuilt, rfl⟩ := expandItems_eq_ok h
  refine ⟨seeded, hseeded, ?_⟩
  have hlen := (forall₂_of_buildItems hbuilt).length_eq
  simp only [List.length_map, List.length_zipIdx, List.length_insertionSort] at hlen ⊢
  exact hlen.symm

theorem underway_of_newRecord {lib : Library} {preflight : Preflight} {maxItemsLimit : ℕ}
    {spec : BatchSpec} {batchId : BatchId} {record : BatchRecord} (hspec : spec.Valid)
    (hlimit : 1 ≤ maxItemsLimit)
    (h : newRecord lib preflight.validate maxItemsLimit spec batchId = .ok record) :
    Underway lib record := by
  unfold newRecord at h
  generalize heff : (if spec.limit > maxItemsLimit then { spec with limit := maxItemsLimit }
    else spec) = effective at h
  have hvalid : effective.Valid := by
    rw [← heff]
    split
    · exact { hspec with limit_pos := hlimit }
    · exact hspec
  simp only [liftExcept_eq, bind, Except.bind] at h
  cases hitems : expandItems lib effective (effective.resolvedStages.headD { name := "single" }) 0
      none (idPrefix batchId) with
  | error e => rw [hitems] at h; cases h
  | ok items =>
    rw [hitems] at h
    simp only [] at h
    cases hv : validateItems preflight.validate effective.projectId items with
    | error e => rw [hv] at h; cases h
    | ok u =>
      simp only [hv, pure, Except.pure, Except.ok.injEq] at h
      have hbuilt := buildable_of_expandItems hitems
      obtain ⟨seeded, hseeded, hlen⟩ := length_expandItems hitems
      have hne : items ≠ [] := by
        cases hc : combinations lib effective with
        | error e => simp [seededCombinations, hc, Except.map] at hseeded
        | ok chosen =>
          have hchosen := List.length_pos_of_ne_nil (combinations_ne_nil hvalid hc)
          simp only [seededCombinations, hc, Except.map, Except.ok.injEq] at hseeded
          refine List.ne_nil_of_length_pos ?_
          rw [hlen, ← hseeded, List.length_map]
          exact hchosen
      obtain ⟨item, hitem⟩ := List.exists_mem_of_ne_nil _ hne
      subst h
      exact {
        notCancelled := rfl
        noError := rfl
        keepTopN_pos := fun stage hs n hn => hvalid.keepTopN_of_resolved hs hn
        stage_lt := List.length_pos_of_ne_nil effective.resolvedStages_ne_nil
        current_ne := ⟨item, hitem, (hbuilt item hitem).1⟩
        buildable := fun item hitem => (hbuilt item hitem).2.2.2
        rolledUp := fun hterminal => by
          have hpending := (hbuilt item hitem).2.2.1
          have : item.isTerminal = true := hterminal item hitem
          simp [BatchItem.isTerminal, hpending, ItemStatus.isTerminal] at this }

/-! ## Outcomes of child jobs -/

theorem Underway.assignIds {lib : Library} {record : BatchRecord} (h : Underway lib record)
    (stageIndex : ℕ) (ids : ℕ → JobId) : Underway lib (record.assignIds stageIndex ids) where
  notCancelled := h.notCancelled
  noError := h.noError
  keepTopN_pos := h.keepTopN_pos
  stage_lt := h.stage_lt
  current_ne := by
    obtain ⟨item, hitem, hstage⟩ := h.current_ne
    obtain ⟨n, hn, rfl⟩ := List.mem_iff_getElem.mp hitem
    have hzip : (record.items[n], n) ∈ record.items.zipIdx :=
      List.mem_zipIdx_iff_getElem?.mpr (List.getElem?_eq_getElem hn)
    refine ⟨_, List.mem_map_of_mem hzip, ?_⟩
    dsimp only
    split <;> exact hstage
  buildable := by
    intro item hitem
    obtain ⟨⟨item', n⟩, hmem, rfl⟩ := List.mem_map.mp hitem
    have hitem' := h.buildable item' (List.fst_mem_of_mem_zipIdx hmem)
    dsimp only
    split <;> exact hitem'
  rolledUp := by
    -- ids are only given to items that are not terminal
    intro hterminal
    have hsame : (record.assignIds stageIndex ids).items = record.items := by
      have hid : ∀ c ∈ record.items.zipIdx, (if c.1.NeedsId stageIndex then
          { c.1 with jobId := some (ids c.2) } else c.1) = c.1 := by
        intro c hc
        refine if_neg fun hneeds => hneeds.2.2 ?_
        have := hterminal _ (List.mem_map_of_mem hc)
        simpa [hneeds] using this
      calc (record.assignIds stageIndex ids).items
          = record.items.zipIdx.map Prod.fst := List.map_congr_left hid
        _ = record.items := List.zipIdx_map_fst 0 record.items
    rw [hsame] at hterminal ⊢
    exact h.rolledUp hterminal

theorem Underway.recompute {lib : Library} {record : BatchRecord} (h : Underway lib record)
    (children : JobId → ChildRow) : Underway lib (record.recompute children) where
  notCancelled := h.notCancelled
  noError := h.noError
  keepTopN_pos := h.keepTopN_pos
  stage_lt := h.stage_lt
  current_ne := by
    obtain ⟨item, hitem, hstage⟩ := h.current_ne
    refine ⟨_, List.mem_map_of_mem hitem, ?_⟩
    change _ = record.stageIndex
    split
    · exact hstage
    · rw [stageIndex_recomputeItem, hstage]
  buildable := by
    intro item hitem
    obtain ⟨item', hitem', rfl⟩ := List.mem_map.mp hitem
    have := h.buildable item' hitem'
    split
    · exact this
    · rw [axisValues_recomputeItem]; exact this
  rolledUp := fun _ => rfl

/-! ## The advance -/

/-- Some item of the current stage is a winner exactly when some item of it succeeded. -/
theorem rankWinners_eq_nil {items : List BatchItem} {keepTopN : Option ℕ}
    (hkeep : ∀ n, keepTopN = some n → 1 ≤ n) :
    rankWinners items keepTopN = [] ↔ ∀ item ∈ items, item.status ≠ .job .succeeded := by
  have hfilter : (items.filter fun item => item.status == .job .succeeded).insertionSort rankOrder
      = [] ↔ ∀ item ∈ items, item.status ≠ .job .succeeded := by
    rw [← List.length_eq_zero_iff, List.length_insertionSort, List.length_eq_zero_iff,
      List.filter_eq_nil_iff]
    simp
  unfold rankWinners
  cases keepTopN with
  | none => exact hfilter
  | some n =>
    have hn := hkeep n rfl
    rw [← hfilter, List.take_eq_nil_iff]
    constructor
    · rintro (h | h)
      · omega
      · exact h
    · exact fun h => .inr h

/-- Winners of a stage always expand. -/
theorem Underway.exists_expandItems {lib : Library} {record : BatchRecord}
    (h : Underway lib record) (stage : Stage) {winners : List BatchItem}
    (hwinners : ∀ winner ∈ winners, winner ∈ record.items) :
    ∃ items, expandItems lib record.spec stage (record.stageIndex + 1) (some winners)
      (idPrefix record.id) = .ok items := by
  have hbuild : ∀ c ∈ winners.map fun item => (item.axisValues, item.request.seed),
      ∃ r, patchedRequest lib record.spec (Dict.ofPairs c.1) = .ok r := by
    intro c hc
    obtain ⟨winner, hwinner, rfl⟩ := List.mem_map.mp hc
    exact h.buildable winner (hwinners winner hwinner)
  obtain ⟨built, hbuilt⟩ :=
    exists_buildItems stage (record.stageIndex + 1) (idPrefix record.id) 0 hbuild
  rw [expandItems_eq]
  simp only [seededCombinations, Except.bind, hbuilt, Except.map]
  exact ⟨_, rfl⟩

/-- An advance that has a further stage, a finished current stage and winners appends the
stage or raises a reference error; any other advance changes nothing. -/
theorem Underway.tryAdvance_cases {lib : Library} {record : BatchRecord} (preflight : Preflight)
    (h : Underway lib record) :
    (tryAdvanceInPlace lib preflight.validate record = .ok record ∧
      (¬ record.stageIndex + 1 < record.spec.resolvedStages.length ∨
        (∃ item ∈ record.itemsForStage record.stageIndex, ¬ item.isTerminal) ∨
        ∀ item ∈ record.itemsForStage record.stageIndex, item.status ≠ .job .succeeded)) ∨
    (record.stageIndex + 1 < record.spec.resolvedStages.length ∧
      (∃ item ∈ record.itemsForStage record.stageIndex, item.status = .job .succeeded) ∧
      ((∃ winners newItems stage, newItems ≠ [] ∧
          expandItems lib record.spec stage (record.stageIndex + 1) (some winners)
            (idPrefix record.id) = .ok newItems ∧
          tryAdvanceInPlace lib preflight.validate record =
            .ok (appendStage record winners newItems stage)) ∨
        ∃ message, tryAdvanceInPlace lib preflight.validate record =
          .error (.reference message))) := by
  unfold tryAdvanceInPlace
  have hcurrent := List.getElem?_eq_getElem h.stage_lt
  simp only [hcurrent, h.notCancelled]
  by_cases hnext : record.stageIndex + 1 < record.spec.resolvedStages.length
  swap
  · rw [List.getElem?_eq_none (not_lt.mp hnext)]
    exact .inl ⟨rfl, .inl hnext⟩
  rw [List.getElem?_eq_getElem hnext]
  simp only [Bool.false_eq_true, if_false]
  by_cases hterminal : (record.itemsForStage record.stageIndex).all BatchItem.isTerminal = true
  swap
  · simp only [hterminal, Bool.not_false, if_true]
    refine .inl ⟨rfl, .inr (.inl ?_)⟩
    simpa using hterminal
  simp only [hterminal, Bool.not_true, Bool.false_eq_true, if_false]
  set current := record.spec.resolvedStages[record.stageIndex]
  set next := record.spec.resolvedStages[record.stageIndex + 1]
  have hkeep : ∀ n, current.keepTopN = some n → 1 ≤ n :=
    fun n hn => h.keepTopN_pos current (List.getElem_mem _) n hn
  set winners := rankWinners (record.itemsForStage record.stageIndex) current.keepTopN with hw
  by_cases hempty : winners = []
  · simp only [hempty, List.isEmpty_nil, if_true]
    exact .inl ⟨rfl, .inr (.inr ((rankWinners_eq_nil hkeep).mp hempty))⟩
  have hisEmpty : winners.isEmpty = false := by simpa using hempty
  simp only [hisEmpty, Bool.false_eq_true, if_false, liftExcept_eq]
  obtain ⟨winner, hwinner⟩ := List.exists_mem_of_ne_nil _ hempty
  have hwinner' := mem_of_mem_rankWinners (hw ▸ hwinner)
  have hmem : ∀ w ∈ winners, w ∈ record.items := fun w hw' =>
    (BatchRecord.mem_itemsForStage.mp (mem_of_mem_rankWinners (hw ▸ hw')).1).1
  obtain ⟨newItems, hnew⟩ := h.exists_expandItems next hmem
  have hne : newItems ≠ [] := by
    obtain ⟨seeded, hseeded, hlen⟩ := length_expandItems hnew
    simp only [seededCombinations, Except.ok.injEq] at hseeded
    refine List.ne_nil_of_length_pos ?_
    rw [hlen, ← hseeded, List.length_map]
    exact List.length_pos_of_ne_nil hempty
  refine .inr ⟨hnext, ⟨winner, hwinner'.1, hwinner'.2⟩, ?_⟩
  simp only [hnew, bind, Except.bind]
  rcases validateItems_cases preflight record.spec.projectId newItems with hv | ⟨message, hv⟩
  · simp only [hv, pure, Except.pure]
    exact .inl ⟨winners, newItems, next, hne, hnew, rfl⟩
  · simp only [hv]
    exact .inr ⟨message, rfl⟩

theorem Underway.appendStage {lib : Library} {record : BatchRecord} (h : Underway lib record)
    {winners newItems : List BatchItem} {stage : Stage}
    (hnext : record.stageIndex + 1 < record.spec.resolvedStages.length) (hne : newItems ≠ [])
    (hnew : expandItems lib record.spec stage (record.stageIndex + 1) (some winners)
      (idPrefix record.id) = .ok newItems) :
    Underway lib (appendStage record winners newItems stage) := by
  have hbuilt := buildable_of_expandItems hnew
  obtain ⟨new, hmem⟩ := List.exists_mem_of_ne_nil _ hne
  have hin : { new with label := refineLabel winners stage.name new } ∈
      (Batches.appendStage record winners newItems stage).items :=
    List.mem_append_right _ (List.mem_map_of_mem hmem)
  exact {
    notCancelled := h.notCancelled
    noError := rfl
    keepTopN_pos := h.keepTopN_pos
    stage_lt := hnext
    current_ne := ⟨_, hin, (hbuilt new hmem).1⟩
    buildable := by
      intro item hitem
      rcases List.mem_append.mp hitem with hitem | hitem
      · exact h.buildable item hitem
      · obtain ⟨new', hnew', rfl⟩ := List.mem_map.mp hitem
        exact (hbuilt new' hnew').2.2.2
    rolledUp := fun hterminal => by
      have := hterminal _ hin
      simp [BatchItem.isTerminal, (hbuilt new hmem).2.2.1, ItemStatus.isTerminal] at this }

theorem Reached.underway {lib : Library} {preflight : Preflight} {record : BatchRecord}
    (h : Reached lib preflight record) : Underway lib record := by
  induction h with
  | create hlimit hspec h => exact underway_of_newRecord hspec hlimit h
  | assignIds _ stageIndex ids ih => exact ih.assignIds stageIndex ids
  | recompute _ children ih => exact ih.recompute children
  | advance _ hadvance ih =>
    rcases ih.tryAdvance_cases preflight with ⟨hsame, -⟩ | ⟨hnext, -, hcases⟩
    · obtain rfl := Except.ok.inj (hsame.symm.trans hadvance)
      exact ih
    · rcases hcases with ⟨winners, newItems, stage, hne, hnew, hok⟩ | ⟨message, herror⟩
      · obtain rfl := Except.ok.inj (hok.symm.trans hadvance)
        exact ih.appendStage hnext hne hnew
      · rw [herror] at hadvance; cases hadvance

/-! ## The status -/

theorem succeeded_buildAggregate_ne_zero {items : List BatchItem} :
    (buildAggregate items).succeeded ≠ 0 ↔ ∃ item ∈ items, item.status = .job .succeeded := by
  simp [buildAggregate, List.countP_eq_zero]

/-- Once every item is terminal, the status is final unless a further stage exists and
some item of some stage succeeded. -/
theorem Underway.final_deriveStatus {lib : Library} {record : BatchRecord}
    (h : Underway lib record) (hterminal : ∀ item ∈ record.items, item.isTerminal) :
    (deriveStatus record).Final ↔
      ¬ (record.stageIndex + 1 < record.spec.resolvedStages.length ∧
        ∃ item ∈ record.items, item.status = .job .succeeded) := by
  have hne : record.items.isEmpty = false := by
    obtain ⟨item, hitem, -⟩ := h.current_ne
    simpa using List.ne_nil_of_mem hitem
  have hall : record.items.all BatchItem.isTerminal = true := by simpa using hterminal
  have haggregate := h.rolledUp hterminal
  rw [← succeeded_buildAggregate_ne_zero, ← haggregate]
  unfold deriveStatus
  simp only [h.noError, h.notCancelled, hne, hall, Option.isSome_none, Bool.false_eq_true, if_false,
    Bool.not_true, Bool.not_false, Bool.and_true, Bool.and_false]
  by_cases hnext : record.stageIndex + 1 < record.spec.resolvedStages.length <;>
    by_cases hsucceeded : record.aggregate.succeeded = 0 <;>
    simp only [hnext, hsucceeded, decide_true, decide_false, Bool.true_and, Bool.false_and,
      bne_self_eq_false, bne_iff_ne, ne_eq, not_true, not_false_iff, if_true, if_false,
      Bool.false_eq_true, and_true, true_and, and_self, iff_true, iff_false]
  · split <;> (try split) <;> simp [BatchStatus.Final]
  · simp [BatchStatus.Final]
  · split <;> (try split) <;> simp [BatchStatus.Final]
  · split <;> simp [BatchStatus.Final]

/-- A spec of three stages with one item each. -/
def threeStages : BatchSpec where
  name := "lighthouse"
  prompt := "a lighthouse"
  stages := [{ name := "probe" }, { name := "refine" }, { name := "finish" }]

/-- The child of the first stage succeeds, the child of the second fails. -/
def probeOnly (job : JobId) : ChildRow :=
  .record {
    id := job
    projectId := none
    mediaType := .image
    status := if job = 0 then .succeeded else .failed
    request := {
      mediaType := .image, taskType := none, prompt := "a lighthouse", negativePrompt := none,
      modelId := "", seed := none, outputFormat := none, params := [], references := [] }
    createdAt := job
    updatedAt := job }

/-- Create the batch, see its first child succeed, advance, see its second child fail. -/
def probeOnlyRun : Except Exc BatchRecord := do
  let created ← newRecord Library.plain Preflight.accept.validate 64 threeStages 0
  let probed := (created.assignIds 0 fun _ => 0).recompute probeOnly
  let refining ← tryAdvanceInPlace Library.plain Preflight.accept.validate probed
  return (refining.assignIds 1 fun _ => 1).recompute probeOnly

theorem valid_threeStages : threeStages.Valid where
  name_ne := by decide
  axes := by simp [threeStages]
  names_nodup := by simp [threeStages]
  maxItems_pos := by simp [threeStages]
  limit_pos := by decide
  stageNames_ne := by decide
  keepTopN_pos := by simp [threeStages]
  locks := by simp [threeStages, BatchSpec.RespectsLocks]

theorem reached_probeOnlyRun {record : BatchRecord} (h : probeOnlyRun = .ok record) :
    Reached Library.plain Preflight.accept record := by
  simp only [probeOnlyRun, bind, Except.bind] at h
  split at h
  · cases h
  next created hcreated =>
    have hprobed : Reached Library.plain Preflight.accept
        ((created.assignIds 0 fun _ => 0).recompute probeOnly) :=
      .recompute (.assignIds (.create (by decide) valid_threeStages hcreated) 0 _) probeOnly
    split at h
    · cases h
    next refining hrefining =>
      obtain rfl := Except.ok.inj h
      exact .recompute (.assignIds (.advance hprobed hrefining) 1 _) probeOnly

/-- The run ends with every item terminal, the status `running`, and an advance that
changes nothing. -/
theorem ends_probeOnlyRun : ∃ record, probeOnlyRun = .ok record ∧
    (∀ item ∈ record.items, item.isTerminal) ∧ deriveStatus record = .running ∧
    tryAdvanceInPlace Library.plain Preflight.accept.validate record =
      (.ok record : Except Exc BatchRecord) := by
  have hend : probeOnlyRun.toOption.any (fun record =>
      record.items.all BatchItem.isTerminal && decide (deriveStatus record = .running) &&
        (tryAdvanceInPlace Library.plain Preflight.accept.validate record :
          Except Exc BatchRecord).toOption == some record) = true := by
    decide +kernel
  obtain ⟨record, hrecord, h⟩ := (Option.any_eq_true ..).mp hend
  simp only [Bool.and_eq_true, decide_eq_true_eq, List.all_eq_true, beq_iff_eq] at h
  exact ⟨record, ok_of_toOption hrecord, h.1.1, h.1.2, ok_of_toOption h.2⟩

end CreativeStudio.Batches
