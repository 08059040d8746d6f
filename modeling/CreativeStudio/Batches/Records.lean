import CreativeStudio.Batches.Expansion
import CreativeStudio.Jobs.Schemas
import Mathlib.Algebra.Order.Floor.Ring
import Mathlib.Data.Rat.Floor

/-!
# Reading a batch's state off its items, and adding a stage to it

The pure part of the batch service: how a child row is reflected in its item, the rollup
and status derived from the items, the winners of a stage, and the attempt to append the
next one. The attempt validates references on the way, which is the caller's effect, so
it is written for any monad with exceptions.
-/

namespace CreativeStudio.Batches
open Data Jobs

/-- What reading a child's row gives: nothing, a row that cannot be reconstructed with
its raw `status` and `error_message`, or a record. -/
inductive ChildRow
  | missing
  | undecodable (rawStatus : Option StatusText) (rawErrorMessage : Option String)
  | record (job : JobRecord)
  deriving DecidableEq, Repr

/-- `_extract_score`. -/
def extractScore (metadata : Obj) : Option ℚ :=
  match metadata.get? "quality_report" with
  | some (.obj report) => match Dict.get? report "quality_score" with
    | some (.int n) => some n
    | some (.float q) => some q
    | some (.bool b) => some (if b then 1 else 0)
    | _ => none
  | _ => none

/-- `next((path for path in paths if path), None)`. -/
def firstPath (paths : List String) : Option String := paths.find? fun path => path != ""

/-- The part of `_recompute` that reflects one child row in its item. -/
def recomputeItem (item : BatchItem) : ChildRow → BatchItem
  | .missing => item
  | .undecodable rawStatus rawErrorMessage =>
    match rawStatus with
    | some (.known .failed) =>
      { item with
        status := .job .failed
        errorMessage := some (rawErrorMessage.getD
          "Job row could not be decoded (quarantined); raw status is 'failed'.") }
    | some (.known .cancelled) =>
      { item with
        status := .job .cancelled
        errorMessage := some (rawErrorMessage.getD
          "Job row could not be decoded (quarantined); raw status is 'cancelled'.") }
    | _ => item
  | .record job =>
    let reflected := { item with status := .job job.status, errorMessage := job.errorMessage }
    match job.result with
    | none => reflected
    | some result =>
      let outputPath := firstPath result.outputs
      { reflected with
        outputPath
        previewPath := (firstPath result.previews).orElse fun _ => outputPath
        score := extractScore result.metadata }

/-- `round(value, 2)`: ties go to the even neighbour. -/
def round2 (value : ℚ) : ℚ :=
  let scaled := value * 100
  let lower := ⌊scaled⌋
  let rest := scaled - lower
  let rounded := if rest < 1 / 2 then lower
    else if 1 / 2 < rest then lower + 1
    else if lower % 2 = 0 then lower else lower + 1
  rounded / 100

/-- The scored item with the highest score; the lower index wins a tie. -/
def bestItem (items : List BatchItem) : Option BatchItem :=
  items.foldl (fun best item =>
    match item.score, best with
    | none, _ => best
    | some _, none => some item
    | some score, some current =>
      let other := current.score.getD 0
      if other < score ∨ (score = other ∧ item.index < current.index) then some item
      else best) none

/-- `_build_aggregate`. -/
def buildAggregate (items : List BatchItem) : BatchAggregate :=
  let scores := items.filterMap BatchItem.score
  let count status := items.countP fun item => item.status == status
  { total := items.length
    pending := count .pending
    running := items.countP fun item => !item.isTerminal && item.status != .pending
    succeeded := count (.job .succeeded)
    failed := count (.job .failed)
    cancelled := count (.job .cancelled)
    averageScore := if scores.isEmpty then none else some (round2 (scores.sum / scores.length))
    bestItemId := (bestItem items).map BatchItem.id }

/-- `_derive_status`. -/
def deriveStatus (record : BatchRecord) : BatchStatus :=
  let aggregate := record.aggregate
  if record.advanceError.isSome then .failed
  else if record.items.isEmpty then .queued
  else if !record.items.all BatchItem.isTerminal then
    if aggregate.pending = aggregate.total then .queued else .running
  else
    let hasFurtherStage : Bool := record.stageIndex + 1 < record.spec.resolvedStages.length
    if hasFurtherStage && aggregate.succeeded != 0 && !record.cancellationRequested then .running
    else if aggregate.succeeded = aggregate.total then
      if hasFurtherStage && record.cancellationRequested then .cancelled else .succeeded
    else if aggregate.succeeded != 0 then .partialSuccess
    else if aggregate.cancelled != 0 then .cancelled
    else .failed

/-- The end of `_recompute`: the rollup and the status of the new items. -/
def rollUp (record : BatchRecord) (items : List BatchItem) : BatchRecord :=
  let reflected := { record with items, aggregate := buildAggregate items }
  { reflected with status := deriveStatus reflected }

/-- The rank of a succeeded item: by score, an item without one last; the lower index
wins a tie. -/
def rankOrder (a b : BatchItem) : Prop :=
  b.score.getD (-1) < a.score.getD (-1) ∨
    (a.score.getD (-1) = b.score.getD (-1) ∧ a.index ≤ b.index)

instance : DecidableRel rankOrder := fun a b => by unfold rankOrder; infer_instance

/-- `_rank_winners`. -/
def rankWinners (items : List BatchItem) (keepTopN : Option ℕ) : List BatchItem :=
  let ranked := (items.filter fun item => item.status == .job .succeeded).insertionSort rankOrder
  match keepTopN with
  | none => ranked
  | some n => ranked.take n

/-- The winners that the current stage of a record hands to the next. -/
def BatchRecord.winners (record : BatchRecord) : List BatchItem :=
  rankWinners (record.itemsForStage record.stageIndex)
    ((record.spec.resolvedStages[record.stageIndex]?).bind Stage.keepTopN)

theorem mem_of_mem_rankWinners {items : List BatchItem} {keepTopN : Option ℕ} {item : BatchItem}
    (h : item ∈ rankWinners items keepTopN) : item ∈ items ∧ item.status = .job .succeeded := by
  have hmem : item ∈ (items.filter fun item => item.status == .job .succeeded).insertionSort
      rankOrder := by
    unfold rankWinners at h
    cases keepTopN with
    | none => exact h
    | some n => exact List.mem_of_mem_take h
  simpa using (List.mem_insertionSort rankOrder).mp hmem

/-- `_axis_key`: the identity of one cell of the sweep. -/
def axisKey (axisValues : AxisLabels) : AxisLabels := axisValues.sortByName

/-- The label of a new item: its winner's, and the stage that refines it. -/
def refineLabel (winners : List BatchItem) (stageName : String) (item : BatchItem) : String :=
  match winners.reverse.find? fun winner => axisKey winner.axisValues == axisKey item.axisValues with
  | some winner => winner.label ++ "__" ++ stageName
  | none => item.label ++ "__" ++ stageName

/-- `f"{batch_id}_item"`. -/
def idPrefix (batchId : BatchId) : String := "batch_" ++ toString batchId ++ "_item"

/-- The record with the items of its next stage appended. -/
def appendStage (record : BatchRecord) (winners newItems : List BatchItem) (stage : Stage) :
    BatchRecord :=
  { record with
    advanceError := none
    items := record.items ++ newItems.map fun item =>
      { item with label := refineLabel winners stage.name item }
    stageIndex := record.stageIndex + 1 }

section Effects
variable {m : Type → Type*} [Monad m] [MonadExceptOf Exc m]

/-- Raise what a pure computation raised. -/
def liftExcept (r : Except Exc α) : m α :=
  match r with
  | .ok a => pure a
  | .error e => throw e

/-- `validate_references` on every item, in order. -/
def validateItems (validate : GenerationRequest → Option String → m Unit)
    (projectId : Option String) : List BatchItem → m Unit
  | [] => pure ()
  | item :: rest => do
    validate item.request projectId
    validateItems validate projectId rest

/-- `_try_advance_in_place`. -/
def tryAdvanceInPlace (lib : Library) (validate : GenerationRequest → Option String → m Unit)
    (record : BatchRecord) : m BatchRecord :=
  let stages := record.spec.resolvedStages
  match stages[record.stageIndex]?, stages[record.stageIndex + 1]? with
  | some currentStage, some nextStage =>
    let currentItems := record.itemsForStage record.stageIndex
    if record.cancellationRequested then pure record
    else if !currentItems.all BatchItem.isTerminal then pure record
    else
      let winners := rankWinners currentItems currentStage.keepTopN
      if winners.isEmpty then pure record
      else do
        let newItems ← liftExcept (expandItems lib record.spec nextStage (record.stageIndex + 1)
          (some winners) (idPrefix record.id))
        validateItems validate record.spec.projectId newItems
        pure (appendStage record winners newItems nextStage)
  | _, _ => pure record

/-- The record that `create_batch` persists: the operator's ceiling lowers the spec's
limit, and every reference is validated before anything is written. -/
def newRecord (lib : Library) (validate : GenerationRequest → Option String → m Unit)
    (maxItemsLimit : ℕ) (spec : BatchSpec) (batchId : BatchId) : m BatchRecord := do
  let effectiveSpec := if spec.limit > maxItemsLimit then { spec with limit := maxItemsLimit } else spec
  let stage := effectiveSpec.resolvedStages.headD { name := "single" }
  let items ← liftExcept (expandItems lib effectiveSpec stage 0 none (idPrefix batchId))
  validateItems validate effectiveSpec.projectId items
  pure {
    id := batchId
    spec := effectiveSpec
    items
    aggregate := { total := items.length, pending := items.length } }

end Effects

/-- What `_assign_ids` decides about one item. -/
def BatchItem.NeedsId (item : BatchItem) (stageIndex : ℕ) : Prop :=
  item.stageIndex = stageIndex ∧ item.jobId = none ∧ ¬ item.isTerminal

instance (item : BatchItem) (stageIndex : ℕ) : Decidable (item.NeedsId stageIndex) := by
  unfold BatchItem.NeedsId; infer_instance

/-! ## A batch as its own record sees it -/

/-- Reference validation as the service sees it: the message it rejects a request with,
if it does. -/
abbrev Preflight := GenerationRequest → Option String → Option String

/-- `validate_references`: it raises reference errors only. -/
def Preflight.validate (preflight : Preflight) (request : GenerationRequest)
    (projectId : Option String) : Except Exc Unit :=
  match preflight request projectId with
  | none => .ok ()
  | some message => .error (.reference message)

/-- Reference validation that finds nothing to reject. -/
def Preflight.accept : Preflight := fun _ _ => none

namespace BatchRecord

/-- `_recompute`, given what reading each child's row gives. -/
def recompute (children : JobId → ChildRow) (record : BatchRecord) : BatchRecord :=
  rollUp record (record.items.map fun item => match item.jobId with
    | none => item
    | some job => recomputeItem item (children job))

/-- `_assign_ids`, given the id each position of the item list is to get. -/
def assignIds (stageIndex : ℕ) (ids : ℕ → JobId) (record : BatchRecord) : BatchRecord :=
  { record with
    items := record.items.zipIdx.map fun (item, position) =>
      if item.NeedsId stageIndex then { item with jobId := some (ids position) } else item }

end BatchRecord

@[simp] theorem liftExcept_eq (r : Except Exc α) : (liftExcept r : Except Exc α) = r := by
  cases r <;> rfl

theorem validateItems_cases (preflight : Preflight) (projectId : Option String)
    (items : List BatchItem) :
    validateItems preflight.validate projectId items = .ok () ∨
      ∃ message, validateItems preflight.validate projectId items = .error (.reference message) := by
  induction items with
  | nil => exact .inl rfl
  | cons item rest ih =>
    simp only [validateItems, Preflight.validate, bind, Except.bind]
    cases preflight item.request projectId with
    | none => exact ih
    | some message => exact .inr ⟨message, rfl⟩

/-- Nothing keeps the record from going on to its next stage. -/
structure BatchRecord.ReadyToAdvance (record : BatchRecord) : Prop where
  notCancelled : record.cancellationRequested = false
  terminal : ∀ item ∈ record.itemsForStage record.stageIndex, item.isTerminal
  winners_ne : record.winners ≠ []

/-- An advance that is ready expands the winners and validates what they expand to. -/
theorem tryAdvanceInPlace_of_ready (lib : Library) (preflight : Preflight) {record : BatchRecord}
    {stage next : Stage} (hstage : record.spec.resolvedStages[record.stageIndex]? = some stage)
    (hnext : record.spec.resolvedStages[record.stageIndex + 1]? = some next)
    (hready : record.ReadyToAdvance) :
    tryAdvanceInPlace lib preflight.validate record =
      ((expandItems lib record.spec next (record.stageIndex + 1) (some record.winners)
        (idPrefix record.id)).bind fun newItems =>
          (validateItems preflight.validate record.spec.projectId newItems).map fun _ =>
            appendStage record record.winners newItems next : Except Exc BatchRecord) := by
  have hwinners : record.winners =
      rankWinners (record.itemsForStage record.stageIndex) stage.keepTopN := by
    simp [BatchRecord.winners, hstage]
  have hne := hready.winners_ne
  have hterminal : (record.itemsForStage record.stageIndex).all BatchItem.isTerminal = true := by
    simpa using hready.terminal
  rw [hwinners] at hne ⊢
  unfold tryAdvanceInPlace
  simp only [hstage, hnext, hready.notCancelled, hterminal, Bool.false_eq_true, if_false,
    Bool.not_true, List.isEmpty_iff, hne, liftExcept_eq]
  rfl

section RecomputeItem
variable (item : BatchItem) (row : ChildRow)

@[simp] theorem id_recomputeItem : (recomputeItem item row).id = item.id := by
  unfold recomputeItem; split <;> (try split) <;> rfl
@[simp] theorem stageIndex_recomputeItem :
    (recomputeItem item row).stageIndex = item.stageIndex := by
  unfold recomputeItem; split <;> (try split) <;> rfl
@[simp] theorem axisValues_recomputeItem :
    (recomputeItem item row).axisValues = item.axisValues := by
  unfold recomputeItem; split <;> (try split) <;> rfl
@[simp] theorem jobId_recomputeItem : (recomputeItem item row).jobId = item.jobId := by
  unfold recomputeItem; split <;> (try split) <;> rfl
@[simp] theorem request_recomputeItem : (recomputeItem item row).request = item.request := by
  unfold recomputeItem; split <;> (try split) <;> rfl

end RecomputeItem

end CreativeStudio.Batches
