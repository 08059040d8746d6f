import CreativeStudio.Batches.Repository

/-!
# How a batch record may change

`Laid` is the layout of a record: its stages are contiguous blocks of items, and every item
has an id and at most one job of its own. `Revises` is what one write may do to a record:
change items in place, or append the block of the next stage. `RecordEvolves` is what any
number of writes do; nothing is removed and nothing goes back.
-/

namespace CreativeStudio.Batches
open Data Jobs

/-- The layout of the record of a batch. -/
structure Laid (batch : BatchId) (record : BatchRecord) : Prop where
  id_eq : record.id = batch
  stage_lt : record.stageIndex < record.spec.resolvedStages.length
  stage_le : ∀ item ∈ record.items, item.stageIndex ≤ record.stageIndex
  /-- The items of each stage are one block. -/
  blocks : record.items.Pairwise fun a b => a.stageIndex ≤ b.stageIndex
  named : ∀ item ∈ record.items, ∃ position,
    item.id = itemId (idPrefix batch) item.stageIndex position
  ids_nodup : (record.items.map BatchItem.id).Nodup
  jobs_nodup : (record.items.filterMap BatchItem.jobId).Nodup

/-- An item after a write: it keeps its id, its stage and its job; and while the batch is
`live`, it does not come back from a terminal status. -/
structure ItemKeeps (live : Prop) (a b : BatchItem) : Prop where
  id_eq : b.id = a.id
  stage_eq : b.stageIndex = a.stageIndex
  job : ∀ job, a.jobId = some job → b.jobId = some job
  terminal : live → a.isTerminal → b.isTerminal

theorem ItemKeeps.refl (live : Prop) (a : BatchItem) : ItemKeeps live a a :=
  ⟨rfl, rfl, fun _ h => h, fun _ h => h⟩

theorem ItemKeeps.trans {live live' : Prop} (hlive : live' → live) {a b c : BatchItem}
    (h : ItemKeeps live a b) (h' : ItemKeeps live' b c) : ItemKeeps live' a c :=
  ⟨h'.id_eq.trans h.id_eq, h'.stage_eq.trans h.stage_eq, fun job hj => h'.job job (h.job job hj),
    fun hl ha => h'.terminal hl (h.terminal (hlive hl) ha)⟩

/-- What any number of writes do to a record. -/
structure RecordEvolves (record record' : BatchRecord) : Prop where
  id_eq : record'.id = record.id
  spec_eq : record'.spec = record.spec
  stage_le : record.stageIndex ≤ record'.stageIndex
  cancelled : record.cancellationRequested → record'.cancellationRequested
  /-- Every item stays at its position. -/
  kept : ∀ (i : ℕ) a, record.items[i]? = some a →
    ∃ b, record'.items[i]? = some b ∧ ItemKeeps (record'.cancellationRequested = false) a b
  /-- An item that has been added is of a later stage. -/
  added : ∀ (i : ℕ) b, record'.items[i]? = some b → record.items.length ≤ i →
    record.stageIndex < b.stageIndex

namespace RecordEvolves

theorem refl (record : BatchRecord) : RecordEvolves record record where
  id_eq := rfl
  spec_eq := rfl
  stage_le := le_rfl
  cancelled h := h
  kept _ a h := ⟨a, h, .refl _ a⟩
  added i b h hi := by
    rw [List.getElem?_eq_none hi] at h
    cases h

theorem live {record record' : BatchRecord} (h : RecordEvolves record record')
    (hlive : record'.cancellationRequested = false) : record.cancellationRequested = false := by
  cases hc : record.cancellationRequested with
  | false => rfl
  | true => exact absurd (h.cancelled hc) (by simp [hlive])

theorem trans {r₁ r₂ r₃ : BatchRecord} (h : RecordEvolves r₁ r₂) (h' : RecordEvolves r₂ r₃) :
    RecordEvolves r₁ r₃ where
  id_eq := h'.id_eq.trans h.id_eq
  spec_eq := h'.spec_eq.trans h.spec_eq
  stage_le := h.stage_le.trans h'.stage_le
  cancelled hc := h'.cancelled (h.cancelled hc)
  kept i a ha := by
    obtain ⟨b, hb, hab⟩ := h.kept i a ha
    obtain ⟨c, hc, hbc⟩ := h'.kept i b hb
    exact ⟨c, hc, hab.trans h'.live hbc⟩
  added i c hc hi := by
    cases hb : r₂.items[i]? with
    | none =>
      have hi' : r₂.items.length ≤ i := List.getElem?_eq_none_iff.mp hb
      exact h.stage_le.trans_lt (h'.added i c hc hi')
    | some b =>
      obtain ⟨c', hc', hbc⟩ := h'.kept i b hb
      obtain rfl : c' = c := Option.some.inj (hc'.symm.trans hc)
      rw [hbc.stage_eq]
      exact h.added i b hb hi

/-- The item that an item has become. -/
theorem exists_of_mem {record record' : BatchRecord} (h : RecordEvolves record record')
    {a : BatchItem} (ha : a ∈ record.items) :
    ∃ b ∈ record'.items, ItemKeeps (record'.cancellationRequested = false) a b := by
  obtain ⟨i, hi⟩ := List.mem_iff_getElem?.mp ha
  obtain ⟨b, hb, hab⟩ := h.kept i a hi
  exact ⟨b, List.mem_of_getElem? hb, hab⟩

/-- A batch keeps the jobs it owns. -/
theorem owns {record record' : BatchRecord} (h : RecordEvolves record record') {job : JobId}
    (howns : record.Owns job) : record'.Owns job := by
  obtain ⟨a, ha, hjob⟩ := howns
  obtain ⟨b, hb, hab⟩ := h.exists_of_mem ha
  exact ⟨b, hb, hab.job job hjob⟩

/-- An item of a stage that the record had reached was there before. -/
theorem exists_of_mem_of_stage_le {record record' : BatchRecord} (h : RecordEvolves record record')
    {b : BatchItem} (hb : b ∈ record'.items) (hstage : b.stageIndex ≤ record.stageIndex) :
    ∃ a ∈ record.items, ItemKeeps (record'.cancellationRequested = false) a b := by
  obtain ⟨i, hi⟩ := List.mem_iff_getElem?.mp hb
  cases ha : record.items[i]? with
  | none =>
    have hlt := h.added i b hi (List.getElem?_eq_none_iff.mp ha)
    omega
  | some a =>
    obtain ⟨b', hb', hab⟩ := h.kept i a ha
    obtain rfl : b' = b := Option.some.inj (hb'.symm.trans hi)
    exact ⟨a, List.mem_of_getElem? ha, hab⟩

end RecordEvolves

/-! ## One write -/

/-- A block of items that the next stage adds. -/
structure NewBlock (batch : BatchId) (stageIndex : ℕ) (items : List BatchItem) : Prop where
  pending : ∀ item ∈ items, item.stageIndex = stageIndex ∧ item.jobId = none ∧
    item.status = .pending
  named : ∀ item ∈ items, ∃ position, item.id = itemId (idPrefix batch) stageIndex position
  ids_nodup : (items.map BatchItem.id).Nodup

/-- What one write may do to a record. -/
structure Revises (record record' : BatchRecord) : Prop where
  id_eq : record'.id = record.id
  spec_eq : record'.spec = record.spec
  cancelled : record.cancellationRequested → record'.cancellationRequested
  items : ∃ kept added, record'.items = kept ++ added ∧
    List.Forall₂ (ItemKeeps (record'.cancellationRequested = false)) record.items kept ∧
    (added = [] ∧ record'.stageIndex = record.stageIndex ∨
      record'.stageIndex = record.stageIndex + 1 ∧
        record'.stageIndex < record'.spec.resolvedStages.length ∧
        NewBlock record.id record'.stageIndex added)

theorem map_eq_of_forall₂ {R : α → β → Prop} {f : α → γ} {g : β → γ} {l : List α} {l' : List β}
    (h : List.Forall₂ R l l') (hR : ∀ a b, R a b → g b = f a) : l'.map g = l.map f := by
  induction h with
  | nil => rfl
  | cons hab _ ih => rw [List.map_cons, List.map_cons, hR _ _ hab, ih]

/-- A revision is one step of the evolution. -/
theorem Revises.evolves {record record' : BatchRecord} (h : Revises record record') :
    RecordEvolves record record' := by
  obtain ⟨kept, added, hitems, hkept, hadded⟩ := h.items
  have hlen := hkept.length_eq
  refine ⟨h.id_eq, h.spec_eq, ?_, h.cancelled, fun i a ha => ?_, fun i b hb hi => ?_⟩
  · rcases hadded with ⟨-, hstage⟩ | ⟨hstage, -, -⟩ <;> omega
  · obtain ⟨hi, rfl⟩ := List.getElem?_eq_some_iff.mp ha
    have hi' : i < kept.length := hlen ▸ hi
    refine ⟨kept[i], ?_, ?_⟩
    · rw [hitems, List.getElem?_append_left hi', List.getElem?_eq_getElem hi']
    · simpa using hkept.get hi hi'
  · rw [hitems, List.getElem?_append_right (hlen ▸ hi)] at hb
    have hmem := List.mem_of_getElem? hb
    rcases hadded with ⟨rfl, -⟩ | ⟨hstage, -, hblock⟩
    · cases hmem
    · rw [(hblock.pending b hmem).1]
      omega

/-- A revision keeps the layout, as long as the jobs it assigns are distinct. -/
theorem Revises.laid {batch : BatchId} {record record' : BatchRecord}
    (h : Revises record record') (hlaid : Laid batch record)
    (hjobs : (record'.items.filterMap BatchItem.jobId).Nodup) : Laid batch record' := by
  obtain ⟨kept, added, hitems, hkept, hadded⟩ := h.items
  have hstages : kept.map BatchItem.stageIndex = record.items.map BatchItem.stageIndex :=
    map_eq_of_forall₂ hkept fun _ _ hab => hab.stage_eq
  have hids : kept.map BatchItem.id = record.items.map BatchItem.id :=
    map_eq_of_forall₂ hkept fun _ _ hab => hab.id_eq
  -- what is said of an item's id and stage is said of the item it was
  have hfrom : ∀ b ∈ kept, ∃ a ∈ record.items, b.id = a.id ∧ b.stageIndex = a.stageIndex := by
    intro b hb
    obtain ⟨i, hi, rfl⟩ := List.mem_iff_getElem.mp hb
    have hi' : i < record.items.length := hkept.length_eq ▸ hi
    have hab := hkept.get hi' hi
    exact ⟨record.items[i], List.getElem_mem _, hab.id_eq, hab.stage_eq⟩
  have hkeptBlocks : kept.Pairwise fun a b => a.stageIndex ≤ b.stageIndex := by
    rw [← List.pairwise_map (R := (· ≤ ·)), hstages, List.pairwise_map]
    exact hlaid.blocks
  have hkeptLe : ∀ b ∈ kept, b.stageIndex ≤ record.stageIndex := by
    intro b hb
    obtain ⟨a, ha, -, hstage⟩ := hfrom b hb
    exact hstage ▸ hlaid.stage_le a ha
  have hkeptNamed : ∀ b ∈ kept, ∃ position,
      b.id = itemId (idPrefix batch) b.stageIndex position := by
    intro b hb
    obtain ⟨a, ha, hid, hstage⟩ := hfrom b hb
    rw [hid, hstage]
    exact hlaid.named a ha
  rcases hadded with ⟨rfl, hstage⟩ | ⟨hstage, hlt, hblock⟩
  · rw [List.append_nil] at hitems
    exact ⟨h.id_eq.trans hlaid.id_eq, by rw [hstage, h.spec_eq]; exact hlaid.stage_lt,
      by rw [hitems, hstage]; exact hkeptLe, hitems ▸ hkeptBlocks, hitems ▸ hkeptNamed,
      by rw [hitems, hids]; exact hlaid.ids_nodup, hjobs⟩
  · have haddedStage : ∀ b ∈ added, b.stageIndex = record.stageIndex + 1 := fun b hb =>
      (hblock.pending b hb).1.trans hstage
    refine ⟨h.id_eq.trans hlaid.id_eq, hlt, ?_, ?_, ?_, ?_, hjobs⟩
    · intro b hb
      rw [hitems, List.mem_append] at hb
      rcases hb with hb | hb
      · have := hkeptLe b hb
        omega
      · exact (haddedStage b hb).le.trans hstage.ge
    · rw [hitems, List.pairwise_append]
      refine ⟨hkeptBlocks, ?_, fun a ha b hb => ?_⟩
      · refine List.pairwise_of_forall_mem_list fun a ha b hb => ?_
        rw [haddedStage a ha, haddedStage b hb]
      · have hle := hkeptLe a ha
        have heq := haddedStage b hb
        omega
    · intro b hb
      rw [hitems, List.mem_append] at hb
      rcases hb with hb | hb
      · exact hkeptNamed b hb
      · rw [(hblock.pending b hb).1, ← hlaid.id_eq]
        exact hblock.named b hb
    · rw [hitems, List.map_append, List.nodup_append, hids]
      refine ⟨hlaid.ids_nodup, hblock.ids_nodup, fun x hx y hy hxy => ?_⟩
      -- the stage can be read off the id
      obtain ⟨a, ha, rfl⟩ := List.mem_map.mp hx
      obtain ⟨b, hb, rfl⟩ := List.mem_map.mp hy
      obtain ⟨i, hi⟩ := hlaid.named a ha
      obtain ⟨j, hj⟩ := hblock.named b hb
      rw [hi, hj, hlaid.id_eq] at hxy
      have hle := hlaid.stage_le a ha
      have heq := (itemId_inj.mp hxy).1
      omega

/-! ## What a file holds -/

@[simp] theorem id_canon (item : BatchItem) : item.canon.id = item.id := rfl
@[simp] theorem stageIndex_canon (item : BatchItem) : item.canon.stageIndex = item.stageIndex := rfl
@[simp] theorem jobId_canon (item : BatchItem) : item.canon.jobId = item.jobId := rfl
@[simp] theorem status_canon (item : BatchItem) : item.canon.status = item.status := rfl
@[simp] theorem isTerminal_canon (item : BatchItem) : item.canon.isTerminal = item.isTerminal := rfl

@[simp] theorem saved_saved (record : BatchRecord) : record.saved.saved = record.saved := by
  simp [BatchRecord.saved, BatchItem.canon, Function.comp_def]

@[simp] theorem id_saved (record : BatchRecord) : record.saved.id = record.id := rfl
@[simp] theorem stageIndex_saved (record : BatchRecord) :
    record.saved.stageIndex = record.stageIndex := rfl
@[simp] theorem cancellationRequested_saved (record : BatchRecord) :
    record.saved.cancellationRequested = record.cancellationRequested := rfl
@[simp] theorem items_saved (record : BatchRecord) :
    record.saved.items = record.items.map BatchItem.canon := rfl
@[simp] theorem spec_saved (record : BatchRecord) : record.saved.spec = record.spec.canon := rfl

@[simp] theorem owns_saved {record : BatchRecord} {job : JobId} :
    record.saved.Owns job ↔ record.Owns job := by
  simp [BatchRecord.Owns]

theorem Laid.saved {batch : BatchId} {record : BatchRecord} (h : Laid batch record) :
    Laid batch record.saved where
  id_eq := h.id_eq
  stage_lt := by simpa [BatchSpec.resolvedStages_canon] using h.stage_lt
  stage_le := by simpa using h.stage_le
  blocks := by simpa [List.pairwise_map] using h.blocks
  named := by simpa using h.named
  ids_nodup := by simpa [Function.comp_def] using h.ids_nodup
  jobs_nodup := by simpa [List.filterMap_map, Function.comp_def] using h.jobs_nodup

/-- The file that a revision is saved to evolves as the record does. -/
theorem RecordEvolves.saved {record record' : BatchRecord} (h : RecordEvolves record record')
    (hsaved : record.saved = record) : RecordEvolves record record'.saved where
  id_eq := h.id_eq
  spec_eq := by
    rw [spec_saved, h.spec_eq]
    exact congrArg BatchRecord.spec hsaved
  stage_le := h.stage_le
  cancelled := h.cancelled
  kept i a ha := by
    obtain ⟨b, hb, hab⟩ := h.kept i a ha
    exact ⟨b.canon, by simp [hb], hab.id_eq, hab.stage_eq, hab.job, hab.terminal⟩
  added i b hb hi := by
    simp only [items_saved, List.getElem?_map, Option.map_eq_some_iff] at hb
    obtain ⟨b, hb, rfl⟩ := hb
    exact h.added i b hb hi

end CreativeStudio.Batches
