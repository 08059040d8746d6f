import CreativeStudio.Batches.Evolution

/-!
# The store that all threads share

What holds of the jobs table and the batch files between any two commands, how they change
over time, and what each thread may rely on: under the batch lock the files stay put, and a
uuid that a thread has drawn names nothing until the thread uses it. `StoreOk` is what a
command that writes needs for this; `tolerated_of_step` shows that it is enough.
-/

namespace CreativeStudio.Batches
open Data Jobs Storage Conc

/-! ## The state of the store -/

/-- A batch file says that the batch owns the job. -/
def OwnedBy (w : World) (batch : BatchId) (job : JobId) : Prop :=
  ∃ record, w.file? batch = some (.value record) ∧ record.Owns job

/-- An item is terminal because the row of its job is. Cancelling a batch may end an item
before it has a job. -/
def Settled (w : World) (record : BatchRecord) : Prop :=
  record.cancellationRequested = false → ∀ item ∈ record.items, item.isTerminal →
    ∃ job row, item.jobId = some job ∧ w.row? job = some row ∧ row.Terminal

/-- What holds of the store between any two commands. -/
structure StoreInv (w : World) : Prop where
  /-- Whatever has a name was named by a uuid. -/
  row_lt : ∀ id, (w.row? id).isSome → id < w.uuids.length
  file_lt : ∀ batch, (w.file? batch).isSome → batch < w.uuids.length
  owned_lt : ∀ batch job, OwnedBy w batch job → job < w.uuids.length
  laid : ∀ batch record, w.file? batch = some (.value record) → Laid batch record
  saved : ∀ batch record, w.file? batch = some (.value record) → record.saved = record
  settled : ∀ batch record, w.file? batch = some (.value record) → Settled w record
  /-- A job belongs to one batch at most. -/
  owner : ∀ batch batch' job, OwnedBy w batch job → OwnedBy w batch' job → batch = batch'

/-- The uuid names nothing yet. -/
structure Fresh (w : World) (id : ℕ) : Prop where
  row : w.row? id = none
  file : w.file? id = none
  owned : ∀ batch, ¬ OwnedBy w batch id

/-- The thread has drawn the uuid and not used it. -/
structure Mine (t : Tid) (w : World) (id : ℕ) : Prop where
  drawn : w.uuids[id]? = some t
  fresh : Fresh w id

/-- What any number of statements do to a row. -/
structure RowEvolves (id : JobId) (row row' : JobRow) : Prop where
  status : StatusPath row.status row'.status
  outcome : row.Terminal → row'.resultJson = row.resultJson ∧ row'.errorMessage = row.errorMessage
  /-- A row that is still `queued` has not been touched. -/
  queued : row'.status = .known .queued → row' = row
  decodes : (row.decode? id).isSome → (row'.decode? id).isSome
  done : row.completionState = .value .done → row'.completionState = .value .done

/-- What any number of commands do to the store. -/
structure StoreEvolves (w w' : World) : Prop where
  uuids : w.uuids <+: w'.uuids
  rows : ∀ id row, w.row? id = some row → ∃ row', w'.row? id = some row' ∧ RowEvolves id row row'
  files : ∀ batch record, w.file? batch = some (.value record) →
    ∃ record', w'.file? batch = some (.value record') ∧ RecordEvolves record record'
  malformed : ∀ batch, w.file? batch = some .malformed → w'.file? batch = some .malformed
  /-- A job that has a row and no batch does not come to belong to one. -/
  unowned : ∀ batch job, (w.row? job).isSome → ¬ OwnedBy w batch job → ¬ OwnedBy w' batch job

/-- What other threads leave alone for the thread. -/
structure StoreKeeps (t : Tid) (w w' : World) : Prop where
  held : w.batchLock = some t → w'.batchLock = some t ∧ w'.files = w.files
  mine : ∀ id, Mine t w id → Mine t w' id
  attempt : w'.attempts t = w.attempts t

namespace RowEvolves
variable {id : JobId} {row row' row'' : JobRow}

theorem terminal_status (h : RowEvolves id row row') (hterminal : row.Terminal) :
    row'.status = row.status := by
  obtain ⟨status, hstatus, hrow⟩ := List.mem_map.mp hterminal
  have hpath := h.status
  rw [← hrow] at hpath ⊢
  exact hpath.of_terminal (by simpa [GenerationStatus.isTerminalStatus] using hstatus)

theorem terminal (h : RowEvolves id row row') (hterminal : row.Terminal) : row'.Terminal := by
  unfold JobRow.Terminal
  rwa [h.terminal_status hterminal]

theorem refl (id : JobId) (row : JobRow) : RowEvolves id row row :=
  ⟨.refl, fun _ => ⟨rfl, rfl⟩, fun _ => rfl, fun h => h, fun h => h⟩

theorem trans (h : RowEvolves id row row') (h' : RowEvolves id row' row'') :
    RowEvolves id row row'' where
  status := h.status.trans h'.status
  outcome hterminal := by
    obtain ⟨hresult, herror⟩ := h.outcome hterminal
    obtain ⟨hresult', herror'⟩ := h'.outcome (h.terminal hterminal)
    exact ⟨hresult'.trans hresult, herror'.trans herror⟩
  queued hqueued := by
    obtain rfl := h'.queued hqueued
    exact h.queued hqueued
  decodes hdecodes := h'.decodes (h.decodes hdecodes)
  done hdone := h'.done (h.done hdone)

theorem of_run {update : JobUpdate} (hlawful : update.Lawful) {now : ℕ}
    (h : update.run now row = some row') : RowEvolves id row row' where
  status := .single (update.statusChange h)
  outcome := hlawful.keepsOutcome now row row' h
  queued hqueued := absurd hqueued (hlawful.leavesQueued now row row' h)
  decodes := hlawful.decodes h
  done := update.completionState_done h

end RowEvolves

namespace StoreEvolves
variable {w w' w'' : World}

theorem refl (w : World) : StoreEvolves w w where
  uuids := List.prefix_rfl
  rows id row h := ⟨row, h, .refl id row⟩
  files _ record h := ⟨record, h, .refl record⟩
  malformed _ h := h
  unowned _ _ _ h := h

theorem row_isSome (h : StoreEvolves w w') {id : JobId} (hrow : (w.row? id).isSome) :
    (w'.row? id).isSome := by
  obtain ⟨row, hrow⟩ := Option.isSome_iff_exists.mp hrow
  obtain ⟨row', hrow', -⟩ := h.rows id row hrow
  rw [hrow']
  rfl

theorem trans (h : StoreEvolves w w') (h' : StoreEvolves w' w'') : StoreEvolves w w'' where
  uuids := h.uuids.trans h'.uuids
  rows id row hrow := by
    obtain ⟨row', hrow', he⟩ := h.rows id row hrow
    obtain ⟨row'', hrow'', he'⟩ := h'.rows id row' hrow'
    exact ⟨row'', hrow'', he.trans he'⟩
  files batch record hfile := by
    obtain ⟨record', hfile', he⟩ := h.files batch record hfile
    obtain ⟨record'', hfile'', he'⟩ := h'.files batch record' hfile'
    exact ⟨record'', hfile'', he.trans he'⟩
  malformed batch hfile := h'.malformed batch (h.malformed batch hfile)
  unowned batch job hrow hnot := h'.unowned batch job (h.row_isSome hrow) (h.unowned batch job hrow hnot)

/-- A batch keeps its jobs. -/
theorem ownedBy (h : StoreEvolves w w') {batch : BatchId} {job : JobId}
    (howned : OwnedBy w batch job) : OwnedBy w' batch job := by
  obtain ⟨record, hfile, howns⟩ := howned
  obtain ⟨record', hfile', he⟩ := h.files batch record hfile
  exact ⟨record', hfile', he.owns howns⟩

/-- A terminal row keeps its status. -/
theorem terminal (h : StoreEvolves w w') {id : JobId} {row : JobRow} (hrow : w.row? id = some row)
    (hterminal : row.Terminal) :
    ∃ row', w'.row? id = some row' ∧ row'.Terminal ∧ row'.status = row.status := by
  obtain ⟨row', hrow', he⟩ := h.rows id row hrow
  exact ⟨row', hrow', he.terminal hterminal, he.terminal_status hterminal⟩

theorem settled (h : StoreEvolves w w') {record : BatchRecord} (hsettled : Settled w record) :
    Settled w' record := by
  intro hlive item hitem hterminal
  obtain ⟨job, row, hjob, hrow, hrowTerminal⟩ := hsettled hlive item hitem hterminal
  obtain ⟨row', hrow', hterminal', -⟩ := h.terminal hrow hrowTerminal
  exact ⟨job, row', hjob, hrow', hterminal'⟩

/-- Rows and files that are only added to. -/
theorem of_rows (huuids : w.uuids <+: w'.uuids)
    (hrows : ∀ id row, w.row? id = some row → ∃ row', w'.row? id = some row' ∧ RowEvolves id row row')
    (hfiles : w'.files = w.files) : StoreEvolves w w' := by
  have hfile (batch) : w'.file? batch = w.file? batch := by simp [World.file?, hfiles]
  refine ⟨huuids, hrows, fun batch record h => ⟨record, (hfile batch).trans h, .refl record⟩,
    fun batch h => (hfile batch).trans h, fun batch job _ hnot howned => hnot ?_⟩
  simpa only [OwnedBy, hfile] using howned

end StoreEvolves

theorem settled_saved {w : World} {record : BatchRecord} (h : Settled w record) :
    Settled w record.saved := by
  intro hlive item hitem hterminal
  simp only [items_saved, List.mem_map] at hitem
  obtain ⟨item, hitem, rfl⟩ := hitem
  exact h hlive item hitem hterminal

/-! ## What a command that writes needs -/

/-- The record may replace what its batch file holds. -/
structure Revision (t : Tid) (w : World) (old record : BatchRecord) : Prop where
  revises : Revises old record
  jobs_nodup : (record.items.filterMap BatchItem.jobId).Nodup
  /-- A job it adds is one the thread has drawn. -/
  owns : ∀ job, record.Owns job → old.Owns job ∨ Mine t w job
  settled : Settled w record

/-- A batch that has just been expanded. -/
structure Blank (t : Tid) (w : World) (record : BatchRecord) : Prop where
  mine : Mine t w record.id
  laid : Laid record.id record
  jobless : ∀ item ∈ record.items, item.jobId = none
  pending : ∀ item ∈ record.items, item.isTerminal = false

/-- What the thread has to know before it writes a batch file. -/
def MayWrite (t : Tid) (w : World) (record : BatchRecord) : Prop :=
  Blank t w record ∨ ∃ old, w.file? record.id = some (.value old) ∧ Revision t w old record

/-- The items of the stage that are not terminal have rows, and the thread has handed the
queued ones that decode to the queue. -/
def StageHanded (w : World) (handed : List JobId) (record : BatchRecord) (stageIndex : ℕ) : Prop :=
  ∀ item ∈ record.itemsForStage stageIndex, item.isTerminal = false →
    ∃ job row, item.jobId = some job ∧ w.row? job = some row ∧
      (row.status = .known .queued → (row.decode? job).isSome → job ∈ handed)

/-- What an attempt has seen to when it marks its job. -/
structure Converged (w : World) (attempt : Attempt) : Prop where
  terminal : attempt.status.isTerminalStatus
  row : ∃ row, w.row? attempt.job = some row ∧ row.status = .known attempt.status
  story : attempt.status = .succeeded → attempt.synced ∧ attempt.story = some .converged
  batch : ∀ batch record, w.file? batch = some (.value record) → record.Owns attempt.job →
    ∃ recomputed, attempt.recomputed = some recomputed ∧ recomputed.id = batch ∧
      (∃ item ∈ recomputed.items,
        item.jobId = some attempt.job ∧ item.status = .job attempt.status) ∧
      (record.cancellationRequested = false →
        StageHanded w attempt.handed record recomputed.stageIndex)

/-- What has to hold when a thread is about to execute a command. -/
@[simp] def StoreOk (t : Tid) : Cmd β → World → Prop
  | .insertJob id _, w => Mine t w id ∨ ∃ batch, OwnedBy w batch id
  | .updateJob id update, w => update.Lawful ∧ (update.set.completionState.isSome →
      (w.attempts t).job = id ∧ Converged w (w.attempts t))
  | .writeBatchFile record, w => w.batchLock = some t ∧ MayWrite t w record
  | .releaseBatchLock, w => w.batchLock = some t
  | _, _ => True

/-- The discipline of the store. -/
def storeDiscipline (env : Env) : Discipline (studio env) where
  inv := StoreInv
  evolves := StoreEvolves
  keeps := StoreKeeps
  ok t c w := StoreOk t c w
  base _ _ _ := True
  evolves_refl := .refl
  evolves_trans _ _ _ h h' := h.trans h'
  keeps_refl _ _ := ⟨fun h => ⟨h, rfl⟩, fun _ h => h, rfl⟩
  keeps_trans _ _ _ _ h h' := by
    refine ⟨fun hheld => ?_, fun id hid => h'.mine id (h.mine id hid), h'.attempt.trans h.attempt⟩
    obtain ⟨hheld', hfiles⟩ := h.held hheld
    obtain ⟨hheld'', hfiles'⟩ := h'.held hheld'
    exact ⟨hheld'', hfiles'.trans hfiles⟩

/-! ## What a command does to the store -/

theorem ownedBy_congr {w w' : World} (hfiles : w'.files = w.files) {batch : BatchId} {job : JobId} :
    OwnedBy w' batch job ↔ OwnedBy w batch job := by
  simp [OwnedBy, World.file?, hfiles]

theorem Mine.lt {t : Tid} {w : World} {id : ℕ} (h : Mine t w id) : id < w.uuids.length :=
  (List.getElem?_eq_some_iff.mp h.drawn).1

/-- Two threads do not draw the same uuid. -/
theorem Mine.unique {t u : Tid} {w : World} {id : ℕ} (h : Mine t w id) (h' : Mine u w id) : u = t :=
  Option.some.inj (h'.drawn.symm.trans h.drawn)

/-- A uuid stays unused while nothing is named by it. -/
theorem Mine.mono {t : Tid} {w w' : World} {id : ℕ} (h : Mine t w id)
    (huuids : w.uuids <+: w'.uuids) (hrow : w'.row? id = none) (hfile : w'.file? id = none)
    (howned : ∀ batch, ¬ OwnedBy w' batch id) : Mine t w' id where
  drawn := by
    obtain ⟨rest, hrest⟩ := huuids
    rw [← hrest, List.getElem?_append_left h.lt]
    exact h.drawn
  fresh := ⟨hrow, hfile, howned⟩

section Step
variable {env : Env} {t : Tid} {w w' : World}

theorem uuids_prefix_of_step {c : Cmd β} {b : β} (hs : (b, w') ∈ (studio env).step t c w) :
    w.uuids <+: w'.uuids := by
  by_cases hkind : c.kind = .draw
  · cases c with
    | uuid4 =>
      simp only [step, List.mem_singleton, Prod.mk.injEq] at hs
      rw [hs.2]
      exact List.prefix_append _ _
    | updateJob id update =>
      simp only [Cmd.kind] at hkind
      split at hkind <;> cases hkind
    | _ => cases hkind
  · exact (frame_of_step hs).uuids hkind ▸ List.prefix_rfl

/-- A command that leaves the files alone keeps the invariant. -/
theorem StoreInv.of_files (hinv : StoreInv w) (hevolves : StoreEvolves w w')
    (hfiles : w'.files = w.files) (hrows : ∀ id, (w'.row? id).isSome → id < w'.uuids.length) :
    StoreInv w' := by
  have hfile (batch) : w'.file? batch = w.file? batch := by simp [World.file?, hfiles]
  have hlen := hevolves.uuids.length_le
  refine ⟨hrows, fun batch h => ?_, fun batch job h => ?_, fun batch record h => ?_,
    fun batch record h => ?_, fun batch record h => ?_, fun batch batch' job h h' => ?_⟩
  · exact (hinv.file_lt batch (hfile batch ▸ h)).trans_le hlen
  · exact (hinv.owned_lt batch job ((ownedBy_congr hfiles).mp h)).trans_le hlen
  · exact hinv.laid batch record (hfile batch ▸ h)
  · exact hinv.saved batch record (hfile batch ▸ h)
  · exact hevolves.settled (hinv.settled batch record (hfile batch ▸ h))
  · exact hinv.owner batch batch' job ((ownedBy_congr hfiles).mp h) ((ownedBy_congr hfiles).mp h')

/-- A command that leaves the files alone, and names nothing by a uuid of another thread. -/
theorem tolerated_of_files (hinv : StoreInv w) {c : Cmd β} {b : β}
    (hs : (b, w') ∈ (studio env).step t c w) (hkind : c.kind ≠ .writeBatch)
    (hrows : ∀ id row, w.row? id = some row →
      ∃ row', w'.row? id = some row' ∧ RowEvolves id row row')
    (hnew : ∀ id, (w'.row? id).isSome →
      (w.row? id).isSome ∨ Mine t w id ∨ ∃ batch, OwnedBy w batch id)
    (hlock : ∀ u, u ≠ t → w.batchLock = some u → w'.batchLock = some u) :
    (storeDiscipline env).Tolerated t w w' := by
  have hframe := frame_of_step hs
  have hfiles := hframe.files hkind
  have huuids := uuids_prefix_of_step hs
  have hevolves : StoreEvolves w w' := .of_rows huuids hrows hfiles
  refine ⟨hinv.of_files hevolves hfiles fun id hid => ?_, hevolves, fun u hu =>
    ⟨fun hheld => ⟨hlock u hu hheld, hfiles⟩, fun id hid => ?_, hframe.attempts_of_ne u hu⟩⟩
  · refine lt_of_lt_of_le ?_ huuids.length_le
    rcases hnew id hid with h | h | ⟨batch, h⟩
    · exact hinv.row_lt id h
    · exact h.lt
    · exact hinv.owned_lt batch id h
  · have hfile : w'.file? id = none := by
      rw [World.file?, hfiles]
      exact hid.fresh.file
    refine hid.mono huuids ?_ hfile fun batch h => hid.fresh.owned batch ((ownedBy_congr hfiles).mp h)
    by_contra hrow
    rcases hnew id (Option.isSome_iff_ne_none.mpr hrow) with h | h | ⟨batch, h⟩
    · rw [hid.fresh.row] at h
      cases h
    · exact hu (h.unique hid)
    · exact hid.fresh.owned batch h

/-- A command that touches neither the rows nor the files. -/
theorem tolerated_of_quiet (hinv : StoreInv w) {c : Cmd β} {b : β}
    (hs : (b, w') ∈ (studio env).step t c w)
    (hkind : c.kind ∉ [.insert, .update, .markDone, .writeBatch])
    (hlock : ∀ u, u ≠ t → w.batchLock = some u → w'.batchLock = some u) :
    (storeDiscipline env).Tolerated t w w' := by
  have hjobs : w'.jobs = w.jobs := (frame_of_step hs).jobs fun h =>
    hkind ((by decide : [Kind.insert, .update, .markDone] ⊆ [.insert, .update, .markDone, .writeBatch]) h)
  have hrow (id) : w'.row? id = w.row? id := by simp [World.row?, hjobs]
  refine tolerated_of_files hinv hs (fun h => hkind (by rw [h]; decide))
    (fun id row h => ⟨row, (hrow id).trans h, .refl id row⟩) (fun id h => ?_) hlock
  exact .inl (hrow id ▸ h)

theorem file?_insert_self (w : World) (record : BatchRecord) (file : Column BatchRecord) :
    World.file? { w with files := w.files.insert record.id file } record.id = some file := by
  simp [World.file?]

theorem file?_insert_of_ne (w : World) {record : BatchRecord} (file : Column BatchRecord)
    {batch : BatchId} (h : batch ≠ record.id) :
    World.file? { w with files := w.files.insert record.id file } batch = w.file? batch := by
  simp [World.file?, AList.lookup_insert_ne h]

theorem writeBatchFile_cases {record : BatchRecord} {r : Except Exc Unit}
    (hs : (r, w') ∈ (studio env).step t (.writeBatchFile record) w) :
    ((∃ e, r = .error e) ∧ w' = w) ∨ r = .ok () ∧
      w' = { w with files := w.files.insert record.id (.value record.saved) } := by
  rw [studio_step] at hs
  rcases mem_fallible hs with h | ⟨rfl, rfl⟩
  · rw [List.mem_singleton, Prod.mk.injEq] at h
    exact .inr h
  · exact .inl ⟨⟨_, rfl⟩, rfl⟩

/-- A batch file is only written to by the thread that holds the lock, and what it writes
continues what was there. -/
theorem tolerated_of_write (hinv : StoreInv w) {record : BatchRecord} {r : Except Exc Unit}
    (hs : (r, w') ∈ (studio env).step t (.writeBatchFile record) w)
    (hheld : w.batchLock = some t) (hmay : MayWrite t w record) :
    (storeDiscipline env).Tolerated t w w' := by
  rcases writeBatchFile_cases hs with ⟨-, rfl⟩ | ⟨-, rfl⟩
  · exact .refl hinv
  set w' : World := { w with files := w.files.insert record.id (.value record.saved) } with hw'
  have hself : w'.file? record.id = some (.value record.saved) := file?_insert_self w record _
  have hother {batch} (h : batch ≠ record.id) : w'.file? batch = w.file? batch :=
    file?_insert_of_ne w _ h
  -- only this batch comes to own new jobs
  have howned : ∀ batch job, OwnedBy w' batch job →
      OwnedBy w batch job ∨ batch = record.id ∧ Mine t w job := by
    rintro batch job ⟨found, hfile, howns⟩
    by_cases hbatch : batch = record.id
    swap
    · exact .inl ⟨found, hother hbatch ▸ hfile, howns⟩
    subst hbatch
    obtain rfl : record.saved = found := by simpa using hself.symm.trans hfile
    rw [owns_saved] at howns
    rcases hmay with hblank | ⟨old, hold, hrevision⟩
    · obtain ⟨item, hitem, hjob⟩ := howns
      rw [hblank.jobless item hitem] at hjob
      cases hjob
    · exact (hrevision.owns job howns).imp (fun h => ⟨old, hold, h⟩) fun h => ⟨rfl, h⟩
  have hlt : record.id < w.uuids.length := by
    rcases hmay with hblank | ⟨old, hold, -⟩
    · exact hblank.mine.lt
    · exact hinv.file_lt _ (by rw [hold]; rfl)
  have hlaid : Laid record.id record := by
    rcases hmay with hblank | ⟨old, hold, hrevision⟩
    · exact hblank.laid
    · exact hrevision.revises.laid (hinv.laid _ old hold) hrevision.jobs_nodup
  have hsettled : Settled w record := by
    rcases hmay with hblank | ⟨old, hold, hrevision⟩
    · intro _ item hitem hterminal
      rw [hblank.pending item hitem] at hterminal
      cases hterminal
    · exact hrevision.settled
  refine ⟨⟨fun id h => hinv.row_lt id h, fun batch h => ?_, fun batch job h => ?_,
    fun batch found h => ?_, fun batch found h => ?_, fun batch found h => ?_,
    fun batch batch' job h h' => ?_⟩,
    ⟨List.prefix_rfl, fun id row h => ⟨row, h, .refl id row⟩, fun batch found h => ?_,
      fun batch h => ?_, fun batch job hrow hnot h => ?_⟩,
    fun u hu => ⟨fun hheld' => ?_, fun id hid => ?_, rfl⟩⟩
  · by_cases hbatch : batch = record.id
    · exact hbatch ▸ hlt
    · exact hinv.file_lt batch (hother hbatch ▸ h)
  · rcases howned batch job h with h | ⟨-, h⟩
    · exact hinv.owned_lt batch job h
    · exact h.lt
  · by_cases hbatch : batch = record.id
    · subst hbatch
      obtain rfl : record.saved = found := by simpa using hself.symm.trans h
      exact hlaid.saved
    · exact hinv.laid batch found (hother hbatch ▸ h)
  · by_cases hbatch : batch = record.id
    · subst hbatch
      obtain rfl : record.saved = found := by simpa using hself.symm.trans h
      exact saved_saved record
    · exact hinv.saved batch found (hother hbatch ▸ h)
  · by_cases hbatch : batch = record.id
    · subst hbatch
      obtain rfl : record.saved = found := by simpa using hself.symm.trans h
      exact settled_saved hsettled
    · exact hinv.settled batch found (hother hbatch ▸ h)
  · rcases howned batch job h with ho | ⟨hb, hm⟩ <;>
      rcases howned batch' job h' with ho' | ⟨hb', hm'⟩
    · exact hinv.owner batch batch' job ho ho'
    · exact absurd ho (hm'.fresh.owned batch)
    · exact absurd ho' (hm.fresh.owned batch')
    · exact hb.trans hb'.symm
  · by_cases hbatch : batch = record.id
    · subst hbatch
      rcases hmay with hblank | ⟨old, hold, hrevision⟩
      · rw [hblank.mine.fresh.file] at h
        cases h
      · obtain rfl : old = found := by simpa using hold.symm.trans h
        exact ⟨_, hself, hrevision.revises.evolves.saved (hinv.saved _ old hold)⟩
    · exact ⟨found, (hother hbatch).trans h, .refl found⟩
  · have hbatch : batch ≠ record.id := by
      rintro rfl
      rcases hmay with hblank | ⟨old, hold, -⟩
      · rw [hblank.mine.fresh.file] at h
        cases h
      · simp [hold] at h
    exact (hother hbatch).trans h
  · rcases howned batch job h with h | ⟨-, h⟩
    · exact hnot h
    · rw [h.fresh.row] at hrow
      cases hrow
  · rw [hheld] at hheld'
    exact absurd (Option.some.inj hheld').symm hu
  · have hbatch : id ≠ record.id := by
      rintro rfl
      rcases hmay with hblank | ⟨old, hold, -⟩
      · exact hu (hblank.mine.unique hid)
      · rw [hid.fresh.file] at hold
        cases hold
    refine hid.mono List.prefix_rfl hid.fresh.row ((hother hbatch).trans hid.fresh.file)
      fun batch h => ?_
    rcases howned batch id h with h | ⟨-, h⟩
    · exact hid.fresh.owned batch h
    · exact hu (h.unique hid)

/-- Every command that has what it needs keeps to the discipline. -/
theorem tolerated_of_step (hinv : StoreInv w) {c : Cmd β} {b : β}
    (hs : (b, w') ∈ (studio env).step t c w) (hok : StoreOk t c w) :
    (storeDiscipline env).Tolerated t w w' := by
  by_cases hkind : c.kind ∈ [.insert, .update, .markDone, .writeBatch, .lock]
  swap
  · refine tolerated_of_quiet hinv hs (fun h => hkind ?_) fun u _ hu => ?_
    · exact (by decide : [Kind.insert, .update, .markDone, .writeBatch] ⊆
        [.insert, .update, .markDone, .writeBatch, .lock]) h
    · rwa [(frame_of_step hs).batchLock fun h => hkind (by rw [h]; decide)]
  cases c with
  | insertJob id row =>
    rcases insertJob_cases hs with ⟨-, rfl⟩ | ⟨-, hnone, rfl⟩
    · exact .refl hinv
    have hother {id'} (h : id' ≠ id) :
        World.row? { w with jobs := w.jobs.insert id row } id' = w.row? id' := by
      simp [World.row?, AList.lookup_insert_ne h]
    refine tolerated_of_files hinv hs (by simp) (fun id' row' hrow => ?_) (fun id' hid => ?_)
      fun _ _ h => h
    · have hne : id' ≠ id := by
        rintro rfl
        rw [hnone] at hrow
        cases hrow
      exact ⟨row', (hother hne).trans hrow, .refl id' row'⟩
    · by_cases hne : id' = id
      · exact .inr (hne ▸ hok)
      · exact .inl (hother hne ▸ hid)
  | updateJob id update =>
    rcases updateJob_cases hs with ⟨-, rfl⟩ | ⟨old, new, -, hold, hrun, rfl⟩
    · exact .refl hinv
    have hother {id'} (h : id' ≠ id) : (w.replaceRow t id old new).row? id' = w.row? id' :=
      row?_replaceRow_of_ne w t old new h
    refine tolerated_of_files hinv hs (by simp only [Cmd.kind]; split <;> decide)
      (fun id' row' hrow => ?_) (fun id' hid => ?_) fun _ _ h => h
    · by_cases hne : id' = id
      · subst hne
        obtain rfl : old = row' := Option.some.inj (hold.symm.trans hrow)
        exact ⟨new, by simp, .of_run hok.1 hrun⟩
      · exact ⟨row', (hother hne).trans hrow, .refl id' row'⟩
    · by_cases hne : id' = id
      · subst hne
        rw [hold]
        exact .inl rfl
      · exact .inl (hother hne ▸ hid)
  | writeBatchFile record => exact tolerated_of_write hinv hs hok.1 hok.2
  | acquireBatchLock =>
    refine tolerated_of_quiet hinv hs (by decide) fun u _ hu => ?_
    simp [step, hu] at hs
  | releaseBatchLock =>
    refine tolerated_of_quiet hinv hs (by decide) fun u hne hu => ?_
    exact absurd (Option.some.inj (hu.symm.trans hok)) hne
  | _ => simp at hkind

end Step

end CreativeStudio.Batches
