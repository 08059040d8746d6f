import CreativeStudio.Batches.Records
import CreativeStudio.Storage.Footprint

/-!
# The batch repository

One JSON file for each batch, and one lock around every read-modify-write. Reads outside
the lock see each file at a moment of its own. The lock is reentrant in the source; here
what runs under it calls the variants that do not take it again.
-/

namespace CreativeStudio.Batches
open Data Storage Conc

/-- Equality of records: field by field, with dictionaries compared as such. -/
def BatchRecord.Same (a b : BatchRecord) : Prop := a.saved = b.saved

instance (a b : BatchRecord) : Decidable (a.Same b) :=
  inferInstanceAs (Decidable (a.saved = b.saved))

/-- Some item of the record has the job id. -/
def BatchRecord.Owns (record : BatchRecord) (job : JobId) : Prop :=
  ∃ item ∈ record.items, item.jobId = some job

instance (record : BatchRecord) (job : JobId) : Decidable (record.Owns job) :=
  inferInstanceAs (Decidable (∃ item ∈ record.items, _))

namespace BatchRepository

/-- `run_exclusive`, and the `with self._lock` of every other method. -/
def runExclusive (p : App α) : App α := do
  Prog.exec .acquireBatchLock
  p.andFinally (Prog.exec .releaseBatchLock)

/-- `get`: a file that cannot be loaded reads as missing. -/
def get (id : BatchId) : App (Option BatchRecord) := do
  match ← Prog.exec (.readBatchFile id) with
  | .record record => pure (some record)
  | _ => pure none

/-- `get_or_diagnose`: whether a file that was not loaded may exist. -/
def getOrDiagnose (id : BatchId) : App (Option BatchRecord × Bool) := do
  match ← Prog.exec (.readBatchFile id) with
  | .record record => pure (some record, false)
  | .missing => pure (none, false)
  | .unreadable | .malformed => pure (none, true)

/-- `create`. -/
def create (record : BatchRecord) : App BatchRecord :=
  runExclusive do
    Prog.call (.writeBatchFile record)
    pure record

/-- The end of `mutate` and of `mutate_by_job_id_diagnosed`: a record that `fn` has not
changed is not written. -/
def saveChanged (current : Option BatchRecord) (updated : BatchRecord) : App BatchRecord := do
  if current.any fun snapshot => updated.Same snapshot then pure updated
  else
    Prog.call (.writeBatchFile updated)
    pure updated

/-- `mutate`. -/
def mutate (id : BatchId) (fn : Option BatchRecord → App (Option BatchRecord)) :
    App (Option BatchRecord) :=
  runExclusive do
    let current ← get id
    match ← fn current with
    | none => pure none
    | some updated => some <$> saveChanged current updated

/-- The result of reading the files of a scan. -/
structure Scan where
  records : List BatchRecord := []
  malformedIds : List BatchId := []
  /-- `scan_was_fully_reliable`. -/
  reliable : Bool := true

/-- The loop of `list_all_tolerant`. -/
def readFiles : List BatchId → App Scan
  | [] => pure {}
  | id :: rest => do
    let read ← Prog.exec (.readBatchFile id)
    let scan ← readFiles rest
    match read with
    | .record record => pure { scan with records := record :: scan.records }
    | .malformed => pure { scan with malformedIds := id :: scan.malformedIds }
    | .missing | .unreadable => pure { scan with reliable := false }

/-- `list_all_tolerant`. -/
def listAllTolerant : App Scan := do
  match ← (Prog.call .scanBatchFiles).attempt with
  | .error _ => pure { reliable := false }
  | .ok ids => readFiles ids

/-- `find_by_job_id_or_diagnose`: no owner found, and whether that is certain. -/
def findByJobIdOrDiagnose (job : JobId) : App (Option BatchRecord × Bool) := do
  let scan ← listAllTolerant
  match scan.records.find? fun record => record.Owns job with
  | some record => pure (some record, false)
  | none => pure (none, !scan.malformedIds.isEmpty || !scan.reliable)

/-- `mutate_by_job_id_diagnosed`. -/
def mutateByJobIdDiagnosed (job : JobId) (fn : BatchRecord → App BatchRecord) :
    App (Option BatchRecord × Bool) :=
  runExclusive do
    match ← findByJobIdOrDiagnose job with
    | (none, uncertain) => pure (none, uncertain)
    | (some current, _) => do
      let updated ← fn current
      let saved ← saveChanged (some current) updated
      pure (some saved, false)

/-! ### Footprints -/

section Footprints
variable {kinds : List Kind}

@[simp] theorem within_runExclusive {p : App α} (hp : Within kinds p) (h : .lock ∈ kinds) :
    Within kinds (runExclusive p) := by
  simp [runExclusive, hp, h]

@[simp] theorem within_get (id : BatchId) (h : .read ∈ kinds) : Within kinds (get id) := by
  unfold get
  rw [within_bind, within_exec]
  refine ⟨⟨h, trivial⟩, fun read _ => ?_⟩
  cases read <;> exact within_ret _

@[simp] theorem within_getOrDiagnose (id : BatchId) (h : .read ∈ kinds) :
    Within kinds (getOrDiagnose id) := by
  unfold getOrDiagnose
  rw [within_bind, within_exec]
  refine ⟨⟨h, trivial⟩, fun read _ => ?_⟩
  cases read <;> exact within_ret _

@[simp] theorem within_create (record : BatchRecord) (h : [.lock, .writeBatch] ⊆ kinds) :
    Within kinds (create record) := by
  simp only [List.cons_subset] at h
  simp [create, h]

@[simp] theorem within_saveChanged (current : Option BatchRecord) (updated : BatchRecord)
    (h : .writeBatch ∈ kinds) : Within kinds (saveChanged current updated) := by
  simp [saveChanged, h]

theorem within_mutate {id : BatchId} {fn : Option BatchRecord → App (Option BatchRecord)}
    (hfn : ∀ record, Within kinds (fn record)) (h : [.read, .lock, .writeBatch] ⊆ kinds) :
    Within kinds (mutate id fn) := by
  simp only [List.cons_subset] at h
  simp [mutate, Option.forall, hfn, h]

theorem within_readFiles (ids : List BatchId) (h : .read ∈ kinds) :
    Within kinds (readFiles ids) := by
  induction ids with
  | nil => exact within_ret _
  | cons id rest ih =>
    simp only [readFiles, within_bind, within_exec, ih, true_and]
    refine ⟨⟨h, trivial⟩, fun read _ scan _ => ?_⟩
    cases read <;> exact within_ret _

@[simp] theorem within_listAllTolerant (h : .read ∈ kinds) : Within kinds listAllTolerant := by
  have hread (ids) : Within kinds (readFiles ids) := within_readFiles ids h
  simp [listAllTolerant, except_forall, hread, h]

@[simp] theorem within_findByJobIdOrDiagnose (job : JobId) (h : .read ∈ kinds) :
    Within kinds (findByJobIdOrDiagnose job) := by
  unfold findByJobIdOrDiagnose
  rw [within_bind]
  refine ⟨within_listAllTolerant h, fun scan _ => ?_⟩
  split <;> exact within_ret _

theorem within_mutateByJobIdDiagnosed {job : JobId} {fn : BatchRecord → App BatchRecord}
    (hfn : ∀ record, Within kinds (fn record)) (h : [.read, .lock, .writeBatch] ⊆ kinds) :
    Within kinds (mutateByJobIdDiagnosed job fn) := by
  simp only [List.cons_subset] at h
  simp [mutateByJobIdDiagnosed, Prod.forall, Option.forall, hfn, h]

end Footprints

end BatchRepository

end CreativeStudio.Batches
