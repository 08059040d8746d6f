import CreativeStudio.Batches.Repository
import Mathlib.Data.List.Sort

/-!
# Looking batches up

A lookup reads files that may be malformed, may fail to be read, or may be gone when their turn comes.
What it answers tells a batch that does not exist from one that it could not see. Here a file is what is
on the disk when it is looked at, together with what the system makes of the attempt.
-/

namespace CreativeStudio.Batches
open Data Storage

/-- An `OSError`, and whether it is a `FileNotFoundError`. -/
inductive OsError
  | notFound | other
  deriving DecidableEq, Repr

/-- A batch with the time of its last save. -/
structure StampedBatch where
  record : BatchRecord
  updatedAt : ℕ
  deriving DecidableEq, Repr

/-- What is on the disk under one name when it is statted and when it is read, and whether the system
fails to say so. -/
structure FileView where
  atStat : Option (Column StampedBatch)
  atRead : Option (Column StampedBatch)
  statFails : Bool := false
  readFails : Bool := false

namespace FileView

/-- `batch_file.stat()`. -/
def stat (view : FileView) : Except OsError Unit :=
  if view.statFails then .error .other else if view.atStat.isNone then .error .notFound else .ok ()

/-- `batch_file.read_text()`. -/
def readText (view : FileView) : Except OsError (Column StampedBatch) :=
  if view.readFails then .error .other
  else match view.atRead with
    | none => .error .notFound
    | some content => .ok content

/-- `_try_load_diagnosed`. -/
def tryLoadDiagnosed (view : FileView) : Option StampedBatch × Bool :=
  match view.readText with
  | .ok (.value batch) => (some batch, false)
  | .ok .malformed => (none, false)
  | .error _ => (none, true)

/-- The file may belong to a batch that owns the job: it does, or there is no telling. -/
def CouldOwn (view : FileView) (job : JobId) : Prop :=
  ∃ content, view.atRead = some content ∧ ∀ batch, content = .value batch → batch.record.Owns job

end FileView

/-- The batch directory while it is scanned. -/
structure BatchDirectory where
  /-- The names in it, in the order of the system. -/
  entries : List String
  /-- `os.scandir` fails, at once or on the way. -/
  enumerationFails : Bool := false
  view : String → FileView
  nodup : entries.Nodup

/-- `name.endswith(".json")`. -/
def isBatchFile (name : String) : Bool := ".json".toList.isSuffixOf name.toList

/-- `Path(name).stem` of a name that ends in `.json`. -/
def stem (name : String) : String :=
  if name = ".json" then name else String.ofList (name.toList.take (name.toList.length - 5))

/-- What `list_all_tolerant` returns. -/
structure TolerantScan where
  records : List StampedBatch := []
  malformedIds : List String := []
  /-- `scan_was_fully_reliable`. -/
  reliable : Bool := true

namespace BatchDirectory

/-- `sorted(...)` of the batch files, or the failure of the enumeration. -/
def enumerate (dir : BatchDirectory) : Except OsError (List String) :=
  if dir.enumerationFails then .error .other
  else .ok ((dir.entries.filter isBatchFile).insertionSort fun a b => a ≤ b)

/-- The record is of another project than the one that is asked for. -/
def otherProject (projectId : Option String) (record : BatchRecord) : Bool :=
  (projectId.filter fun id => id ≠ "").any fun id => record.spec.projectId ≠ some id

/-- One turn of the loop of `list_all_tolerant`. -/
def scanFile (dir : BatchDirectory) (projectId : Option String) (scan : TolerantScan) (name : String) : TolerantScan :=
  match (dir.view name).tryLoadDiagnosed with
  | (none, true) => { scan with reliable := false }
  | (none, false) => { scan with malformedIds := scan.malformedIds ++ [stem name] }
  | (some batch, _) =>
    if otherProject projectId batch.record then scan else { scan with records := scan.records ++ [batch] }

/-- `list_all_tolerant`. -/
def listAllTolerant (dir : BatchDirectory) (projectId : Option String := none) : TolerantScan :=
  match dir.enumerate with
  | .error _ => { reliable := false }
  | .ok names =>
    let scan := names.foldl (dir.scanFile projectId) {}
    { scan with records := scan.records.insertionSort fun a b => b.updatedAt ≤ a.updatedAt }

/-- `find_by_job_id_or_diagnose`. -/
def findByJobIdOrDiagnose (dir : BatchDirectory) (job : JobId) : Option StampedBatch × Bool :=
  let scan := dir.listAllTolerant
  match scan.records.find? fun batch => batch.record.Owns job with
  | some batch => (some batch, false)
  | none => (none, !scan.malformedIds.isEmpty || !scan.reliable)

/-- `get_or_diagnose`. -/
def getOrDiagnose (dir : BatchDirectory) (batchId : String) : Option StampedBatch × Bool :=
  let view := dir.view (batchId ++ ".json")
  match view.stat with
  | .error .notFound => (none, false)
  | .error .other => (none, true)
  | .ok () => match view.tryLoadDiagnosed with
    | (some batch, _) => (some batch, false)
    | (none, _) => (none, true)

/-- `save`: the record gets the time and is written. -/
def save (write : StampedBatch → Except Exc Unit) (now : ℕ) (batch : StampedBatch) : Except Exc StampedBatch := do
  let updated := { batch with updatedAt := now }
  write updated
  return updated

/-- `mutate_by_job_id_diagnosed`. -/
def mutateByJobIdDiagnosed (dir : BatchDirectory) (write : StampedBatch → Except Exc Unit) (now : ℕ) (job : JobId)
    (fn : StampedBatch → Except Exc (Option StampedBatch)) : Except Exc (Option StampedBatch × Bool) :=
  match dir.findByJobIdOrDiagnose job with
  | (none, uncertain) => .ok (none, uncertain)
  | (some current, _) => do
    match ← fn current with
    | none => return (none, false)
    | some updated =>
      if updated.updatedAt = current.updatedAt ∧ updated.record.Same current.record then return (some updated, false)
      else
        let saved ← save write now updated
        return (some saved, false)

/-! ## What a scan reports -/

/-- The files of the directory that are batch files. -/
def batchFiles (dir : BatchDirectory) : List String := dir.entries.filter isBatchFile

/-- The batch that a file yields. -/
def loaded (dir : BatchDirectory) (name : String) : Option StampedBatch := (dir.view name).tryLoadDiagnosed.1

/-- The content of a file does not validate. -/
def Malformed (dir : BatchDirectory) (name : String) : Prop := (dir.view name).tryLoadDiagnosed = (none, false)

/-- A file fails to be read. -/
def Transient (dir : BatchDirectory) (name : String) : Prop := (dir.view name).tryLoadDiagnosed = (none, true)

instance (dir : BatchDirectory) (name : String) : Decidable (dir.Malformed name) :=
  inferInstanceAs (Decidable (_ = _))

instance (dir : BatchDirectory) (name : String) : Decidable (dir.Transient name) :=
  inferInstanceAs (Decidable (_ = _))

section
variable {dir : BatchDirectory} {job : JobId} {name : String} {batch : StampedBatch}

/-- A file is loaded, malformed, or not read. -/
theorem load_cases (dir : BatchDirectory) (name : String) :
    (∃ batch, (dir.view name).tryLoadDiagnosed = (some batch, false)) ∨ dir.Malformed name ∨ dir.Transient name := by
  unfold Malformed Transient FileView.tryLoadDiagnosed
  rcases (dir.view name).readText with e | batch | _
  · exact .inr (.inr rfl)
  · exact .inl ⟨batch, rfl⟩
  · exact .inr (.inl rfl)

theorem loaded_eq_some : dir.loaded name = some batch ↔ (dir.view name).tryLoadDiagnosed = (some batch, false) := by
  unfold loaded
  rcases dir.load_cases name with ⟨batch', h⟩ | h | h
  · simp [h]
  · simp [show _ = _ from h]
  · simp [show _ = _ from h]

theorem loaded_eq_none : dir.loaded name = none ↔ dir.Malformed name ∨ dir.Transient name := by
  unfold loaded Malformed Transient
  rcases dir.load_cases name with ⟨batch', h⟩ | h | h
  · simp [h]
  · simp [show _ = _ from h]
  · simp [show _ = _ from h]

/-- What is loaded is what the file held when it was read. -/
theorem atRead_of_loaded (h : dir.loaded name = some batch) : (dir.view name).atRead = some (.value batch) := by
  rw [loaded_eq_some] at h
  unfold FileView.tryLoadDiagnosed FileView.readText at h
  split at h
  next batch' hread =>
    split at hread
    · cases hread
    · split at hread
      · cases hread
      next content hcontent =>
        rw [hcontent, Except.ok.inj hread]
        cases h
        rfl
  next => cases h
  next => cases h

/-- A file that is loaded and does not name the job cannot own it. -/
theorem not_couldOwn_of_loaded (h : dir.loaded name = some batch) (hnot : ¬ batch.record.Owns job) :
    ¬ (dir.view name).CouldOwn job := by
  rintro ⟨content, hcontent, howns⟩
  rw [atRead_of_loaded h] at hcontent
  exact hnot (howns batch (Option.some.inj hcontent).symm)

/-- What the loop has collected. -/
theorem foldl_scanFile (dir : BatchDirectory) (projectId : Option String) (names : List String) (scan : TolerantScan) :
    names.foldl (dir.scanFile projectId) scan = {
      records := scan.records ++
        (names.filterMap dir.loaded).filter fun batch => !otherProject projectId batch.record
      malformedIds := scan.malformedIds ++ (names.filter fun name => dir.Malformed name).map stem
      reliable := scan.reliable && names.all fun name => !decide (dir.Transient name) } := by
  induction names generalizing scan with
  | nil => simp
  | cons name rest ih =>
    rw [List.foldl_cons, ih]
    rcases dir.load_cases name with ⟨batch, h⟩ | h | h
    · have hloaded := loaded_eq_some.mpr h
      have hmalformed : ¬ dir.Malformed name := by simp [Malformed, h]
      have htransient : ¬ dir.Transient name := by simp [Transient, h]
      by_cases hother : otherProject projectId batch.record
      · simp [scanFile, h, hloaded, hmalformed, htransient, hother]
      · simp [scanFile, h, hloaded, hmalformed, htransient, hother]
    · have hloaded := loaded_eq_none.mpr (.inl h)
      have htransient : ¬ dir.Transient name := by simp [Transient, show _ = _ from h]
      simp [scanFile, show _ = _ from h, hloaded, h, htransient]
    · have hloaded := loaded_eq_none.mpr (.inr h)
      have hmalformed : ¬ dir.Malformed name := by simp [Malformed, show _ = _ from h]
      simp [scanFile, show _ = _ from h, hloaded, h, hmalformed]

/-- The files in the order of the scan. -/
theorem perm_batchFiles (dir : BatchDirectory) :
    ((dir.entries.filter isBatchFile).insertionSort fun a b => a ≤ b).Perm dir.batchFiles :=
  List.perm_insertionSort _ _

/-- **A scan reports each file once**: as a record, unless another project is asked for, as a malformed id, or as
a failure. -/
theorem listAllTolerant_reports (dir : BatchDirectory) (projectId : Option String) :
    (dir.enumerationFails = true → dir.listAllTolerant projectId = { reliable := false }) ∧
      (dir.enumerationFails = false →
        (dir.listAllTolerant projectId).records.Perm
          ((dir.batchFiles.filterMap dir.loaded).filter fun batch => !otherProject projectId batch.record) ∧
        (dir.listAllTolerant projectId).malformedIds.Perm
          ((dir.batchFiles.filter fun name => dir.Malformed name).map stem) ∧
        ((dir.listAllTolerant projectId).reliable = true ↔ ∀ name ∈ dir.batchFiles, ¬ dir.Transient name)) := by
  refine ⟨fun h => by simp [listAllTolerant, enumerate, h], fun h => ?_⟩
  have hperm := dir.perm_batchFiles
  simp only [listAllTolerant, enumerate, h, Bool.false_eq_true, if_false, foldl_scanFile, List.nil_append,
    Bool.true_and]
  refine ⟨?_, ?_, ?_⟩
  · exact (List.perm_insertionSort _ _).trans ((hperm.filterMap _).filter _)
  · exact (hperm.filter _).map _
  · simp only [List.all_eq_true, Bool.not_eq_true', decide_eq_false_iff_not]
    exact ⟨fun hall name hname => hall name (hperm.mem_iff.mpr hname),
      fun hall name hname => hall name (hperm.mem_iff.mp hname)⟩

/-- Without a project each file counts for one. -/
theorem count_reports (dir : BatchDirectory) (h : dir.enumerationFails = false) :
    dir.listAllTolerant.records.length + dir.listAllTolerant.malformedIds.length +
      (dir.batchFiles.filter fun name => dir.Transient name).length = dir.batchFiles.length := by
  obtain ⟨hrecords, hmalformed, -⟩ := (dir.listAllTolerant_reports none).2 h
  rw [hrecords.length_eq, hmalformed.length_eq, List.length_map]
  generalize dir.batchFiles = names
  induction names with
  | nil => rfl
  | cons name rest ih =>
    have hall : ∀ batch : StampedBatch, (!otherProject none batch.record) = true := fun batch => rfl
    simp only [hall, List.filter_true] at ih ⊢
    rcases dir.load_cases name with ⟨batch, hload⟩ | hload | hload
    · have hmalformed : ¬ dir.Malformed name := by simp [Malformed, hload]
      have htransient : ¬ dir.Transient name := by simp [Transient, hload]
      simp only [List.filterMap_cons, loaded_eq_some.mpr hload, List.length_cons, List.filter_cons, hmalformed,
        htransient, decide_false, Bool.false_eq_true, if_false]
      omega
    · have htransient : ¬ dir.Transient name := by simp [Transient, show _ = _ from hload]
      simp only [List.filterMap_cons, loaded_eq_none.mpr (.inl hload), List.filter_cons, hload, htransient,
        decide_false, decide_true, Bool.false_eq_true, if_false, if_true, List.length_cons]
      omega
    · have hmalformed : ¬ dir.Malformed name := by simp [Malformed, show _ = _ from hload]
      simp only [List.filterMap_cons, loaded_eq_none.mpr (.inr hload), List.filter_cons, hload, hmalformed,
        decide_false, decide_true, Bool.false_eq_true, if_false, if_true, List.length_cons]
      omega

/-! ## What a lookup is certain of -/

theorem mem_records :
    batch ∈ dir.listAllTolerant.records ↔
      dir.enumerationFails = false ∧ ∃ name ∈ dir.batchFiles, dir.loaded name = some batch := by
  obtain ⟨hfails, hreports⟩ := dir.listAllTolerant_reports none
  cases h : dir.enumerationFails with
  | true => simp [hfails h]
  | false =>
    rw [(hreports h).1.mem_iff]
    simp [otherProject]

/-- Nothing that was looked at is in doubt. -/
theorem scan_certain :
    (!dir.listAllTolerant.malformedIds.isEmpty || !dir.listAllTolerant.reliable) = false ↔
      dir.enumerationFails = false ∧ ∀ name ∈ dir.batchFiles, (dir.loaded name).isSome := by
  obtain ⟨hfails, hreports⟩ := dir.listAllTolerant_reports none
  cases h : dir.enumerationFails with
  | true => simp [hfails h]
  | false =>
    obtain ⟨-, hmalformed, hreliable⟩ := hreports h
    rw [Bool.or_eq_false_iff, Bool.not_eq_false', Bool.not_eq_false', List.isEmpty_iff, hreliable]
    have hempty : dir.listAllTolerant.malformedIds = [] ↔ ∀ name ∈ dir.batchFiles, ¬ dir.Malformed name := by
      rw [← List.length_eq_zero_iff, hmalformed.length_eq, List.length_eq_zero_iff, List.map_eq_nil_iff,
        List.filter_eq_nil_iff]
      simp
    rw [hempty]
    constructor
    · rintro ⟨hnone, hread⟩
      refine ⟨rfl, fun name hname => Option.isSome_iff_ne_none.mpr fun hloaded => ?_⟩
      exact (loaded_eq_none.mp hloaded).elim (hnone name hname) (hread name hname)
    · rintro ⟨-, hall⟩
      refine ⟨fun name hname h => ?_, fun name hname h => ?_⟩
      · have hsome := hall name hname
        rw [loaded_eq_none.mpr (.inl h)] at hsome
        cases hsome
      · have hsome := hall name hname
        rw [loaded_eq_none.mpr (.inr h)] at hsome
        cases hsome

/-- The owner of the job, if there is one, could be what a failure hides. -/
def Hidden (dir : BatchDirectory) (job : JobId) : Prop :=
  dir.enumerationFails = true ∨
    (∀ name ∈ dir.batchFiles, ∀ batch, dir.loaded name = some batch → ¬ batch.record.Owns job) ∧
      ∃ name ∈ dir.batchFiles, dir.loaded name = none

/-- What `find_by_job_id_or_diagnose` can answer. -/
theorem find_cases (dir : BatchDirectory) (job : JobId) :
    (∃ batch, dir.findByJobIdOrDiagnose job = (some batch, false) ∧ batch.record.Owns job ∧
      dir.enumerationFails = false ∧ ∃ name ∈ dir.batchFiles, dir.loaded name = some batch) ∨
    (dir.findByJobIdOrDiagnose job = (none, true) ∧ dir.Hidden job) ∨
    (dir.findByJobIdOrDiagnose job = (none, false) ∧ dir.enumerationFails = false ∧
      ∀ name ∈ dir.batchFiles, ∃ batch, dir.loaded name = some batch ∧ ¬ batch.record.Owns job) := by
  unfold findByJobIdOrDiagnose
  simp only
  cases hfind : dir.listAllTolerant.records.find? fun batch => batch.record.Owns job with
  | some batch =>
    have howns : batch.record.Owns job := by simpa using List.find?_some hfind
    obtain ⟨henum, hfile⟩ := mem_records.mp (List.mem_of_find?_eq_some hfind)
    exact .inl ⟨batch, rfl, howns, henum, hfile⟩
  | none =>
    have hnone : ∀ batch ∈ dir.listAllTolerant.records, ¬ batch.record.Owns job := by
      simpa using List.find?_eq_none.mp hfind
    refine .inr ?_
    cases hcertain : !dir.listAllTolerant.malformedIds.isEmpty || !dir.listAllTolerant.reliable with
    | false =>
      obtain ⟨henum, hall⟩ := scan_certain.mp hcertain
      refine .inr ⟨rfl, henum, fun name hname => ?_⟩
      obtain ⟨batch, hbatch⟩ := Option.isSome_iff_exists.mp (hall name hname)
      exact ⟨batch, hbatch, hnone batch (mem_records.mpr ⟨henum, name, hname, hbatch⟩)⟩
    | true =>
      refine .inl ⟨rfl, ?_⟩
      cases henum : dir.enumerationFails with
      | true => exact .inl henum
      | false =>
        refine .inr ⟨fun name hname batch hbatch => hnone batch (mem_records.mpr ⟨henum, name, hname, hbatch⟩), ?_⟩
        by_contra hall
        refine Bool.noConfusion (hcertain.symm.trans (scan_certain.mpr ⟨henum, fun name hname => ?_⟩))
        exact Option.isSome_iff_ne_none.mpr fun hloaded => hall ⟨name, hname, hloaded⟩

/-- A lookup that says so has seen every file. -/
theorem find_eq_absent (h : dir.findByJobIdOrDiagnose job = (none, false)) :
    dir.enumerationFails = false ∧
      ∀ name ∈ dir.batchFiles, (dir.view name).atRead.isSome ∧ ¬ (dir.view name).CouldOwn job := by
  rcases dir.find_cases job with ⟨batch, hfind, -⟩ | ⟨hfind, -⟩ | ⟨-, henum, hall⟩
  · rw [hfind] at h
    cases h
  · rw [hfind] at h
    cases h
  · refine ⟨henum, fun name hname => ?_⟩
    obtain ⟨batch, hloaded, hnot⟩ := hall name hname
    refine ⟨?_, not_couldOwn_of_loaded hloaded hnot⟩
    rw [atRead_of_loaded hloaded]
    rfl

/-- A batch that is returned owns the job. -/
theorem find_eq_found {uncertain : Bool} (h : dir.findByJobIdOrDiagnose job = (some batch, uncertain)) :
    batch.record.Owns job ∧ ∃ name ∈ dir.batchFiles, (dir.view name).atRead = some (.value batch) := by
  rcases dir.find_cases job with ⟨batch', hfind, howns, -, name, hname, hloaded⟩ | ⟨hfind, -⟩ | ⟨hfind, -⟩
  · rw [hfind] at h
    cases h
    exact ⟨howns, name, hname, atRead_of_loaded hloaded⟩
  · rw [hfind] at h
    cases h
  · rw [hfind] at h
    cases h

/-- Only a name that is not there is reported to be gone. -/
theorem getOrDiagnose_eq_absent {batchId : String} (h : dir.getOrDiagnose batchId = (none, false)) :
    (dir.view (batchId ++ ".json")).atStat = none := by
  unfold getOrDiagnose at h
  simp only at h
  split at h
  next hstat =>
    unfold FileView.stat at hstat
    split at hstat
    · cases hstat
    · split at hstat
      next hnone => exact Option.isNone_iff_eq_none.mp hnone
      next => cases hstat
  next => cases h
  next =>
    split at h
    · cases h
    · cases h

/-- A mutation answers that it does not know exactly when the owner could be hidden. -/
theorem mutateByJobIdDiagnosed_eq_unsure {write : StampedBatch → Except Exc Unit} {now : ℕ}
    {fn : StampedBatch → Except Exc (Option StampedBatch)} :
    dir.mutateByJobIdDiagnosed write now job fn = .ok (none, true) ↔ dir.Hidden job := by
  unfold mutateByJobIdDiagnosed
  rcases dir.find_cases job with ⟨batch, hfind, howns, henum, name, hname, hloaded⟩ | ⟨hfind, hhidden⟩ |
    ⟨hfind, henum, hall⟩
  · rw [hfind]
    have hnot : ¬ dir.Hidden job := by
      rintro (hfails | ⟨hnone, -⟩)
      · rw [henum] at hfails
        cases hfails
      · exact hnone name hname batch hloaded howns
    simp only [hnot, iff_false]
    intro h
    obtain ⟨updated, -, h⟩ := bind_eq_ok.mp h
    cases updated with
    | none => cases h
    | some updated =>
      simp only at h
      split at h
      · cases h
      · obtain ⟨saved, -, h⟩ := bind_eq_ok.mp h
        cases h
  · rw [hfind]
    exact iff_of_true rfl hhidden
  · rw [hfind]
    have hnot : ¬ dir.Hidden job := by
      rintro (hfails | ⟨-, name, hname, hnone⟩)
      · rw [henum] at hfails
        cases hfails
      · obtain ⟨batch, hloaded, -⟩ := hall name hname
        rw [hloaded] at hnone
        cases hnone
    simp [hnot]

end

/-- **Absence is only reported when it is certain**, and whatever could hide the owner of a job is reported. -/
theorem absence_certain (dir : BatchDirectory) :
    (∀ job, dir.findByJobIdOrDiagnose job = (none, false) → dir.enumerationFails = false ∧
      ∀ name ∈ dir.batchFiles, (dir.view name).atRead.isSome ∧ ¬ (dir.view name).CouldOwn job) ∧
    (∀ job batch uncertain, dir.findByJobIdOrDiagnose job = (some batch, uncertain) → batch.record.Owns job ∧
      ∃ name ∈ dir.batchFiles, (dir.view name).atRead = some (.value batch)) ∧
    (∀ batchId, dir.getOrDiagnose batchId = (none, false) → (dir.view (batchId ++ ".json")).atStat = none) ∧
    (∀ write now job fn, dir.mutateByJobIdDiagnosed write now job fn = .ok (none, true) ↔ dir.Hidden job) ∧
    (dir.enumerationFails = true → ∀ projectId, dir.listAllTolerant projectId = { reliable := false }) ∧
    (dir.enumerationFails = false →
      (∀ projectId, (dir.listAllTolerant projectId).records.Perm
          ((dir.batchFiles.filterMap dir.loaded).filter fun batch => !otherProject projectId batch.record) ∧
        (dir.listAllTolerant projectId).malformedIds.Perm
          ((dir.batchFiles.filter fun name => dir.Malformed name).map stem) ∧
        ((dir.listAllTolerant projectId).reliable = true ↔ ∀ name ∈ dir.batchFiles, ¬ dir.Transient name)) ∧
      dir.listAllTolerant.records.length + dir.listAllTolerant.malformedIds.length +
        (dir.batchFiles.filter fun name => dir.Transient name).length = dir.batchFiles.length) := by
  refine ⟨fun job => find_eq_absent, fun job batch uncertain => find_eq_found, fun batchId => getOrDiagnose_eq_absent,
    fun write now job fn => mutateByJobIdDiagnosed_eq_unsure, fun h projectId => ?_, fun h => ⟨fun projectId => ?_, ?_⟩⟩
  · exact (dir.listAllTolerant_reports projectId).1 h
  · exact (dir.listAllTolerant_reports projectId).2 h
  · exact dir.count_reports h

end BatchDirectory

end CreativeStudio.Batches
