import CreativeStudio.Story.Slots

/-!
# The race for a slot

Jobs that were asked for one slot succeed in any order. A completion that is handled live
overwrites the slot; one that was lost is converged later, from an index of the candidates
that may be shared by a whole pass, and fills the slot if it is still empty. A ledger keeps
what the schedule says about the jobs, and from the ledger alone one can tell who holds the
slot: `Tracks` connects it to the stores.
-/

namespace CreativeStudio.Story
open Data Jobs Assets Batches Storage

/-- What happens around a slot. A live completion is `succeed`, `sync`, `bind`, `converge`,
and a crash may cut it short anywhere; a pass over the lost completions is a `snapshot` and
a `converge` for each of them. -/
inductive Event
  | create (job : JobRecord)
  | advance (id : JobId) (status : GenerationStatus)
  | succeed (id : JobId) (result : GenerationResult)
  | sync (id : JobId)
  | bind (id : JobId)
  | snapshot
  | converge (id : JobId) (shared retryable : Bool)
  deriving Repr

/-! ## The stores -/

/-- The stores, and the index that the current pass shares. -/
structure Stage where
  shelves : Shelves
  index : SceneCandidateIndex

/-- The row that `mark_succeeded` writes. -/
def succeededRow (job : JobRecord) (result : GenerationResult) : JobRecord :=
  { job with
    status := .succeeded
    progress := 1
    result := some { result with jobId := job.id }
    errorMessage := none }

/-- Replace the row of a job. -/
def Shelves.setRow (s : Shelves) (id : JobId) (job : JobRecord) : Shelves :=
  { s with jobs := s.jobs.insert id (.record job) }

/-- What an event does to the stores. -/
def Stage.step (lib : Library) (st : Stage) : Event → Stage
  | .create job =>
    if st.shelves.jobs.lookup job.id = none then { st with shelves := st.shelves.setRow job.id job } else st
  | .advance id status => match st.shelves.job? id with
    | some job =>
      if job.status.isValidTransition status ∧ status ≠ .succeeded then
        { st with shelves := st.shelves.setRow id { job with status } }
      else st
    | none => st
  | .succeed id result => match st.shelves.job? id with
    | some job =>
      if job.status = .postprocessing then
        { st with shelves := st.shelves.setRow id (succeededRow job result) }
      else st
    | none => st
  | .sync id => match st.shelves.job? id with
    | some job => { st with shelves := (syncJob lib job st.shelves).2 }
    | none => st
  | .bind id => { st with shelves := (bindJob false id st.shelves).2 }
  | .snapshot => { st with index := buildSceneCandidateIndex st.shelves }
  | .converge id shared retryable =>
    { st with shelves :=
        (convergeJob lib id (if shared then some st.index else none) retryable st.shelves).2 }

/-- What a schedule does to the stores. -/
def Stage.run (lib : Library) (st : Stage) (events : List Event) : Stage :=
  events.foldl (Stage.step lib) st

/-! ## The ledger -/

/-- What the schedule has said about the jobs for the slot: which have succeeded with an
output, which were synchronised, which are in the index of the pass, which were converged,
and which of these for good. -/
structure Ledger where
  completed : List JobId := []
  synced : List JobId := []
  snapshot : List JobId := []
  converged : List JobId := []
  settled : List JobId := []
  deriving DecidableEq, Repr

/-- What an event adds to the ledger. -/
def Ledger.step (l : Ledger) : Event → Ledger
  | .create _ => l
  | .advance _ _ => l
  | .succeed id _ => { l with completed := id :: l.completed }
  | .sync id => if id ∈ l.completed then { l with synced := id :: l.synced } else l
  | .bind _ => l
  | .snapshot => { l with snapshot := l.completed }
  | .converge id _ retryable =>
    if id ∈ l.completed then
      { l with
        converged := id :: l.converged
        settled := if retryable then l.settled else id :: l.settled }
    else l

/-- What a schedule adds to the ledger. -/
def Ledger.run (l : Ledger) (events : List Event) : Ledger := events.foldl Ledger.step l

/-- A job ranks by its creation time, and then by its id. -/
def standing (created : JobId → ℕ) (id : JobId) : ℕ ×ₗ ℕ := toLex (created id, id)

/-- The candidates that a convergence looks at. -/
def Ledger.candidates (l : Ledger) (shared : Bool) : List JobId :=
  if shared then l.snapshot else l.completed

/-- The convergence takes a slot that is still empty: its job has not given up, and is the
newest of the candidates that the convergence looks at. -/
def Ledger.Takes (created : JobId → ℕ) (l : Ledger) (id : JobId) (shared : Bool) : Prop :=
  id ∈ l.completed ∧ id ∉ l.settled ∧ ∀ other ∈ l.candidates shared, standing created other ≤ standing created id

instance (created : JobId → ℕ) (l : Ledger) (id : JobId) (shared : Bool) :
    Decidable (l.Takes created id shared) := by
  unfold Ledger.Takes
  infer_instance

/-- Who holds the slot after an event. `tainted` says that an undecodable row may be for
the slot. -/
def holderStep (created : JobId → ℕ) (tainted : Bool) (l : Ledger) (holder : Option JobId) :
    Event → Option JobId
  | .bind id => some id
  | .converge id shared _ =>
    if holder = none ∧ tainted = false ∧ l.Takes created id shared then some id else holder
  | _ => holder

/-- Who holds the slot after a schedule. -/
def holderRun (created : JobId → ℕ) (tainted : Bool) : Ledger → Option JobId → List Event → Option JobId
  | _, holder, [] => holder
  | l, holder, e :: rest =>
    holderRun created tainted (l.step e) (holderStep created tainted l holder e) rest

/-! ## What the schedule decides -/

section Schedule
variable {created : JobId → ℕ} {tainted : Bool} {l : Ledger} {events : List Event} {newest : JobId}

/-- The schedule has no live binding. -/
def NoneLive (events : List Event) : Prop := ∀ id, Event.bind id ∉ events

/-- The last live binding is of the job. -/
def LastLive (id : JobId) (events : List Event) : Prop :=
  ∃ before after, events = before ++ .bind id :: after ∧ NoneLive after

/-- Before the first convergence of the job, no convergence takes the slot. -/
def Unhurried (created : JobId → ℕ) (newest : JobId) : Ledger → List Event → Prop
  | _, [] => True
  | l, e :: rest => (∀ id shared retryable, e = .converge id shared retryable → l.Takes created id shared →
      id = newest ∨ newest ∈ l.converged) ∧ Unhurried created newest (l.step e) rest

theorem holderRun_append (l : Ledger) (holder : Option JobId) (before after : List Event) :
    holderRun created tainted l holder (before ++ after) =
      holderRun created tainted (l.run before) (holderRun created tainted l holder before) after := by
  induction before generalizing l holder with
  | nil => rfl
  | cons e rest ih => exact ih (l.step e) _

/-- A slot that is taken changes hands by live bindings only. -/
theorem holderRun_of_noneLive {held : JobId} (h : NoneLive events) :
    holderRun created tainted l (some held) events = some held := by
  induction events generalizing l with
  | nil => rfl
  | cons e rest ih =>
    have hstep : holderStep created tainted l (some held) e = some held := by
      cases e with
      | bind id => exact absurd List.mem_cons_self (h id)
      | converge id shared retryable => simp [holderStep]
      | _ => rfl
    rw [holderRun, hstep]
    exact ih fun id hmem => h id (List.mem_cons_of_mem e hmem)

theorem holderRun_of_lastLive {id : JobId} (h : LastLive id events) (holder : Option JobId) :
    holderRun created tainted l holder events = some id := by
  obtain ⟨before, after, rfl, hafter⟩ := h
  rw [holderRun_append, holderRun]
  exact holderRun_of_noneLive hafter

theorem LastLive.inj {id id' : JobId} (h : LastLive id events) (h' : LastLive id' events) : id = id' := by
  have hholder : holderRun (fun _ => 0) false {} none events = some id := holderRun_of_lastLive h none
  exact Option.some.inj (hholder.symm.trans (holderRun_of_lastLive h' none))

/-- A schedule has a last live binding, or none. -/
theorem noneLive_or_lastLive (events : List Event) : NoneLive events ∨ ∃ id, LastLive id events := by
  induction events with
  | nil => exact .inl fun id h => by cases h
  | cons e rest ih =>
    rcases ih with hnone | ⟨id, before, after, rfl, hafter⟩
    · by_cases he : ∃ id, e = .bind id
      · obtain ⟨id, rfl⟩ := he
        exact .inr ⟨id, [], rest, rfl, hnone⟩
      · refine .inl fun id hmem => ?_
        rcases List.mem_cons.mp hmem with heq | hmem
        · exact he ⟨id, heq.symm⟩
        · exact hnone id hmem
    · exact .inr ⟨id, e :: before, after, rfl, hafter⟩

/-- Once a job may be for the slot that does not decode, convergence leaves it empty. -/
theorem holderRun_of_tainted (h : NoneLive events) :
    holderRun created true l none events = none := by
  induction events generalizing l with
  | nil => rfl
  | cons e rest ih =>
    have hstep : holderStep created true l none e = none := by
      cases e with
      | bind id => exact absurd List.mem_cons_self (h id)
      | converge id shared retryable => simp [holderStep]
      | _ => rfl
    rw [holderRun, hstep]
    exact ih fun id hmem => h id (List.mem_cons_of_mem e hmem)

theorem Ledger.subset_step (l : Ledger) (e : Event) :
    l.completed ⊆ (l.step e).completed ∧ l.converged ⊆ (l.step e).converged := by
  cases e <;> simp only [Ledger.step] <;> (try split) <;> simp

theorem Ledger.subset_run (l : Ledger) (events : List Event) :
    l.completed ⊆ (l.run events).completed ∧ l.converged ⊆ (l.run events).converged := by
  induction events generalizing l with
  | nil => exact ⟨List.Subset.refl _, List.Subset.refl _⟩
  | cons e rest ih =>
    exact ⟨fun id hid => (ih (l.step e)).1 ((l.subset_step e).1 hid),
      fun id hid => (ih (l.step e)).2 ((l.subset_step e).2 hid)⟩

theorem unhurried_of_converged (h : newest ∈ l.converged) : Unhurried created newest l events := by
  induction events generalizing l with
  | nil => trivial
  | cons e rest ih => exact ⟨fun _ _ _ _ _ => .inr h, ih ((l.subset_step e).2 h)⟩

/-- The newest of all jobs that complete is the newest of any candidates. -/
theorem Ledger.takes_of_newest {shared : Bool} (hcompleted : newest ∈ l.completed)
    (hopen : newest ∉ l.settled) (hsnapshot : l.snapshot ⊆ l.completed)
    (hnewest : ∀ other ∈ l.completed, standing created other ≤ standing created newest) :
    l.Takes created newest shared := by
  refine ⟨hcompleted, hopen, fun other hother => hnewest other ?_⟩
  cases shared with
  | true => exact hsnapshot hother
  | false => exact hother

/-- Without a live binding and without doubt, the newest job gets the slot if no
convergence has hurried. -/
theorem holderRun_eq_newest_iff (hlive : NoneLive events) (hsnapshot : l.snapshot ⊆ l.completed)
    (hnewest : ∀ other ∈ (l.run events).completed, standing created other ≤ standing created newest)
    (hopen : newest ∉ l.settled) (hfirst : newest ∉ l.converged)
    (hconverged : newest ∈ (l.run events).converged) :
    holderRun created false l none events = some newest ↔ Unhurried created newest l events := by
  induction events generalizing l with
  | nil => exact absurd hconverged hfirst
  | cons e rest ih =>
    have hlive' : NoneLive rest := fun id hmem => hlive id (List.mem_cons_of_mem e hmem)
    have hsnapshot' : (l.step e).snapshot ⊆ (l.step e).completed := by
      cases e with
      | snapshot => exact List.Subset.refl _
      | succeed id result => exact fun other hother => List.mem_cons_of_mem id (hsnapshot hother)
      | sync id =>
        simp only [Ledger.step]
        split <;> exact hsnapshot
      | converge id shared retryable =>
        simp only [Ledger.step]
        split <;> exact hsnapshot
      | _ => exact hsnapshot
    by_cases hconverge : ∃ id shared retryable, e = .converge id shared retryable
    swap
    · -- nothing happens to the slot
      have hstep : holderStep created false l none e = none := by
        cases e with
        | bind id => exact absurd List.mem_cons_self (hlive id)
        | converge id shared retryable => exact absurd ⟨id, shared, retryable, rfl⟩ hconverge
        | _ => rfl
      have hledger : (l.step e).settled = l.settled ∧ (l.step e).converged = l.converged := by
        cases e with
        | converge id shared retryable => exact absurd ⟨id, shared, retryable, rfl⟩ hconverge
        | sync id =>
          simp only [Ledger.step]
          split <;> exact ⟨rfl, rfl⟩
        | _ => exact ⟨rfl, rfl⟩
      rw [holderRun, hstep, ih hlive' hsnapshot' hnewest (hledger.1 ▸ hopen) (hledger.2 ▸ hfirst) hconverged,
        Unhurried, and_iff_right]
      rintro id shared retryable rfl
      exact absurd ⟨id, shared, retryable, rfl⟩ hconverge
    obtain ⟨id, shared, retryable, rfl⟩ := hconverge
    have hnow : ∀ other ∈ l.completed, standing created other ≤ standing created newest :=
      fun other hother => hnewest other ((l.subset_run (.converge id shared retryable :: rest)).1 hother)
    by_cases htakes : l.Takes created id shared
    · -- the slot is decided here
      rw [holderRun, holderStep, if_pos ⟨rfl, rfl, htakes⟩, holderRun_of_noneLive hlive', Option.some_inj]
      constructor
      · rintro rfl
        refine ⟨fun _ _ _ heq _ => ?_, unhurried_of_converged ?_⟩
        · cases heq
          exact .inl rfl
        · simp [Ledger.step, htakes.1]
      · intro hunhurried
        exact (hunhurried.1 id shared retryable rfl htakes).resolve_right hfirst
    · have hledger : newest ∉ (l.step (.converge id shared retryable)).settled ∧
          newest ∉ (l.step (.converge id shared retryable)).converged := by
        simp only [Ledger.step]
        split
        next hcompleted =>
          have hne : newest ≠ id := by
            rintro rfl
            exact htakes (Ledger.takes_of_newest hcompleted hopen hsnapshot hnow)
          cases retryable <;> simp [hne, hopen, hfirst]
        · exact ⟨hopen, hfirst⟩
      rw [holderRun, holderStep, if_neg fun hall => htakes hall.2.2,
        ih hlive' hsnapshot' hnewest hledger.1 hledger.2 hconverged, Unhurried, and_iff_right]
      intro id' shared' retryable' heq htakes'
      cases heq
      exact absurd htakes' htakes

/-- Without a live binding, the slot is empty until the newest job is converged. -/
theorem holderRun_eq_none (hlive : NoneLive events) (hunhurried : Unhurried created newest l events)
    (h : newest ∉ (l.run events).converged) : holderRun created tainted l none events = none := by
  induction events generalizing l with
  | nil => rfl
  | cons e rest ih =>
    have hstep : holderStep created tainted l none e = none := by
      cases e with
      | bind id => exact absurd List.mem_cons_self (hlive id)
      | converge id shared retryable =>
        refine if_neg fun hall => h ?_
        rcases hunhurried.1 id shared retryable rfl hall.2.2 with rfl | hconverged
        · exact (Ledger.subset_run _ rest).2 (by simp [Ledger.step, hall.2.2.1])
        · exact (l.subset_run (.converge id shared retryable :: rest)).2 hconverged
      | _ => rfl
    rw [holderRun, hstep]
    exact ih (fun id hmem => hlive id (List.mem_cons_of_mem e hmem)) hunhurried.2 h

theorem Ledger.settled_run {id : JobId} (h : id ∈ (l.run events).settled) :
    id ∈ l.settled ∨ id ∈ (l.run events).converged := by
  induction events generalizing l with
  | nil => exact .inl h
  | cons e rest ih =>
    rcases ih h with hsettled | hconverged
    · cases e with
      | converge other shared retryable =>
        simp only [Ledger.step] at hsettled
        split at hsettled
        next hcompleted =>
          cases retryable with
          | true => exact .inl hsettled
          | false =>
            rcases List.mem_cons.mp hsettled with rfl | hsettled
            · exact .inr ((Ledger.subset_run _ rest).2 (by simp [Ledger.step, hcompleted]))
            · exact .inl hsettled
        · exact .inl hsettled
      | sync other =>
        simp only [Ledger.step] at hsettled
        split at hsettled <;> exact .inl hsettled
      | _ => exact .inl hsettled
    · exact .inr hconverged

end Schedule

/-! ## The ledger and the stores -/

/-- The slot is empty, or holds an asset of its holder that was its primary one once. -/
def HeldBy (WasPrimary : JobId → AssetId → Prop) (s : Shelves) (slot : Option AssetId) :
    Option JobId → Prop
  | none => slot = none
  | some id => ∃ asset, slot = some asset.id ∧ s.assets.lookup asset.id = some asset ∧
    asset.jobId = id ∧ WasPrimary id asset.id

/-- The stores are as the ledger and the holder say. Jobs outside the contest are not for
the slot; a job that has not finished yet was never bound. -/
structure Tracks (lib : Library) (target : Target) (contest : List JobId) (created : JobId → ℕ)
    (tainted : Bool) (WasPrimary : JobId → AssetId → Prop) (l : Ledger) (holder : Option JobId)
    (s : Shelves) (index : SceneCandidateIndex) : Prop where
  rowId : ∀ id job, s.job? id = some job → job.id = id
  entered : ∀ id job, Entry target s id job → id ∈ contest
  contender : ∀ id ∈ contest, ∀ job, s.job? id = some job →
    selectSceneBoundParams job.request.params = some target ∧ job.createdAt = created id
  waiting : ∀ id ∈ contest, ∀ job, s.job? id = some job → job.status.isTerminalStatus = false →
    job.completionState = .pending ∧ ¬ Remembers target s.stories id
  absent : ∀ id ∈ contest, s.jobs.lookup id = none → ¬ Remembers target s.stories id
  completed : ∀ id, id ∈ l.completed ↔ ∃ job, Entry target s id job ∧ HasOutput job
  barren : ∀ id job, Entry target s id job → ¬ HasOutput job → s.primaryByJob id = none
  syncs : ∀ id job, Entry target s id job → HasOutput job → (syncJob lib job s).1 = .ok ()
  synced : ∀ id ∈ l.synced, id ∈ l.completed ∧ ∃ path, Filed lib id s path
  closed : ∀ id ∈ l.settled, id ∈ l.completed
  pending : ∀ id ∈ l.completed, id ∉ l.settled → ∀ job, s.job? id = some job →
    job.completionState = .pending ∧ (holder = none → ¬ Remembers target s.stories id)
  settled : tainted = false → holder = none → ∀ id ∈ l.completed, id ∈ l.settled →
    ∀ job, s.job? id = some job → job.completionState = .done ∨ Remembers target s.stories id
  named : ∀ id asset, s.assets.lookup id = some asset → asset.id = id ∧ id ≠ ""
  owner : ∀ job path asset, s.assets.lookup (stableAssetId job path) = some asset → asset.jobId = job
  slot : ∃ slot, SlotIs target s.stories slot ∧ HeldBy WasPrimary s slot holder
  candidates : ∀ job ∈ (index.forTarget target).1, ∃ row, Entry target s job.id row ∧
    row.result = job.result ∧ row.createdAt = job.createdAt
  snapshot : ∀ id, id ∈ l.snapshot ↔ ∃ job ∈ (index.forTarget target).1, job.id = id ∧ HasOutput job
  doubt : (index.forTarget target).2 = tainted
  taint : ((buildSceneCandidateIndex s).forTarget target).2 = tainted

section Tracks
variable {lib : Library} {target : Target} {contest : List JobId} {created : JobId → ℕ}
  {tainted : Bool} {WasPrimary : JobId → AssetId → Prop} {l : Ledger} {holder : Option JobId}
  {s : Shelves} {index : SceneCandidateIndex}

theorem job?_setRow (s : Shelves) (id other : JobId) (job : JobRecord) :
    (s.setRow id job).job? other = if other = id then some job else s.job? other := by
  by_cases h : other = id
  · subst h
    simp [Shelves.job?, Shelves.setRow]
  · simp [Shelves.job?, Shelves.setRow, AList.lookup_insert_ne h, h]

theorem lookup_setRow_of_ne (s : Shelves) {id other : JobId} (job : JobRecord) (h : other ≠ id) :
    (s.setRow id job).jobs.lookup other = s.jobs.lookup other := AList.lookup_insert_ne h

/-- A row that decoded, or was not there, gives no rise to doubt once it is replaced. -/
theorem tainted_setRow {id : JobId} {job : JobRecord}
    (h : ∀ raw params, s.jobs.lookup id ≠ some (.poison raw params)) :
    ((buildSceneCandidateIndex (s.setRow id job)).forTarget target).2 =
      ((buildSceneCandidateIndex s).forTarget target).2 := by
  rw [Bool.eq_iff_iff, tainted_build, tainted_build]
  constructor
  · rintro ⟨other, entry, hentry, hmay⟩
    by_cases hid : other = id
    · subst hid
      rw [Shelves.setRow, AList.lookup_insert] at hentry
      cases hentry
      cases hmay
    · exact ⟨other, entry, (lookup_setRow_of_ne s job hid).symm.trans hentry, hmay⟩
  · rintro ⟨other, entry, hentry, hmay⟩
    by_cases hid : other = id
    · subst hid
      cases entry with
      | record job => cases hmay
      | poison raw params => exact absurd hentry (h raw params)
    · exact ⟨other, entry, (lookup_setRow_of_ne s job hid).trans hentry, hmay⟩

theorem no_poison_of_job? {id : JobId} {job : JobRecord} (h : s.job? id = some job) :
    ∀ raw params, s.jobs.lookup id ≠ some (.poison raw params) := by
  rintro raw params heq
  rw [job?_eq_some, heq] at h
  cases h

/-- The files alone decide whether a job can be synchronised. -/
theorem syncJob_ok_setRow {id : JobId} {row job : JobRecord} (h : (syncJob lib job s).1 = .ok ()) :
    (syncJob lib job (s.setRow id row)).1 = .ok () :=
  syncJob_ok_of_files h fun _ => rfl

/-- A row that is not of a succeeded job for the slot is replaced by another such row. -/
theorem Tracks.setRow_idle {id : JobId} {new : JobRecord}
    (h : Tracks lib target contest created tainted WasPrimary l holder s index) (hid : new.id = id)
    (hpoison : ∀ raw params, s.jobs.lookup id ≠ some (.poison raw params))
    (hold : ∀ job, ¬ Entry target s id job)
    (hnew : ¬ (new.status = .succeeded ∧ selectSceneBoundParams new.request.params = some target))
    (hcontest : id ∈ contest →
      selectSceneBoundParams new.request.params = some target ∧ new.createdAt = created id)
    (hwaiting : id ∈ contest → new.status.isTerminalStatus = false →
      new.completionState = .pending ∧ ¬ Remembers target s.stories id) :
    Tracks lib target contest created tainted WasPrimary l holder (s.setRow id new) index := by
  have hentry (other : JobId) (job : JobRecord) :
      Entry target (s.setRow id new) other job ↔ Entry target s other job := by
    by_cases hother : other = id
    · subst hother
      refine ⟨fun ⟨hrow, hstatus, htarget⟩ => ?_, fun h => absurd h (hold job)⟩
      rw [job?_setRow, if_pos rfl] at hrow
      cases hrow
      exact absurd ⟨hstatus, htarget⟩ hnew
    · refine ⟨fun ⟨hrow, hstatus, htarget⟩ => ⟨?_, hstatus, htarget⟩,
        fun ⟨hrow, hstatus, htarget⟩ => ⟨?_, hstatus, htarget⟩⟩
      · rwa [job?_setRow, if_neg hother] at hrow
      · rwa [job?_setRow, if_neg hother]
  have hne {other : JobId} (hcompleted : other ∈ l.completed) : other ≠ id := by
    rintro rfl
    obtain ⟨job, hjob, -⟩ := (h.completed other).mp hcompleted
    exact hold job hjob
  refine
    { rowId := fun other job hrow => ?_
      entered := fun other job hjob => h.entered other job ((hentry other job).mp hjob)
      contender := fun other hother job hrow => ?_
      waiting := fun other hother job hrow => ?_
      absent := fun other hother hrow => ?_
      completed := fun other => by simp only [h.completed, hentry]
      barren := fun other job hjob => h.barren other job ((hentry other job).mp hjob)
      syncs := fun other job hjob houtput =>
        syncJob_ok_setRow (h.syncs other job ((hentry other job).mp hjob) houtput)
      synced := h.synced
      closed := h.closed
      pending := fun other hother hsettled job hrow => ?_
      settled := fun htaint hholder other hother hsettled job hrow => ?_
      named := h.named
      owner := h.owner
      slot := h.slot
      candidates := fun job hjob => by simpa only [hentry] using h.candidates job hjob
      snapshot := h.snapshot
      doubt := h.doubt
      taint := (tainted_setRow hpoison).trans h.taint }
  · rw [job?_setRow] at hrow
    split at hrow
    next heq =>
      cases hrow
      rw [hid, heq]
    · exact h.rowId other job hrow
  · rw [job?_setRow] at hrow
    split at hrow
    next heq =>
      cases hrow
      subst heq
      exact hcontest hother
    · exact h.contender other hother job hrow
  · rw [job?_setRow] at hrow
    split at hrow
    next heq =>
      cases hrow
      subst heq
      exact hwaiting hother
    · exact h.waiting other hother job hrow
  · by_cases heq : other = id
    · subst heq
      rw [Shelves.setRow, AList.lookup_insert] at hrow
      cases hrow
    · rw [lookup_setRow_of_ne s new heq] at hrow
      exact h.absent other hother hrow
  · rw [job?_setRow, if_neg (hne hother)] at hrow
    exact h.pending other hother hsettled job hrow
  · rw [job?_setRow, if_neg (hne hother)] at hrow
    exact h.settled htaint hholder other hother hsettled job hrow

/-- A job of the contest succeeds with an output whose asset can be synchronised. -/
theorem Tracks.setRow_succeed {id : JobId} {job : JobRecord} {result : GenerationResult}
    (h : Tracks lib target contest created tainted WasPrimary l holder s index) (hid : id ∈ contest)
    (hjob : s.job? id = some job) (hstatus : job.status = .postprocessing)
    (houtput : ∃ output ∈ result.outputs, output ≠ "")
    (hsync : (syncJob lib (succeededRow job result) s).1 = .ok ()) :
    Tracks lib target contest created tainted WasPrimary
      { l with completed := id :: l.completed } holder (s.setRow id (succeededRow job result)) index := by
  obtain ⟨htarget, hcreated⟩ := h.contender id hid job hjob
  obtain ⟨hpending, hforgotten⟩ := h.waiting id hid job hjob (by rw [hstatus]; rfl)
  have hnone (row : JobRecord) : ¬ Entry target s id row := by
    rintro ⟨hrow, hsucceeded, -⟩
    obtain rfl := Option.some.inj (hjob.symm.trans hrow)
    rw [hstatus] at hsucceeded
    cases hsucceeded
  have hnew : Entry target (s.setRow id (succeededRow job result)) id (succeededRow job result) :=
    ⟨by rw [job?_setRow, if_pos rfl], rfl, htarget⟩
  have hother {other : JobId} (hne : other ≠ id) (row : JobRecord) :
      Entry target (s.setRow id (succeededRow job result)) other row ↔ Entry target s other row := by
    constructor <;> rintro ⟨hrow, hsucceeded, htarget⟩
    · exact ⟨by rwa [job?_setRow, if_neg hne] at hrow, hsucceeded, htarget⟩
    · exact ⟨by rwa [job?_setRow, if_neg hne], hsucceeded, htarget⟩
  have hself {row : JobRecord} (hrow : (s.setRow id (succeededRow job result)).job? id = some row) :
      row = succeededRow job result := by
    rw [job?_setRow, if_pos rfl] at hrow
    exact (Option.some.inj hrow).symm
  have houtputNew : HasOutput (succeededRow job result) := ⟨_, rfl, houtput⟩
  have hcompletedNe {other : JobId} (hmem : other ∈ l.completed) : other ≠ id := by
    rintro rfl
    obtain ⟨row, hrow, -⟩ := (h.completed other).mp hmem
    exact hnone row hrow
  refine
    { rowId := fun other row hrow => ?_
      entered := fun other row hrow => ?_
      contender := fun other hmem row hrow => ?_
      waiting := fun other hmem row hrow hactive => ?_
      absent := fun other hmem hrow => ?_
      completed := fun other => ?_
      barren := fun other row hrow hbarren => ?_
      syncs := fun other row hrow hrowOutput => syncJob_ok_setRow ?_
      synced := fun other hmem => (h.synced other hmem).imp_left (List.mem_cons_of_mem _)
      closed := fun other hmem => List.mem_cons_of_mem _ (h.closed other hmem)
      pending := fun other hmem hsettled row hrow => ?_
      settled := fun htaint hholder other hmem hsettled row hrow => ?_
      named := h.named
      owner := h.owner
      slot := h.slot
      candidates := fun candidate hmem => ?_
      snapshot := h.snapshot
      doubt := h.doubt
      taint := (tainted_setRow (no_poison_of_job? hjob)).trans h.taint }
  · by_cases hne : other = id
    · subst hne
      rw [hself hrow]
      exact h.rowId other job hjob
    · rw [job?_setRow, if_neg hne] at hrow
      exact h.rowId other row hrow
  · by_cases hne : other = id
    · rwa [hne]
    · exact h.entered other row ((hother hne row).mp hrow)
  · by_cases hne : other = id
    · subst hne
      rw [hself hrow]
      exact ⟨htarget, hcreated⟩
    · rw [job?_setRow, if_neg hne] at hrow
      exact h.contender other hmem row hrow
  · by_cases hne : other = id
    · subst hne
      rw [hself hrow] at hactive
      cases hactive
    · rw [job?_setRow, if_neg hne] at hrow
      exact h.waiting other hmem row hrow hactive
  · by_cases hne : other = id
    · subst hne
      rw [Shelves.setRow, AList.lookup_insert] at hrow
      cases hrow
    · rw [lookup_setRow_of_ne s _ hne] at hrow
      exact h.absent other hmem hrow
  · by_cases hne : other = id
    · subst hne
      exact ⟨fun _ => ⟨_, hnew, houtputNew⟩, fun _ => List.mem_cons_self⟩
    · simp only [List.mem_cons, hne, false_or, h.completed, hother hne]
  · by_cases hne : other = id
    · subst hne
      rw [hself hrow.row] at hbarren
      exact absurd houtputNew hbarren
    · exact h.barren other row ((hother hne row).mp hrow) hbarren
  · by_cases hne : other = id
    · subst hne
      rwa [hself hrow.row]
    · exact h.syncs other row ((hother hne row).mp hrow) hrowOutput
  · by_cases hne : other = id
    · subst hne
      rw [hself hrow]
      exact ⟨hpending, fun _ => hforgotten⟩
    · rw [job?_setRow, if_neg hne] at hrow
      exact h.pending other (List.mem_of_ne_of_mem hne hmem) hsettled row hrow
  · have hne := hcompletedNe (h.closed other hsettled)
    rw [job?_setRow, if_neg hne] at hrow
    exact h.settled htaint hholder other (List.mem_of_ne_of_mem hne hmem) hsettled row hrow
  · obtain ⟨row, hrow, hsame⟩ := h.candidates candidate hmem
    have hne : candidate.id ≠ id := by
      intro heq
      rw [heq] at hrow
      exact hnone row hrow
    exact ⟨row, (hother hne row).mpr hrow, hsame⟩

theorem job?_congr {s' : Shelves} (h : s'.jobs = s.jobs) (id : JobId) : s'.job? id = s.job? id := by
  unfold Shelves.job?
  rw [h]

theorem build_congr {s' : Shelves} (h : s'.jobs = s.jobs) :
    buildSceneCandidateIndex s' = buildSceneCandidateIndex s := by
  unfold buildSceneCandidateIndex
  rw [h]

theorem entry_congr (target : Target) {s' : Shelves} (h : s'.jobs = s.jobs) (id : JobId)
    (job : JobRecord) :
    Entry target s' id job ↔ Entry target s id job := by
  constructor <;> rintro ⟨hrow, hstatus, htarget⟩
  · exact ⟨(job?_congr h id).symm.trans hrow, hstatus, htarget⟩
  · exact ⟨(job?_congr h id).trans hrow, hstatus, htarget⟩

/-- A job without an output has nothing to synchronise. -/
theorem syncJob_of_not_hasOutput {job : JobRecord} (h : ¬ HasOutput job) :
    syncJob lib job s = (.ok (), s) := by
  unfold syncJob
  split
  next result hresult =>
    have hnone : (syncSource result).outputs = [] := by
      rw [syncSource, List.filter_eq_nil_iff]
      exact fun output hmem hne => h ⟨result, hresult, output, hmem, by simpa using hne⟩
    rw [hnone]
    split <;> rfl
  · rfl

theorem stableAssetId_ne_empty (job : JobId) (path : String) : stableAssetId job path ≠ "" := by
  intro h
  have hlist := congrArg String.toList h
  simp [stableAssetId, String.toList_append] at hlist

/-- Synchronising a job of the table. -/
theorem Tracks.sync {id : JobId} {job : JobRecord}
    (h : Tracks lib target contest created tainted WasPrimary l holder s index)
    (hjob : s.job? id = some job) :
    Tracks lib target contest created tainted WasPrimary l holder (syncJob lib job s).2 index := by
  have hwrites := syncJob_writes lib job s
  rw [h.rowId id job hjob] at hwrites
  have hentry (other : JobId) (row : JobRecord) :=
    entry_congr target hwrites.jobs other row
  have hrow (other : JobId) := job?_congr hwrites.jobs other
  have hkeys {other : JobId} (hne : other ≠ id) (path : String) :
      (syncJob lib job s).2.assets.lookup (stableAssetId other path) =
        s.assets.lookup (stableAssetId other path) := by
    rcases hwrites.files (stableAssetId other path) with heq | ⟨path', asset, heq, -⟩
    · exact heq
    · exact absurd (stableAssetId_inj.mp heq).1 hne
  have hstories := hwrites.stories
  refine
    { rowId := fun other row => by rw [hrow]; exact h.rowId other row
      entered := fun other row => by rw [hentry]; exact h.entered other row
      contender := fun other hmem row => by rw [hrow]; exact h.contender other hmem row
      waiting := fun other hmem row => by rw [hrow, hstories]; exact h.waiting other hmem row
      absent := fun other hmem => by rw [hwrites.jobs, hstories]; exact h.absent other hmem
      completed := fun other => by simp only [h.completed, hentry]
      barren := fun other row hother hbarren => ?_
      syncs := fun other row hother houtput => ?_
      synced := fun other hmem => ⟨(h.synced other hmem).1, ?_⟩
      closed := h.closed
      pending := fun other hmem hsettled row => by
        rw [hrow, hstories]; exact h.pending other hmem hsettled row
      settled := fun htaint hholder other hmem hsettled row => by
        rw [hrow, hstories]; exact h.settled htaint hholder other hmem hsettled row
      named := fun key asset hlookup => ?_
      owner := fun other path asset hlookup => ?_
      slot := ?_
      candidates := fun candidate hmem => by simpa only [hentry] using h.candidates candidate hmem
      snapshot := h.snapshot
      doubt := h.doubt
      taint := by rw [build_congr hwrites.jobs]; exact h.taint }
  · rw [hentry] at hother
    have hnone := h.barren other row hother hbarren
    by_cases hne : other = id
    · subst hne
      obtain rfl := Option.some.inj (hjob.symm.trans hother.row)
      rw [syncJob_of_not_hasOutput hbarren]
      exact hnone
    · rw [← Option.not_isSome_iff_eq_none, isSome_primaryByJob] at hnone ⊢
      rintro ⟨key, asset, hlookup, howner⟩
      rcases hwrites.files key with heq | ⟨path, asset', -, hwritten, -, howner'⟩
      · exact hnone ⟨key, asset, heq ▸ hlookup, howner⟩
      · rw [hlookup] at hwritten
        cases hwritten
        exact hne (howner.symm.trans howner')
  · rw [hentry] at hother
    have hok := h.syncs other row hother houtput
    by_cases hne : other = id
    · subst hne
      obtain rfl := Option.some.inj (hjob.symm.trans hother.row)
      exact syncJob_ok_again hok
    · refine syncJob_ok_of_files hok fun path => ?_
      rw [h.rowId other row hother.row]
      exact hkeys hne path
  · obtain ⟨hcompleted, path, asset, hlookup, hrest⟩ := h.synced other hmem
    by_cases hne : other = id
    · subst hne
      obtain ⟨row, hother, houtput⟩ := (h.completed other).mp hcompleted
      obtain rfl := Option.some.inj (hjob.symm.trans hother.row)
      have hfiled := filed_of_syncJob_ok hother.status houtput (h.syncs other job hother houtput)
      rwa [h.rowId other job hjob] at hfiled
    · exact ⟨path, asset, (hkeys hne path).trans hlookup, hrest⟩
  · rcases hwrites.files key with heq | ⟨path, asset', hkey, hwritten, hid, -⟩
    · exact h.named key asset (heq ▸ hlookup)
    · rw [hlookup] at hwritten
      cases hwritten
      exact ⟨hid, hkey ▸ stableAssetId_ne_empty id path⟩
  · by_cases hne : other = id
    · subst hne
      rcases hwrites.files (stableAssetId other path) with heq | ⟨path', asset', -, hwritten, -, howner⟩
      · exact h.owner other path asset (heq ▸ hlookup)
      · rw [hlookup] at hwritten
        cases hwritten
        exact howner
    · exact h.owner other path asset (hkeys hne path ▸ hlookup)
  · obtain ⟨slot, hslot, hheld⟩ := h.slot
    refine ⟨slot, hstories ▸ hslot, ?_⟩
    cases holder with
    | none => exact hheld
    | some held =>
      obtain ⟨asset, rfl, hlookup, howner, hprimary⟩ := hheld
      rcases hwrites.files asset.id with heq | ⟨path, asset', hkey, hwritten, hid, howner'⟩
      · exact ⟨asset, rfl, heq.trans hlookup, howner, hprimary⟩
      · -- the file was written again, for the same job
        have hheld : held = id := by
          rw [hkey] at hlookup
          exact howner.symm.trans (h.owner id path asset hlookup)
        refine ⟨asset', by rw [hid], by rw [hid]; exact hwritten, by rw [howner', hheld], ?_⟩
        rwa [hid]

theorem primaryByJob_congr {s' : Shelves} (h : s'.assets = s.assets) (id : JobId) :
    s'.primaryByJob id = s.primaryByJob id := by
  unfold Shelves.primaryByJob Shelves.listAssets
  rw [h]

/-- The slot goes to a succeeded job. -/
theorem Tracks.bound {id : JobId} {job : JobRecord} {asset : Asset} {s' : Shelves}
    (h : Tracks lib target contest created tainted WasPrimary l holder s index)
    (hjob : Entry target s id job) (hasset : s.primaryByJob id = some asset)
    (hprimary : WasPrimary id asset.id) (hjobs : s'.jobs = s.jobs) (hassets : s'.assets = s.assets)
    (hbound : BoundTo target s.stories s'.stories id asset.id) :
    Tracks lib target contest created tainted WasPrimary l (some id) s' index := by
  have hentry (other : JobId) (row : JobRecord) :=
    entry_congr target hjobs other row
  have hrow (other : JobId) := job?_congr hjobs other
  refine
    { rowId := fun other row => by rw [hrow]; exact h.rowId other row
      entered := fun other row => by rw [hentry]; exact h.entered other row
      contender := fun other hmem row => by rw [hrow]; exact h.contender other hmem row
      waiting := fun other hmem row hother hactive => ?_
      absent := fun other hmem hother => ?_
      completed := fun other => by simp only [h.completed, hentry]
      barren := fun other row => by
        rw [hentry, primaryByJob_congr hassets]; exact h.barren other row
      syncs := fun other row hother houtput =>
        syncJob_ok_of_files (h.syncs other row ((hentry other row).mp hother) houtput)
          fun path => by rw [hassets]
      synced := fun other hmem => by
        simpa only [Filed, hassets] using h.synced other hmem
      closed := h.closed
      pending := fun other hmem hsettled row hother =>
        ⟨(h.pending other hmem hsettled row (hrow other ▸ hother)).1, fun hholder => by cases hholder⟩
      settled := fun _ hholder => by cases hholder
      named := by rw [hassets]; exact h.named
      owner := by rw [hassets]; exact h.owner
      slot := ?_
      candidates := fun candidate hmem => by simpa only [hentry] using h.candidates candidate hmem
      snapshot := h.snapshot
      doubt := h.doubt
      taint := by rw [build_congr hjobs]; exact h.taint }
  · rw [hrow] at hother
    obtain ⟨hpending, hforgotten⟩ := h.waiting other hmem row hother hactive
    refine ⟨hpending, fun hremembers => ?_⟩
    rcases (hbound.remembers other).mp hremembers with hold | rfl
    · exact hforgotten hold
    · obtain rfl := Option.some.inj (hjob.row.symm.trans hother)
      rw [hjob.status] at hactive
      cases hactive
  · rw [hjobs] at hother
    intro hremembers
    rcases (hbound.remembers other).mp hremembers with hold | rfl
    · exact h.absent other hmem hother hold
    · rw [job?_eq_some.mp hjob.row] at hother
      cases hother
  · obtain ⟨⟨key, hkey⟩, howner⟩ := filed_of_primaryByJob hasset
    obtain ⟨rfl, -⟩ := h.named key asset hkey
    exact ⟨some asset.id, hbound.slot, asset, rfl, by rw [hassets]; exact hkey, howner, hprimary⟩

/-- The clock is nothing to the ledger. -/
theorem Tracks.congr {s' : Shelves}
    (h : Tracks lib target contest created tainted WasPrimary l holder s index)
    (hjobs : s'.jobs = s.jobs) (hassets : s'.assets = s.assets) (hstories : s'.stories = s.stories) :
    Tracks lib target contest created tainted WasPrimary l holder s' index := by
  have hentry (other : JobId) (row : JobRecord) := entry_congr target hjobs other row
  have hrow (other : JobId) := job?_congr hjobs other
  exact
    { rowId := fun other row => by rw [hrow]; exact h.rowId other row
      entered := fun other row => by rw [hentry]; exact h.entered other row
      contender := fun other hmem row => by rw [hrow]; exact h.contender other hmem row
      waiting := fun other hmem row => by rw [hrow, hstories]; exact h.waiting other hmem row
      absent := fun other hmem => by rw [hjobs, hstories]; exact h.absent other hmem
      completed := fun other => by simp only [h.completed, hentry]
      barren := fun other row => by
        rw [hentry, primaryByJob_congr hassets]; exact h.barren other row
      syncs := fun other row hother houtput =>
        syncJob_ok_of_files (h.syncs other row ((hentry other row).mp hother) houtput)
          fun path => by rw [hassets]
      synced := fun other hmem => by
        simpa only [Filed, hassets] using h.synced other hmem
      closed := h.closed
      pending := fun other hmem hsettled row => by
        rw [hrow, hstories]; exact h.pending other hmem hsettled row
      settled := fun htaint hholder other hmem hsettled row => by
        rw [hrow, hstories]; exact h.settled htaint hholder other hmem hsettled row
      named := by rw [hassets]; exact h.named
      owner := by rw [hassets]; exact h.owner
      slot := by
        obtain ⟨slot, hslot, hheld⟩ := h.slot
        refine ⟨slot, hstories ▸ hslot, ?_⟩
        cases holder with
        | none => exact hheld
        | some held => simpa only [HeldBy, hassets] using hheld
      candidates := fun candidate hmem => by simpa only [hentry] using h.candidates candidate hmem
      snapshot := h.snapshot
      doubt := h.doubt
      taint := by rw [build_congr hjobs]; exact h.taint }

/-- A convergence that marks no row. -/
theorem Tracks.converged {id : JobId} {shared retryable : Bool}
    (h : Tracks lib target contest created tainted WasPrimary l holder s index)
    (hsettled : id ∈ l.completed → retryable = false → tainted = false → holder = none →
      ∀ job, s.job? id = some job → job.completionState = .done ∨ Remembers target s.stories id) :
    Tracks lib target contest created tainted WasPrimary (l.step (.converge id shared retryable))
      holder s index := by
  simp only [Ledger.step]
  split
  swap
  · exact h
  next hcompleted =>
  refine
    { h with
      closed := fun other hmem => ?_
      pending := fun other hmem hopen => h.pending other hmem fun hmem' => hopen ?_
      settled := fun htaint hholder other hmem hother => ?_ }
  · cases retryable with
    | true => exact h.closed other hmem
    | false =>
      rcases List.mem_cons.mp hmem with rfl | hmem
      · exact hcompleted
      · exact h.closed other hmem
  · cases retryable with
    | true => exact hmem'
    | false => exact List.mem_cons_of_mem _ hmem'
  · cases retryable with
    | true => exact h.settled htaint hholder other hmem hother
    | false =>
      rcases List.mem_cons.mp hother with rfl | hother
      · exact hsettled hcompleted rfl htaint hholder
      · exact h.settled htaint hholder other hmem hother

/-- A convergence that marks its row. -/
theorem Tracks.markDone {id : JobId} {job : JobRecord} {shared : Bool}
    (h : Tracks lib target contest created tainted WasPrimary l holder s index)
    (hjob : s.job? id = some job) (hterminal : job.status.isTerminalStatus = true) :
    Tracks lib target contest created tainted WasPrimary (l.step (.converge id shared false))
      holder (s.markDone job) index := by
  have hid := h.rowId id job hjob
  have hrow (other : JobId) : (s.markDone job).job? other =
      if other = id then some { job with completionState := .done } else s.job? other := by
    rw [← hid]
    exact job?_setRow s job.id other _
  have hlookup {other : JobId} (hne : other ≠ id) :
      (s.markDone job).jobs.lookup other = s.jobs.lookup other := by
    rw [← hid] at hne
    exact lookup_setRow_of_ne s _ hne
  have hself {row : JobRecord} (hother : (s.markDone job).job? id = some row) :
      row = { job with completionState := .done } := by
    rw [hrow, if_pos rfl] at hother
    exact (Option.some.inj hother).symm
  -- every row of the new table is one of the old table, its completion apart
  have hback (other : JobId) (row : JobRecord) (hother : (s.markDone job).job? other = some row) :
      ∃ old, s.job? other = some old ∧ row = { old with completionState := row.completionState } := by
    by_cases hne : other = id
    · subst hne
      rw [hself hother]
      exact ⟨job, hjob, rfl⟩
    · rw [hrow, if_neg hne] at hother
      exact ⟨row, hother, rfl⟩
  have hforth (other : JobId) (old : JobRecord) (hother : s.job? other = some old) :
      ∃ state, (s.markDone job).job? other = some { old with completionState := state } := by
    by_cases hne : other = id
    · subst hne
      obtain rfl := Option.some.inj (hjob.symm.trans hother)
      exact ⟨.done, by rw [hrow, if_pos rfl]⟩
    · exact ⟨old.completionState, by rw [hrow, if_neg hne]; exact hother⟩
  have hentry (other : JobId) (row : JobRecord) (hother : Entry target (s.markDone job) other row) :
      ∃ old, Entry target s other old ∧ row = { old with completionState := row.completionState } := by
    obtain ⟨old, hold, heq⟩ := hback other row hother.row
    refine ⟨old, ⟨hold, ?_, ?_⟩, heq⟩
    · have := hother.status
      rwa [heq] at this
    · have := hother.target
      rwa [heq] at this
  have hsettled {other : JobId} :
      other ∈ (l.step (.converge id shared false)).settled ↔
        (other = id ∧ id ∈ l.completed) ∨ other ∈ l.settled := by
    simp only [Ledger.step]
    split
    next hmem => simp [hmem]
    next hmem => simp [hmem]
  have hcompleted : (l.step (.converge id shared false)).completed = l.completed := by
    simp only [Ledger.step]
    split <;> rfl
  have hsnapshot : (l.step (.converge id shared false)).snapshot = l.snapshot := by
    simp only [Ledger.step]
    split <;> rfl
  have hsynced : (l.step (.converge id shared false)).synced = l.synced := by
    simp only [Ledger.step]
    split <;> rfl
  refine
    { rowId := fun other row hother => ?_
      entered := fun other row hother => ?_
      contender := fun other hmem row hother => ?_
      waiting := fun other hmem row hother hactive => ?_
      absent := fun other hmem hother => ?_
      completed := fun other => ?_
      barren := fun other row hother hbarren => ?_
      syncs := fun other row hother houtput => ?_
      synced := by rw [hsynced, hcompleted]; exact h.synced
      closed := fun other hmem => ?_
      pending := fun other hmem hopen row hother => ?_
      settled := fun htaint hholder other hmem hmem' row hother => ?_
      named := h.named
      owner := h.owner
      slot := h.slot
      candidates := fun candidate hmem => ?_
      snapshot := by rw [hsnapshot]; exact h.snapshot
      doubt := h.doubt
      taint := (tainted_setRow (no_poison_of_job? (hid ▸ hjob))).trans h.taint }
  · obtain ⟨old, hold, heq⟩ := hback other row hother
    rw [heq]
    exact h.rowId other old hold
  · obtain ⟨old, hold, -⟩ := hentry other row hother
    exact h.entered other old hold
  · obtain ⟨old, hold, heq⟩ := hback other row hother
    rw [heq]
    exact h.contender other hmem old hold
  · by_cases hne : other = id
    · subst hne
      rw [hself hother, hterminal] at hactive
      cases hactive
    · rw [hrow, if_neg hne] at hother
      exact h.waiting other hmem row hother hactive
  · by_cases hne : other = id
    · subst hne
      have hrow' := job?_eq_some.mp ((hrow other).trans (if_pos rfl))
      rw [hother] at hrow'
      cases hrow'
    · exact h.absent other hmem (hlookup hne ▸ hother)
  · rw [hcompleted, h.completed]
    constructor
    · rintro ⟨old, hold, houtput⟩
      obtain ⟨state, hnew⟩ := hforth other old hold.row
      exact ⟨_, ⟨hnew, hold.status, hold.target⟩, houtput⟩
    · rintro ⟨row, hother, houtput⟩
      obtain ⟨old, hold, heq⟩ := hentry other row hother
      rw [heq] at houtput
      exact ⟨old, hold, houtput⟩
  · obtain ⟨old, hold, heq⟩ := hentry other row hother
    rw [heq] at hbarren
    exact h.barren other old hold hbarren
  · obtain ⟨old, hold, heq⟩ := hentry other row hother
    rw [heq] at houtput ⊢
    rw [syncJob_completion]
    exact syncJob_ok_of_files (h.syncs other old hold houtput) fun _ => rfl
  · rw [hcompleted]
    rcases hsettled.mp hmem with ⟨rfl, hid'⟩ | hmem
    · exact hid'
    · exact h.closed other hmem
  · rw [hcompleted] at hmem
    rw [hsettled, not_or] at hopen
    have hne : other ≠ id := by
      rintro rfl
      exact hopen.1 ⟨rfl, hmem⟩
    rw [hrow, if_neg hne] at hother
    exact h.pending other hmem hopen.2 row hother
  · rw [hcompleted] at hmem
    by_cases hne : other = id
    · subst hne
      rw [hself hother]
      exact .inl rfl
    · rw [hrow, if_neg hne] at hother
      refine h.settled htaint hholder other hmem ?_ row hother
      exact (hsettled.mp hmem').resolve_left fun h => hne h.1
  · obtain ⟨old, hold, hsame⟩ := h.candidates candidate hmem
    obtain ⟨state, hnew⟩ := hforth candidate.id old hold.row
    exact ⟨_, ⟨hnew, hold.status, hold.target⟩, hsame⟩

theorem rank_eq_standing {id : JobId} {job : JobRecord} (hid : job.id = id)
    (hcreated : job.createdAt = created id) : rank job = standing created id := by
  rw [rank, standing, hid, hcreated]

/-- The index that a convergence looks at. -/
def chosenIndex (index : SceneCandidateIndex) (shared : Bool) (s : Shelves) : SceneCandidateIndex :=
  if shared then index else buildSceneCandidateIndex s

/-- The candidates of an index are succeeded jobs for the slot as they are in the table,
and the ones with an output are those of the ledger. -/
theorem Tracks.chosenIndex (h : Tracks lib target contest created tainted WasPrimary l holder s index)
    (shared : Bool) :
    (∀ job ∈ ((chosenIndex index shared s).forTarget target).1, ∃ row, Entry target s job.id row ∧
      row.result = job.result ∧ row.createdAt = job.createdAt) ∧
    (∀ id, id ∈ l.candidates shared ↔
      ∃ job ∈ ((chosenIndex index shared s).forTarget target).1, job.id = id ∧ HasOutput job) ∧
    ((chosenIndex index shared s).forTarget target).2 = tainted := by
  cases shared with
  | true => exact ⟨h.candidates, h.snapshot, h.doubt⟩
  | false =>
    refine ⟨fun job hjob => ?_, fun id => ?_, h.taint⟩
    · obtain ⟨id, hentry⟩ := mem_candidates_build.mp hjob
      obtain rfl := h.rowId id job hentry.row
      exact ⟨job, hentry, rfl, rfl⟩
    · rw [Ledger.candidates, if_neg (by simp), h.completed]
      constructor
      · rintro ⟨job, hentry, houtput⟩
        exact ⟨job, mem_candidates_build.mpr ⟨id, hentry⟩, h.rowId id job hentry.row, houtput⟩
      · rintro ⟨job, hjob, rfl, houtput⟩
        obtain ⟨id, hentry⟩ := mem_candidates_build.mp hjob
        obtain rfl := h.rowId id job hentry.row
        exact ⟨job, hentry, houtput⟩

theorem hasOutput_congr {a b : JobRecord} (h : a.result = b.result) : HasOutput a ↔ HasOutput b := by
  unfold HasOutput
  rw [h]

/-- The usable candidates are those of the ledger. -/
theorem Tracks.usable (h : Tracks lib target contest created tainted WasPrimary l holder s index)
    (shared : Bool) :
    (∀ job ∈ usable (Story.chosenIndex index shared s) target s,
      job.id ∈ l.candidates shared ∧ rank job = standing created job.id) ∧
    ∀ id ∈ l.candidates shared, ∃ job ∈ usable (Story.chosenIndex index shared s) target s, job.id = id := by
  obtain ⟨hcandidates, hledger, -⟩ := h.chosenIndex shared
  constructor
  · intro job hjob
    rw [Story.usable, List.mem_filter, decide_eq_true_eq] at hjob
    obtain ⟨hmem, husable⟩ := hjob
    obtain ⟨row, hentry, hresult, hcreatedAt⟩ := hcandidates job hmem
    refine ⟨(hledger job.id).mpr ⟨job, hmem, rfl, ?_⟩, rank_eq_standing rfl ?_⟩
    · rcases husable with houtput | hprimary
      · exact houtput
      · by_contra hbarren
        rw [← hasOutput_congr hresult] at hbarren
        rw [h.barren job.id row hentry hbarren] at hprimary
        cases hprimary
    · rw [← hcreatedAt]
      exact (h.contender job.id (h.entered job.id row hentry) row hentry.row).2
  · intro id hid
    obtain ⟨job, hjob, rfl, houtput⟩ := (hledger id).mp hid
    refine ⟨job, ?_, rfl⟩
    rw [Story.usable, List.mem_filter, decide_eq_true_eq]
    exact ⟨hjob, .inl houtput⟩

/-- The job is the winner when it is the newest of the ledger's candidates. -/
theorem Tracks.winner {id : JobId} {job : JobRecord} {shared : Bool}
    (h : Tracks lib target contest created tainted WasPrimary l holder s index)
    (hentry : Entry target s id job) (hmem : id ∈ l.candidates shared) :
    (chooseWinner job (Story.usable (Story.chosenIndex index shared s) target s)).id = id ↔
      ∀ other ∈ l.candidates shared, standing created other ≤ standing created id := by
  obtain ⟨husable, hledger⟩ := h.usable shared
  have hid := h.rowId id job hentry.row
  have hrank : rank job = standing created id :=
    rank_eq_standing hid (h.contender id (h.entered id job hentry) job hentry.row).2
  have hwinner := id_chooseWinner_eq_iff job (Story.usable (Story.chosenIndex index shared s) target s)
    (by rw [hid]; exact hledger id hmem) (fun candidate hcandidate heq => by
      have hcandidateRank := (husable candidate hcandidate).2
      rw [heq, hid, ← hrank] at hcandidateRank
      simp only [rank, EmbeddingLike.apply_eq_iff_eq, Prod.mk.injEq] at hcandidateRank
      exact hcandidateRank.1)
  rw [hid] at hwinner
  rw [hwinner]
  constructor
  · intro hmax other hother
    obtain ⟨candidate, hcandidate, rfl⟩ := hledger other hother
    rw [← (husable candidate hcandidate).2, ← hrank]
    exact hmax candidate hcandidate
  · intro hmax candidate hcandidate
    rw [(husable candidate hcandidate).2, hrank]
    exact hmax _ (husable candidate hcandidate).1

/-- A pending job fills the slot in the stores when it takes it in the ledger. -/
theorem Tracks.fills_iff {id : JobId} {job : JobRecord} {shared : Bool}
    (h : Tracks lib target contest created tainted WasPrimary l holder s index)
    (hentry : Entry target s id job) (houtput : HasOutput job) (hpending : job.completionState = .pending)
    (hmem : id ∈ l.candidates shared) :
    Fills target (Story.chosenIndex index shared s) s job ↔
      holder = none ∧ tainted = false ∧ l.Takes created id shared := by
  have hid := h.rowId id job hentry.row
  have hcompleted : id ∈ l.completed := (h.completed id).mpr ⟨job, hentry, houtput⟩
  obtain ⟨-, -, hdoubt⟩ := h.chosenIndex shared
  obtain ⟨slot, hslot, hheld⟩ := h.slot
  have hwinner := h.winner hentry hmem
  constructor
  · intro hfills
    have hnone := hslot.inj hfills.slot
    have hholder : holder = none := by
      cases holder with
      | none => rfl
      | some held =>
        obtain ⟨asset, heq, -⟩ := hheld
        rw [hnone] at heq
        cases heq
    have htaint : tainted = false := hdoubt ▸ hfills.certain
    have hforgotten := hfills.forgotten
    have hwins := hfills.winner
    rw [hid] at hforgotten hwins
    refine ⟨hholder, htaint, hcompleted, fun hsettled => ?_, hwinner.mp hwins⟩
    rcases h.settled htaint hholder id hcompleted hsettled job hentry.row with hdone | hremembers
    · rw [hpending] at hdone
      cases hdone
    · exact hforgotten hremembers
  · rintro ⟨rfl, htaint, -, hopen, hmax⟩
    have hforgotten := (h.pending id hcompleted hopen job hentry.row).2 rfl
    cases hheld
    exact ⟨hslot, hid.symm ▸ hforgotten, .inl houtput, htaint ▸ hdoubt,
      (hwinner.mpr hmax).trans hid.symm⟩

end Tracks

end CreativeStudio.Story
