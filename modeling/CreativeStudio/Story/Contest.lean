import CreativeStudio.Story.Race

/-!
# Who ends up in the slot

Every event keeps the ledger and the stores together, so the schedule alone decides who
holds the slot. The last live binding wins; without any, the first convergence that takes
the empty slot does. What the newest job needs for winning is read off from that.
-/

namespace CreativeStudio.Story
open Data Jobs Assets Batches Storage

/-! ## One event -/

section Step
variable {lib : Library} {target : Target} {contest : List JobId} {created : JobId → ℕ}
  {tainted : Bool} {WasPrimary : JobId → AssetId → Prop} {l : Ledger} {holder : Option JobId}
  {s : Shelves} {index : SceneCandidateIndex}

/-- The index that `converge_job` is given, and falls back on. -/
theorem getD_chosenIndex (shared : Bool) (index : SceneCandidateIndex) (s : Shelves) :
    (if shared then some index else none).getD (buildSceneCandidateIndex s) =
      chosenIndex index shared s := by
  cases shared <;> rfl

/-- A convergence of a pending succeeded job, once its assets are synchronised. -/
theorem convergeJob_succeeded (given : Option SceneCandidateIndex) (retryable : Bool) {id : JobId}
    {job : JobRecord} {s' : Shelves} (hjob : s.job? id = some job) (hstatus : job.status = .succeeded)
    (hpending : job.completionState ≠ .done) (hsync : syncJob lib job s = (.ok (), s')) :
    (convergeJob lib id given retryable s).1.story = some (convergeSceneBinding job given s').1 ∧
      (convergeJob lib id given retryable s).2 =
        if (convergeSceneBinding job given s').1 = .converged ∧ retryable = false then
          (convergeSceneBinding job given s').2.markDone job
        else (convergeSceneBinding job given s').2 := by
  have hterminal : GenerationStatus.succeeded.isTerminalStatus = true := rfl
  simp only [convergeJob, job?_eq_some.mp hjob, hterminal, hstatus, hsync, hpending, Bool.not_true,
    Bool.false_eq_true, if_false, ne_eq, not_true]
  rcases hconverge : convergeSceneBinding job given s' with ⟨outcome, s''⟩
  cases outcome <;> cases retryable <;> simp

/-- What is not a pending succeeded job with an output never takes the slot. -/
theorem holderStep_of_not_takes {id : JobId} {shared retryable : Bool}
    (h : ¬ l.Takes created id shared) :
    holderStep created tainted l holder (.converge id shared retryable) = holder :=
  if_neg fun hall => h hall.2.2

/-- A convergence of a succeeded job whose completion is pending. -/
theorem Tracks.converge_pending {id : JobId} {job : JobRecord} {shared retryable : Bool}
    (h : Tracks lib target contest created tainted WasPrimary l holder s index)
    (hjob : Entry target s id job) (hpending : job.completionState = .pending)
    (hshared : shared = true → id ∈ l.completed → id ∈ l.snapshot)
    (hprimary : ∀ asset,
      (convergeJob lib id (if shared then some index else none) retryable s).2.primaryByJob id = some asset →
        WasPrimary id asset.id) :
    Tracks lib target contest created tainted WasPrimary (l.step (.converge id shared retryable))
      (holderStep created tainted l holder (.converge id shared retryable))
      (convergeJob lib id (if shared then some index else none) retryable s).2 index := by
  obtain rfl := h.rowId id job hjob.row
  have hsync : syncJob lib job s = (.ok (), (syncJob lib job s).2) := by
    refine Prod.ext ?_ rfl
    by_cases houtput : HasOutput job
    · exact h.syncs job.id job hjob houtput
    · rw [syncJob_of_not_hasOutput houtput]
  have hwrites := syncJob_writes lib job s
  have h' := h.sync hjob.row
  have hjob' : Entry target (syncJob lib job s).2 job.id job := (entry_congr target hwrites.jobs _ _).mpr hjob
  have hasset : HasUsableOutput (syncJob lib job s).2 job →
      ((syncJob lib job s).2.primaryByJob job.id).isSome := by
    rintro (houtput | hprimary)
    · obtain ⟨path, asset, hlookup, howner, -⟩ :=
        filed_of_syncJob_ok hjob.status houtput (h.syncs job.id job hjob houtput)
      exact isSome_primaryByJob.mpr ⟨_, asset, hlookup, howner⟩
    · exact hprimary
  generalize (syncJob lib job s).2 = s' at hsync hwrites h' hjob' hasset
  have houtput_of (husable : HasUsableOutput s' job) : HasOutput job := by
    by_contra hbarren
    have hnone := hasset husable
    rw [h'.barren job.id job hjob' hbarren] at hnone
    cases hnone
  have hmem (houtput : HasOutput job) : job.id ∈ l.candidates shared := by
    have hcompleted := (h.completed job.id).mpr ⟨job, hjob, houtput⟩
    cases shared with
    | true => exact hshared rfl hcompleted
    | false => exact hcompleted
  obtain ⟨slot, hslot, hheld⟩ := h'.slot
  have hne : slot ≠ some "" := by
    rintro rfl
    cases holder with
    | none => cases hheld
    | some held =>
      obtain ⟨asset, heq, hlookup, -⟩ := hheld
      exact (h'.named _ asset hlookup).2 (Option.some.inj heq).symm
  obtain ⟨-, hfinal⟩ := convergeJob_succeeded (if shared then some index else none) retryable hjob.row
    hjob.status (by rw [hpending]; simp) hsync
  obtain ⟨hjobs, hassets, hcases⟩ :=
    convergeSceneBinding_spec (if shared then some index else none) hjob' hslot hne hasset
  rw [getD_chosenIndex] at hcases
  rw [hfinal] at hprimary ⊢
  generalize convergeSceneBinding job (if shared then some index else none) s' = outcome at *
  obtain ⟨outcome, s''⟩ := outcome
  have hrow : s''.job? job.id = some job := (job?_congr hjobs _).trans hjob'.row
  have hterminal : job.status.isTerminalStatus = true := by rw [hjob.status]; rfl
  rcases hcases with ⟨hfills, hconverged, asset, hasset', hbound⟩ | ⟨hnot, hstories, hreport⟩
  · -- the slot goes to this job
    have houtput := houtput_of hfills.output
    have htakes := (h'.fills_iff hjob' houtput hpending (hmem houtput)).mp hfills
    have hwas : WasPrimary job.id asset.id := by
      refine hprimary asset ?_
      split <;> exact (primaryByJob_congr hassets _).trans hasset'
    have hheldNow := h'.bound hjob' hasset' hwas hjobs hassets hbound
    rw [holderStep, if_pos htakes]
    cases retryable with
    | true =>
      rw [if_neg (by simp)]
      exact hheldNow.converged fun _ hfalse => by cases hfalse
    | false =>
      rw [if_pos ⟨hconverged, rfl⟩]
      exact hheldNow.markDone hrow hterminal
  · have hkept := h'.congr hjobs hassets hstories
    have hholder : holderStep created tainted l holder (.converge job.id shared retryable) = holder := by
      refine if_neg fun htakes => hnot ?_
      obtain ⟨job', hentry, houtput⟩ := (h.completed job.id).mp htakes.2.2.1
      obtain rfl := Option.some.inj (hjob.row.symm.trans hentry.row)
      exact (h'.fills_iff hjob' houtput hpending (hmem houtput)).mpr htakes
    rw [hholder]
    split
    next hdone =>
      obtain ⟨-, rfl⟩ := hdone
      exact hkept.markDone hrow hterminal
    next hdone =>
      refine hkept.converged fun hcompleted hretryable htaint hnone row hrow' => .inr ?_
      obtain ⟨job', hentry, houtput⟩ := (h.completed job.id).mp hcompleted
      obtain rfl := Option.some.inj (hjob.row.symm.trans hentry.row)
      rcases hreport with hconverged | ⟨-, hbarren | hdoubt | hremembers⟩
      · exact absurd ⟨hconverged, hretryable⟩ hdone
      · exact absurd (.inl houtput) hbarren
      · rw [(h'.chosenIndex shared).2.2, htaint] at hdoubt
        cases hdoubt
      · rw [hstories]
        exact hremembers.1

/-- A usable pending job has converged, without doubt, unless its slot is still empty and
it is the newest candidate, and is remembered. -/
theorem Tracks.reports {id : JobId} {job : JobRecord} {shared retryable : Bool}
    (h : Tracks lib target contest created tainted WasPrimary l holder s index)
    (hjob : Entry target s id job) (houtput : HasOutput job) (hpending : job.completionState = .pending)
    (hmem : id ∈ l.candidates shared) (hcertain : tainted = false) :
    (convergeJob lib id (if shared then some index else none) retryable s).1.story = some .converged ∨
      holder = none ∧ Remembers target s.stories id ∧
        ∀ other ∈ l.candidates shared, standing created other ≤ standing created id := by
  obtain rfl := h.rowId id job hjob.row
  have hok := h.syncs job.id job hjob houtput
  have hsync : syncJob lib job s = (.ok (), (syncJob lib job s).2) := Prod.ext hok rfl
  have hwrites := syncJob_writes lib job s
  have h' := h.sync hjob.row
  have hjob' : Entry target (syncJob lib job s).2 job.id job := (entry_congr target hwrites.jobs _ _).mpr hjob
  obtain ⟨path, asset, hlookup, howner, -⟩ := filed_of_syncJob_ok hjob.status houtput hok
  obtain ⟨slot, hslot, hheld⟩ := h'.slot
  have hne : slot ≠ some "" := by
    rintro rfl
    cases holder with
    | none => cases hheld
    | some held =>
      obtain ⟨asset, heq, hlookup, -⟩ := hheld
      exact (h'.named _ asset hlookup).2 (Option.some.inj heq).symm
  obtain ⟨hstory, -⟩ := convergeJob_succeeded (if shared then some index else none) retryable hjob.row
    hjob.status (by rw [hpending]; simp) hsync
  obtain ⟨-, -, hcases⟩ := convergeSceneBinding_spec (if shared then some index else none) hjob' hslot hne
    fun _ => isSome_primaryByJob.mpr ⟨_, asset, hlookup, howner⟩
  rw [getD_chosenIndex] at hcases
  rw [hstory]
  rcases hcases with ⟨-, hconverged, -⟩ | ⟨-, -, hconverged | ⟨rfl, hbarren | hdoubt | ⟨hremembers, hwinner⟩⟩⟩
  · exact .inl (congrArg some hconverged)
  · exact .inl (congrArg some hconverged)
  · exact absurd (.inl houtput) hbarren
  · rw [(h'.chosenIndex shared).2.2, hcertain] at hdoubt
    cases hdoubt
  · refine .inr ⟨?_, hwrites.stories ▸ hremembers, (h'.winner hjob' hmem).mp hwinner⟩
    cases holder with
    | none => rfl
    | some held =>
      obtain ⟨asset, heq, -⟩ := hheld
      cases heq

/-- A convergence of any job of the contest. -/
theorem Tracks.converge {id : JobId} {shared retryable : Bool}
    (h : Tracks lib target contest created tainted WasPrimary l holder s index)
    (hid : id ∈ contest) (hshared : shared = true → id ∈ l.completed → id ∈ l.snapshot)
    (hprimary : ∀ asset,
      (convergeJob lib id (if shared then some index else none) retryable s).2.primaryByJob id = some asset →
        WasPrimary id asset.id) :
    Tracks lib target contest created tainted WasPrimary (l.step (.converge id shared retryable))
      (holderStep created tainted l holder (.converge id shared retryable))
      (convergeJob lib id (if shared then some index else none) retryable s).2 index := by
  have hidle (hout : id ∉ l.completed) : l.step (.converge id shared retryable) = l ∧
      holderStep created tainted l holder (.converge id shared retryable) = holder :=
    ⟨if_neg hout, holderStep_of_not_takes fun htakes => hout htakes.1⟩
  have hrecord {job : JobRecord} (hcompleted : id ∈ l.completed) (hjob : s.job? id = some job) :
      Entry target s id job ∧ HasOutput job := by
    obtain ⟨job', hentry, houtput⟩ := (h.completed id).mp hcompleted
    obtain rfl := Option.some.inj (hjob.symm.trans hentry.row)
    exact ⟨hentry, houtput⟩
  cases hlookup : s.jobs.lookup id with
  | none =>
    have hout : id ∉ l.completed := by
      intro hcompleted
      obtain ⟨job, hentry, -⟩ := (h.completed id).mp hcompleted
      rw [job?_eq_some.mp hentry.row] at hlookup
      cases hlookup
    rw [(hidle hout).1, (hidle hout).2]
    simpa only [convergeJob, hlookup] using h
  | some entry =>
    cases entry with
    | poison raw params =>
      have hout : id ∉ l.completed := by
        intro hcompleted
        obtain ⟨job, hentry, -⟩ := (h.completed id).mp hcompleted
        rw [job?_eq_some.mp hentry.row] at hlookup
        cases hlookup
      rw [(hidle hout).1, (hidle hout).2]
      simpa only [convergeJob, hlookup] using h
    | record job =>
      have hjob : s.job? id = some job := job?_eq_some.mpr hlookup
      by_cases hstatus : job.status = .succeeded
      swap
      · -- nothing for the story
        have hout : id ∉ l.completed := fun hcompleted => hstatus (hrecord hcompleted hjob).1.status
        rw [(hidle hout).2]
        simp only [convergeJob, hlookup]
        split
        · rw [(hidle hout).1]
          exact h
        next hterminal =>
        split
        · rw [(hidle hout).1]
          exact h
        cases retryable with
        | true =>
          rw [(hidle hout).1]
          exact h
        | false => exact h.markDone hjob (by simpa using hterminal)
      have hterminal : job.status.isTerminalStatus = true := by rw [hstatus]; rfl
      by_cases hdone : job.completionState = .done
      · -- the job is settled already
        have hsame : (convergeJob lib id (if shared then some index else none) retryable s).2 = s := by
          simp [convergeJob, hlookup, hterminal, hdone]
        have hnot : ¬ l.Takes created id shared := by
          rintro ⟨hcompleted, hopen, -⟩
          rw [(h.pending id hcompleted hopen job hjob).1] at hdone
          cases hdone
        rw [hsame, holderStep_of_not_takes hnot]
        refine h.converged fun _ _ _ _ row hrow => .inl ?_
        obtain rfl := Option.some.inj (hjob.symm.trans hrow)
        exact hdone
      have hpending : job.completionState = .pending := by
        cases hstate : job.completionState with
        | pending => rfl
        | done => exact absurd hstate hdone
      obtain ⟨htarget, -⟩ := h.contender id hid job hjob
      exact h.converge_pending ⟨hjob, hstatus, htarget⟩ hpending hshared hprimary

/-- What the schedule may do, given the ledger and the stores: only jobs of the contest are
for the slot, a job succeeds with an output whose asset can be synchronised, a live binding
comes after the synchronisation, and a pass lists its jobs before it takes its snapshot. -/
def Admissible (lib : Library) (target : Target) (contest : List JobId) (created : JobId → ℕ)
    (l : Ledger) (s : Shelves) : Event → Prop
  | .create job => job.id ∈ contest ∧ job.status = .queued ∧ job.completionState = .pending ∧
      selectSceneBoundParams job.request.params = some target ∧ job.createdAt = created job.id
  | .succeed id result => id ∈ contest ∧ (∃ output ∈ result.outputs, output ≠ "") ∧
      ∃ job, s.job? id = some job ∧ job.status = .postprocessing ∧
        (syncJob lib (succeededRow job result) s).1 = .ok ()
  | .bind id => id ∈ l.synced
  | .converge id shared _ => id ∈ contest ∧ (shared = true → id ∈ l.completed → id ∈ l.snapshot)
  | .advance _ _ => True
  | .sync _ => True
  | .snapshot => True

/-- A status on the way to another one that is not `succeeded`. -/
theorem not_terminal_of_transition {status next : GenerationStatus}
    (h : status.isValidTransition next = true) (hne : next ≠ .succeeded) :
    status ≠ .succeeded ∧ (next.isTerminalStatus = false → status.isTerminalStatus = false) := by
  revert h hne
  cases status <;> cases next <;> decide

/-- Every event keeps the ledger and the stores together. -/
theorem Tracks.step {e : Event} (h : Tracks lib target contest created tainted WasPrimary l holder s index)
    (hadmissible : Admissible lib target contest created l s e)
    (hprimary : ∀ id asset, ((Stage.mk s index).step lib e).shelves.primaryByJob id = some asset →
      WasPrimary id asset.id) :
    Tracks lib target contest created tainted WasPrimary (l.step e)
      (holderStep created tainted l holder e) ((Stage.mk s index).step lib e).shelves
      ((Stage.mk s index).step lib e).index := by
  cases e with
  | create job =>
    obtain ⟨hid, hstatus, hpending, htarget, hcreated⟩ := hadmissible
    simp only [Stage.step]
    split
    swap
    · exact h
    next habsent =>
    refine h.setRow_idle rfl (by simp [habsent]) (fun row hrow => ?_) (by rw [hstatus]; simp)
      (fun _ => ⟨htarget, hcreated⟩) fun _ _ => ⟨hpending, h.absent job.id hid habsent⟩
    rw [job?_eq_some.mp hrow.row] at habsent
    cases habsent
  | advance id status =>
    simp only [Stage.step]
    split
    swap
    · exact h
    next job hjob =>
    split
    swap
    · exact h
    next hmoves =>
    obtain ⟨hold, hactive⟩ := not_terminal_of_transition hmoves.1 hmoves.2
    refine h.setRow_idle (h.rowId id job hjob) (no_poison_of_job? hjob) (fun row hrow => ?_)
      (fun hnew => hmoves.2 hnew.1) (fun hid => h.contender id hid job hjob)
      fun hid hnew => h.waiting id hid job hjob (hactive hnew)
    obtain rfl := Option.some.inj (hjob.symm.trans hrow.row)
    exact hold hrow.status
  | succeed id result =>
    obtain ⟨hid, houtput, job, hjob, hstatus, hsync⟩ := hadmissible
    simp only [Stage.step, hjob, hstatus, if_true]
    exact h.setRow_succeed hid hjob hstatus houtput hsync
  | sync id =>
    simp only [Stage.step, Ledger.step, holderStep]
    cases hjob : s.job? id with
    | none =>
      have hout : id ∉ l.completed := by
        intro hcompleted
        obtain ⟨job, hentry, -⟩ := (h.completed id).mp hcompleted
        rw [hentry.row] at hjob
        cases hjob
      rw [if_neg hout]
      exact h
    | some job =>
      have hsynced := h.sync hjob
      split
      swap
      · exact hsynced
      next hcompleted =>
      refine { hsynced with synced := fun other hother => ?_ }
      rcases List.mem_cons.mp hother with rfl | hother
      · obtain ⟨row, hentry, houtput⟩ := (h.completed other).mp hcompleted
        obtain rfl := Option.some.inj (hjob.symm.trans hentry.row)
        have hfiled := filed_of_syncJob_ok hentry.status houtput (h.syncs other job hentry houtput)
        rw [h.rowId other job hjob] at hfiled
        exact ⟨hcompleted, hfiled⟩
      · exact hsynced.synced other hother
  | bind id =>
    obtain ⟨hcompleted, path, asset, hlookup, howner, -⟩ := h.synced id hadmissible
    obtain ⟨job, hentry, -⟩ := (h.completed id).mp hcompleted
    obtain ⟨primary, hasset⟩ := Option.isSome_iff_exists.mp
      (isSome_primaryByJob.mpr ⟨_, asset, hlookup, howner⟩)
    obtain ⟨slot, hslot, -⟩ := h.slot
    have hbound := (hentry.bound false (h.rowId id job hentry.row) hasset hslot fun hfalse => by cases hfalse).2
    exact h.bound hentry hasset (hprimary id primary hasset) rfl rfl hbound
  | snapshot =>
    obtain ⟨hcandidates, hledger, hdoubt⟩ := h.chosenIndex false
    exact { h with candidates := hcandidates, snapshot := hledger, doubt := hdoubt }
  | converge id shared retryable =>
    exact h.converge hadmissible.1 hadmissible.2 (hprimary id)

/-- Every event of the schedule is admissible where it happens. -/
def Legal (lib : Library) (target : Target) (contest : List JobId) (created : JobId → ℕ) :
    Ledger → Stage → List Event → Prop
  | _, _, [] => True
  | l, st, e :: rest => Admissible lib target contest created l st.shelves e ∧
    Legal lib target contest created (l.step e) (st.step lib e) rest

/-- The asset was the primary one of the job at some point of the run. -/
def WasPrimaryIn (lib : Library) (st : Stage) (events : List Event) (id : JobId) (asset : AssetId) : Prop :=
  ∃ before after, events = before ++ after ∧
    ((st.run lib before).shelves.primaryByJob id).map Asset.id = some asset

/-- What holds of every state holds of what comes after the first event. -/
theorem wasPrimaryIn_cons {st : Stage} {e : Event} {rest : List Event} {id : JobId} {asset : AssetId}
    (h : WasPrimaryIn lib (st.step lib e) rest id asset) : WasPrimaryIn lib st (e :: rest) id asset := by
  obtain ⟨before, after, rfl, hasset⟩ := h
  exact ⟨e :: before, after, rfl, hasset⟩

/-- Every schedule keeps the ledger and the stores together. -/
theorem Tracks.run (st : Stage) {events : List Event}
    (h : Tracks lib target contest created tainted WasPrimary l holder st.shelves st.index)
    (hlegal : Legal lib target contest created l st events)
    (hprimary : ∀ id asset, WasPrimaryIn lib st events id asset → WasPrimary id asset) :
    Tracks lib target contest created tainted WasPrimary (l.run events)
      (holderRun created tainted l holder events) (st.run lib events).shelves (st.run lib events).index := by
  induction events generalizing l holder st with
  | nil => exact h
  | cons e rest ih =>
    obtain ⟨hadmissible, hrest⟩ := hlegal
    refine ih (st.step lib e) (h.step hadmissible fun id asset hasset => hprimary id asset.id ?_) hrest
      fun id asset hasset => hprimary id asset (wasPrimaryIn_cons hasset)
    exact ⟨[e], rest, rfl, by rw [Option.map_eq_some_iff]; exact ⟨asset, hasset, rfl⟩⟩

end Step

/-! ## The race as a whole -/

section Contest
variable {lib : Library} {target : Target} {contest : List JobId} {created : JobId → ℕ}
  {s : Shelves}

/-- The stores before the race: the slot is empty, all jobs for it are in the contest, and
the ones that have not finished were never bound. A job that has succeeded has an output
whose asset can be synchronised, or neither output nor asset. -/
structure Opening (lib : Library) (target : Target) (contest : List JobId) (created : JobId → ℕ)
    (s : Shelves) : Prop where
  rowId : ∀ id job, s.job? id = some job → job.id = id
  entered : ∀ id job, Entry target s id job → id ∈ contest
  contender : ∀ id ∈ contest, ∀ job, s.job? id = some job →
    selectSceneBoundParams job.request.params = some target ∧ job.createdAt = created id
  waiting : ∀ id ∈ contest, ∀ job, s.job? id = some job → job.status.isTerminalStatus = false →
    job.completionState = .pending ∧ ¬ Remembers target s.stories id
  absent : ∀ id ∈ contest, s.jobs.lookup id = none → ¬ Remembers target s.stories id
  barren : ∀ id job, Entry target s id job → ¬ HasOutput job → s.primaryByJob id = none
  syncs : ∀ id job, Entry target s id job → HasOutput job → (syncJob lib job s).1 = .ok ()
  named : ∀ id asset, s.assets.lookup id = some asset → asset.id = id ∧ id ≠ ""
  owner : ∀ job path asset, s.assets.lookup (stableAssetId job path) = some asset → asset.jobId = job
  slot : SlotIs target s.stories none

/-- The stores with an index taken now. -/
def Stage.start (s : Shelves) : Stage := ⟨s, buildSceneCandidateIndex s⟩

/-- An undecodable row may be for the slot. -/
def inDoubt (target : Target) (s : Shelves) : Bool := ((buildSceneCandidateIndex s).forTarget target).2

/-- The ledger of the rows at the start: `completed` are the jobs that could fill the slot,
and `settled` those of them that never will. -/
structure Ledger.Opens (target : Target) (s : Shelves) (l : Ledger) : Prop where
  completed : ∀ id, id ∈ l.completed ↔ ∃ job, Entry target s id job ∧ HasOutput job
  settled : ∀ id, id ∈ l.settled ↔ id ∈ l.completed ∧
    ((∃ job, s.job? id = some job ∧ job.completionState = .done) ∨ Remembers target s.stories id)
  snapshot : l.snapshot = l.completed
  synced : l.synced = []
  converged : l.converged = []

theorem Opening.tracks {l : Ledger} {WasPrimary : JobId → AssetId → Prop}
    (h : Opening lib target contest created s) (hl : l.Opens target s) :
    Tracks lib target contest created (inDoubt target s) WasPrimary l none s
      (buildSceneCandidateIndex s) := by
  refine
    { rowId := h.rowId
      entered := h.entered
      contender := h.contender
      waiting := h.waiting
      absent := h.absent
      completed := hl.completed
      barren := h.barren
      syncs := h.syncs
      synced := by simp [hl.synced]
      closed := fun id hid => ((hl.settled id).mp hid).1
      pending := fun id hid hopen job hjob => ?_
      settled := fun _ _ id hid hsettled job hjob => ?_
      named := h.named
      owner := h.owner
      slot := ⟨none, h.slot, rfl⟩
      candidates := fun job hjob => ?_
      snapshot := fun id => ?_
      doubt := rfl
      taint := rfl }
  · rw [hl.settled, not_and, not_or] at hopen
    obtain ⟨hdone, hforgotten⟩ := hopen hid
    refine ⟨?_, fun _ => hforgotten⟩
    cases hstate : job.completionState with
    | pending => rfl
    | done => exact absurd ⟨job, hjob, hstate⟩ hdone
  · obtain ⟨-, ⟨row, hrow, hdone⟩ | hremembers⟩ := (hl.settled id).mp hsettled
    · obtain rfl := Option.some.inj (hjob.symm.trans hrow)
      exact .inl hdone
    · exact .inr hremembers
  · obtain ⟨id, hentry⟩ := mem_candidates_build.mp hjob
    obtain rfl := h.rowId id job hentry.row
    exact ⟨job, hentry, rfl, rfl⟩
  · rw [hl.snapshot, hl.completed]
    constructor
    · rintro ⟨job, hentry, houtput⟩
      exact ⟨job, mem_candidates_build.mpr ⟨id, hentry⟩, h.rowId id job hentry.row, houtput⟩
    · rintro ⟨job, hjob, rfl, houtput⟩
      obtain ⟨id, hentry⟩ := mem_candidates_build.mp hjob
      obtain rfl := h.rowId id job hentry.row
      exact ⟨job, hentry, houtput⟩

/-- After the schedule the slot holds an asset of the job that was its primary one when it
was bound. -/
def Secures (lib : Library) (target : Target) (st : Stage) (events : List Event) (id : JobId) : Prop :=
  ∃ slot, SlotIs target (st.run lib events).shelves.stories slot ∧
    HeldBy (WasPrimaryIn lib st events) (st.run lib events).shelves slot (some id)

/-- The slot is secured by the job that the ledger names. -/
theorem Opening.secures_iff {l : Ledger} {events : List Event} {id : JobId}
    (h : Opening lib target contest created s) (hl : l.Opens target s)
    (hlegal : Legal lib target contest created l (Stage.start s) events) :
    Secures lib target (Stage.start s) events id ↔
      holderRun created (inDoubt target s) l none events = some id := by
  have htracks := Tracks.run (Stage.start s) (h.tracks hl) hlegal fun _ _ hasset => hasset
  obtain ⟨slot, hslot, hheld⟩ := htracks.slot
  constructor
  · rintro ⟨slot', hslot', asset, rfl, hlookup, howner, -⟩
    obtain rfl := hslot.inj hslot'
    cases hholder : holderRun created (inDoubt target s) l none events with
    | none =>
      rw [hholder] at hheld
      cases hheld
    | some held =>
      rw [hholder] at hheld
      obtain ⟨asset', heq, hlookup', howner', -⟩ := hheld
      rw [← Option.some.inj heq, hlookup] at hlookup'
      cases hlookup'
      rw [← howner, ← howner']
  · intro hholder
    rw [hholder] at hheld
    exact ⟨slot, hslot, hheld⟩

/-! ## A replay of completions that were lost -/

/-- A replay: passes of convergence over jobs of the contest. -/
def Replays (contest : List JobId) (events : List Event) : Prop :=
  ∀ e ∈ events, e = .snapshot ∨ ∃ id ∈ contest, ∃ shared retryable, e = .converge id shared retryable

theorem Replays.noneLive {events : List Event} (h : Replays contest events) : NoneLive events := by
  intro id hmem
  rcases h _ hmem with heq | ⟨_, _, _, _, heq⟩ <;> cases heq

theorem Replays.tail {e : Event} {rest : List Event} (h : Replays contest (e :: rest)) :
    Replays contest rest := fun e' hmem => h e' (List.mem_cons_of_mem e hmem)

/-- A replay completes nothing, and its snapshots have all there is. -/
theorem Replays.step {l : Ledger} {e : Event} {rest : List Event} (h : Replays contest (e :: rest))
    (hsnapshot : l.snapshot = l.completed) :
    (l.step e).completed = l.completed ∧ (l.step e).snapshot = (l.step e).completed := by
  rcases h e List.mem_cons_self with rfl | ⟨id, -, shared, retryable, rfl⟩
  · exact ⟨rfl, rfl⟩
  · simp only [Ledger.step]
    split <;> exact ⟨rfl, hsnapshot⟩

theorem Replays.run {l : Ledger} {events : List Event} (h : Replays contest events)
    (hsnapshot : l.snapshot = l.completed) :
    (l.run events).completed = l.completed ∧ (l.run events).snapshot = (l.run events).completed := by
  induction events generalizing l with
  | nil => exact ⟨rfl, hsnapshot⟩
  | cons e rest ih =>
    obtain ⟨hcompleted, hnext⟩ := h.step hsnapshot
    obtain ⟨hrest, hfinal⟩ := ih h.tail hnext
    exact ⟨hrest.trans hcompleted, hfinal⟩

theorem Replays.legal {l : Ledger} {st : Stage} {events : List Event} (h : Replays contest events)
    (hsnapshot : l.snapshot = l.completed) : Legal lib target contest created l st events := by
  induction events generalizing l st with
  | nil => trivial
  | cons e rest ih =>
    refine ⟨?_, ih h.tail (h.step hsnapshot).2⟩
    rcases h e List.mem_cons_self with rfl | ⟨id, hid, shared, retryable, rfl⟩
    · trivial
    · exact ⟨hid, fun _ hcompleted => hsnapshot ▸ hcompleted⟩

/-- Ranks tell jobs apart. -/
theorem standing_inj {a b : JobId} (h : standing created a = standing created b) : a = b := by
  simp only [standing, EmbeddingLike.apply_eq_iff_eq, Prod.mk.injEq] at h
  exact h.2

/-- A replay never hurries: every convergence looks at all candidates. -/
theorem Replays.unhurried {l : Ledger} {events : List Event} {newest : JobId}
    (h : Replays contest events) (hsnapshot : l.snapshot = l.completed)
    (hnewest : newest ∈ l.completed ∧ ∀ other ∈ l.completed, standing created other ≤ standing created newest) :
    Unhurried created newest l events := by
  induction events generalizing l with
  | nil => trivial
  | cons e rest ih =>
    obtain ⟨hcompleted, hnext⟩ := h.step hsnapshot
    refine ⟨fun id shared retryable _ htakes => .inl ?_, ih h.tail hnext (hcompleted ▸ hnewest)⟩
    have hmem : newest ∈ l.candidates shared := by
      cases shared with
      | true =>
        rw [Ledger.candidates, if_pos rfl, hsnapshot]
        exact hnewest.1
      | false => exact hnewest.1
    exact standing_inj (le_antisymm (hnewest.2 id htakes.1) (htakes.2.2 newest hmem))

/-- The rows at the start have a ledger. -/
theorem Opening.exists_ledger (h : Opening lib target contest created s) :
    ∃ l : Ledger, l.Opens target s := by
  classical
  let completed := contest.filter fun id => ∃ job, Entry target s id job ∧ HasOutput job
  have hcompleted : ∀ id, id ∈ completed ↔ ∃ job, Entry target s id job ∧ HasOutput job := by
    intro id
    rw [List.mem_filter, decide_eq_true_eq, and_iff_right_iff_imp]
    rintro ⟨job, hentry, -⟩
    exact h.entered id job hentry
  refine ⟨{
    completed := completed
    snapshot := completed
    settled := completed.filter fun id =>
      (∃ job, s.job? id = some job ∧ job.completionState = .done) ∨ Remembers target s.stories id },
    hcompleted, fun id => ?_, rfl, rfl, rfl⟩
  rw [List.mem_filter, decide_eq_true_eq]

/-- A job that is converged after it has completed is in the ledger for it. -/
theorem Ledger.converged_run {l : Ledger} {events : List Event} {id : JobId} {shared retryable : Bool}
    (hcompleted : id ∈ l.completed) (h : .converge id shared retryable ∈ events) :
    id ∈ (l.run events).converged := by
  induction events generalizing l with
  | nil => cases h
  | cons e rest ih =>
    rcases List.mem_cons.mp h with rfl | hmem
    · exact (Ledger.subset_run _ rest).2 (by simp [Ledger.step, hcompleted])
    · exact ih ((l.subset_step e).1 hcompleted) hmem

/-- A slot without a holder is empty. -/
theorem Tracks.slot_none {tainted : Bool} {WasPrimary : JobId → AssetId → Prop} {l : Ledger}
    {holder : Option JobId} {index : SceneCandidateIndex}
    (h : Tracks lib target contest created tainted WasPrimary l holder s index) (hholder : holder = none) :
    SlotIs target s.stories none := by
  obtain ⟨slot, hslot, hheld⟩ := h.slot
  subst hholder
  exact hheld ▸ hslot

/-- Without an undecodable row nothing is in doubt. -/
theorem inDoubt_of_decodes (h : ∀ id raw params, s.jobs.lookup id ≠ some (.poison raw params)) :
    inDoubt target s = false := by
  rw [inDoubt, ← Bool.not_eq_true, tainted_build]
  rintro ⟨id, entry, hentry, hmay⟩
  cases entry with
  | record job => cases hmay
  | poison raw params => exact h id raw params hentry

/-- The slot of the examples. -/
def posterSlot : Target := ⟨"story", "scene", "visual"⟩

/-- A job for the slot. -/
def posterJob (id createdAt : ℕ) (status : GenerationStatus) (result : Option GenerationResult) :
    JobRecord where
  id
  projectId := none
  mediaType := .image
  status
  request :=
    { mediaType := .image, taskType := none, prompt := "a poster", negativePrompt := none
      modelId := "model", seed := none, outputFormat := none, references := []
      params := [("story_id", .str "story"), ("scene_id", .str "scene"), ("scene_role", .str "visual")] }
  result
  createdAt
  updatedAt := createdAt

/-- The result of a job: one file. -/
def posterResult (id : JobId) (path : String) : GenerationResult :=
  { jobId := id, outputs := [path], previews := [], metadata := [] }

/-- A story with one scene, which remembers some jobs, and no rows yet. -/
def posterShelves (jobIds : List JobId) : Shelves where
  jobs := ∅
  assets := ∅
  stories := Stories.empty.save { id := "story", scenes := [{ id := "scene", jobIds }] }

theorem get?_posterShelves (jobIds : List JobId) : (posterShelves jobIds).stories.get? "story" =
    some { id := "story", scenes := [{ id := "scene", jobIds }] } := Stories.get?_save rfl

theorem slotIs_posterShelves (jobIds : List JobId) :
    SlotIs posterSlot (posterShelves jobIds).stories none := by
  refine ⟨_, get?_posterShelves jobIds, ⟨{ id := "scene", jobIds }, by simp, rfl⟩, ?_⟩
  rintro scene hscene -
  obtain rfl := List.mem_singleton.mp hscene
  rfl

theorem remembers_posterShelves (jobIds : List JobId) (id : JobId) :
    Remembers posterSlot (posterShelves jobIds).stories id ↔ id ∈ jobIds := by
  constructor
  · rintro ⟨story, hstory, scene, hscene, -, hmem⟩
    obtain rfl := Option.some.inj ((get?_posterShelves jobIds).symm.trans hstory)
    obtain rfl := List.mem_singleton.mp hscene
    exact hmem
  · exact fun h => ⟨_, get?_posterShelves jobIds, { id := "scene", jobIds }, by simp, rfl, h⟩

/-- The row of a job that has succeeded. -/
def finishedJob : JobRecord := posterJob 1 0 .succeeded (some (posterResult 1 "poster.png"))

/-- A succeeded job whose completion is pending, and an empty slot. When the scene remembers
the job, the slot was cleared after it had been bound. -/
def finishedShelves (jobIds : List JobId) : Shelves := (posterShelves jobIds).setRow 1 finishedJob

theorem job?_finishedShelves {jobIds : List JobId} {id : JobId} {job : JobRecord} :
    (finishedShelves jobIds).job? id = some job ↔ id = 1 ∧ job = finishedJob := by
  rw [finishedShelves, job?_setRow]
  split
  next h => simp [h, eq_comm]
  next h => simp [h, Shelves.job?, posterShelves]

theorem entry_finishedShelves (jobIds : List JobId) :
    Entry posterSlot (finishedShelves jobIds) 1 finishedJob :=
  ⟨job?_finishedShelves.mpr ⟨rfl, rfl⟩, rfl, by decide +kernel⟩

theorem hasOutput_finishedJob : HasOutput finishedJob := by decide

theorem decodes_finishedShelves (jobIds : List JobId) : ∀ id raw params,
    (finishedShelves jobIds).jobs.lookup id ≠ some (.poison raw params) := by
  intro id raw params h
  by_cases hid : id = 1
  · subst hid
    rw [job?_eq_some.mp (entry_finishedShelves jobIds).row] at h
    cases h
  · rw [finishedShelves, lookup_setRow_of_ne _ _ hid] at h
    cases h

theorem opening_finishedShelves (jobIds : List JobId) :
    Opening Library.plain posterSlot [1] (fun _ => 0) (finishedShelves jobIds) where
  rowId id job h := by
    obtain ⟨rfl, rfl⟩ := job?_finishedShelves.mp h
    rfl
  entered id job h := by
    obtain ⟨rfl, -⟩ := job?_finishedShelves.mp h.row
    simp
  contender id _ job h := by
    obtain ⟨rfl, rfl⟩ := job?_finishedShelves.mp h
    exact ⟨(entry_finishedShelves jobIds).target, rfl⟩
  waiting id _ job h hactive := by
    obtain ⟨rfl, rfl⟩ := job?_finishedShelves.mp h
    cases hactive
  absent id hid h := by
    obtain rfl := List.mem_singleton.mp hid
    rw [job?_eq_some.mp (entry_finishedShelves jobIds).row] at h
    cases h
  barren id job h hbarren := by
    obtain ⟨rfl, rfl⟩ := job?_finishedShelves.mp h.row
    exact absurd hasOutput_finishedJob hbarren
  syncs id job h _ := by
    obtain ⟨rfl, rfl⟩ := job?_finishedShelves.mp h.row
    have hrun : (syncJob Library.plain finishedJob (posterShelves [])).1.toOption = some () := by
      decide +kernel
    exact syncJob_ok_of_files (ok_of_toOption hrun) fun _ => rfl
  named id asset h := by cases h
  owner job path asset h := by cases h
  slot := slotIs_posterShelves jobIds

theorem newest_finishedShelves (jobIds : List JobId) :
    Entry posterSlot (finishedShelves jobIds) 1 finishedJob ∧ HasOutput finishedJob ∧
      ∀ id job, Entry posterSlot (finishedShelves jobIds) id job → HasOutput job →
        standing (fun _ => 0) id ≤ standing (fun _ => 0) 1 := by
  refine ⟨entry_finishedShelves jobIds, hasOutput_finishedJob, fun id job h _ => ?_⟩
  obtain ⟨rfl, -⟩ := job?_finishedShelves.mp h.row
  exact le_rfl

/-- A replay over the job of the examples. -/
def oneReplay : List Event := [.converge 1 true false, .snapshot, .converge 1 false false]

theorem replays_oneReplay : Replays [1] oneReplay := by
  simp [Replays, oneReplay]

/-- The newest job gets the slot: its completion is the last one that is handled live, or
none is, no undecodable row may be for the slot, and no convergence has hurried. -/
def NewestPrevails (created : JobId → ℕ) (doubt : Bool) (events : List Event) (newest : JobId) : Prop :=
  LastLive newest events ∨
    NoneLive events ∧ doubt = false ∧ Unhurried created newest {} events

end Contest

/-! ### An older job that finishes late -/

/-- Two jobs for the slot that are about to succeed. -/
def racingShelves : Shelves :=
  ((posterShelves []).setRow 1 (posterJob 1 1 .postprocessing none)).setRow 2
    (posterJob 2 2 .postprocessing none)

theorem job?_racingShelves {id : JobId} {job : JobRecord} : racingShelves.job? id = some job ↔
    (id = 2 ∧ job = posterJob 2 2 .postprocessing none) ∨
      (id = 1 ∧ job = posterJob 1 1 .postprocessing none) := by
  rw [racingShelves, job?_setRow, job?_setRow]
  split
  next h => simp [h, eq_comm]
  next h =>
    split
    next h' => simp [h', eq_comm]
    next h' => simp [h, h', Shelves.job?, posterShelves]

theorem not_entry_racingShelves (id : JobId) (job : JobRecord) : ¬ Entry posterSlot racingShelves id job := by
  intro h
  rcases job?_racingShelves.mp h.row with ⟨-, rfl⟩ | ⟨-, rfl⟩ <;> cases h.status

theorem opening_racingShelves : Opening Library.plain posterSlot [1, 2] id racingShelves where
  rowId id job h := by rcases job?_racingShelves.mp h with ⟨rfl, rfl⟩ | ⟨rfl, rfl⟩ <;> rfl
  entered id job h := absurd h (not_entry_racingShelves id job)
  contender id _ job h := by
    rcases job?_racingShelves.mp h with ⟨rfl, rfl⟩ | ⟨rfl, rfl⟩
    · exact ⟨by decide +kernel, rfl⟩
    · exact ⟨by decide +kernel, rfl⟩
  waiting id _ job h _ := by
    have hforgotten : ¬ Remembers posterSlot (posterShelves []).stories id := fun hremembers => by
      cases (remembers_posterShelves _ _).mp hremembers
    rcases job?_racingShelves.mp h with ⟨rfl, rfl⟩ | ⟨rfl, rfl⟩ <;> exact ⟨rfl, hforgotten⟩
  absent id _ _ := fun hremembers => by cases (remembers_posterShelves _ _).mp hremembers
  barren id job h := absurd h (not_entry_racingShelves id job)
  syncs id job h := absurd h (not_entry_racingShelves id job)
  named id asset h := by cases h
  owner job path asset h := by cases h
  slot := slotIs_posterShelves []

/-- The older job is handled live after the newer one. -/
def lateOlderJob : List Event :=
  [.succeed 2 (posterResult 2 "new.png"), .sync 2, .bind 2,
    .succeed 1 (posterResult 1 "old.png"), .sync 1, .bind 1]

/-- Both completions were lost, and the older one is converged first. -/
def bothLost : List Event :=
  [.succeed 2 (posterResult 2 "new.png"), .succeed 1 (posterResult 1 "old.png"),
    .converge 1 false false, .converge 2 false false]

/-- Both jobs succeed with an asset that can be synchronised. -/
theorem legal_lateOlderJob :
    Legal Library.plain posterSlot [1, 2] id {} (Stage.start racingShelves) lateOlderJob := by
  refine ⟨⟨by decide, ⟨"new.png", by simp [posterResult], by decide⟩, posterJob 2 2 .postprocessing none,
      by decide +kernel, rfl, ok_of_toOption (a := ()) (by decide +kernel)⟩, trivial, ?_,
    ⟨by decide, ⟨"old.png", by simp [posterResult], by decide⟩, posterJob 1 1 .postprocessing none,
      by decide +kernel, rfl, ok_of_toOption (a := ()) (by decide +kernel)⟩, trivial, ?_, trivial⟩
  · show 2 ∈ [2]
    simp
  · show 1 ∈ [1, 2]
    simp

theorem legal_bothLost :
    Legal Library.plain posterSlot [1, 2] id {} (Stage.start racingShelves) bothLost :=
  ⟨⟨by decide, ⟨"new.png", by simp [posterResult], by decide⟩, posterJob 2 2 .postprocessing none,
      by decide +kernel, rfl, ok_of_toOption (a := ()) (by decide +kernel)⟩,
    ⟨by decide, ⟨"old.png", by simp [posterResult], by decide⟩, posterJob 1 1 .postprocessing none,
      by decide +kernel, rfl, ok_of_toOption (a := ()) (by decide +kernel)⟩,
    ⟨by decide, fun h => by cases h⟩, ⟨by decide, fun h => by cases h⟩, trivial⟩

end CreativeStudio.Story
