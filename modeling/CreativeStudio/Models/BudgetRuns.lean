import CreativeStudio.Models.Budget
import CreativeStudio.Models.Drain

/-!
# Budgets over the runs of the cache

Every section keeps the invariant of the budgets. A bucket over its budget therefore has a
leased or loading entry, the release of its last lease brings it back, and what an eviction
picks is what has not been used for longest.
-/

namespace CreativeStudio.Models
open Data Conc

namespace ModelRuntimeCache
variable {ρ : Type} {limits : Limits} {c c' : ModelRuntimeCache ρ} {id : CanonicalId} {ref : EntryRef}
  {bucket : String} {excludeId : Option CanonicalId}

/-! ## Sections -/

/-- A new entry in a bucket, before the eviction: the other buckets are as they were. -/
theorem settle_install (h : c.Budgeted limits) (htidy : c.Tidy) (hnone : c.current? id = none) (bucket : String)
    (runtime : Option ρ) (excludeId : Option CanonicalId) :
    ((c.install id bucket .ready runtime).2.evictBucketOverflow limits bucket excludeId).2.Budgeted limits := by
  have hnew : (c.install id bucket .ready runtime).2.heap c.made =
      { canonicalId := id, mediaBucket := bucket, state := .ready, runtime, generation := c.nextGeneration id } := by
    simp [install]
  refine Budgeted.settle (htidy.install ..) bucket excludeId (fun other hne => ?_) fun other => ?_
  · rw [tally_install htidy hnone, tally_install htidy hnone, hnew, if_neg fun hlive => hne hlive.1.symm,
      if_neg fun hspare => hne hspare.1.symm]
    exact h.spare other
  · rw [tally_install htidy hnone, hnew, if_neg fun hloads => by cases hloads.2]
    exact h.loads other

theorem Budgeted.put [DecidableEq ρ] (h : c.Budgeted limits) (htidy : c.Tidy) (id : CanonicalId) (runtime : ρ)
    (mediaType : Option String) : (c.put limits id runtime mediaType).2.Budgeted limits := by
  unfold ModelRuntimeCache.put
  cases hcur : c.current? id with
  | none => exact settle_install h htidy hcur _ _ _
  | some ref =>
    dsimp only
    split
    · exact h
    case isFalse hbusy =>
      split
      case isTrue hsame =>
        split
        · exact h
        · have hidle := RuntimeEntry.isEvictable_iff_not_isBusy.2 hbusy
          have hmodify := fun (P : RuntimeEntry ρ → Prop) [DecidablePred P] => tally_modify (P := P) htidy hcur fun entry =>
            { entry with mediaBucket := limits.bucketOf mediaType }
          have hmoved : (c.modify ref fun entry => { entry with mediaBucket := limits.bucketOf mediaType }).Tidy :=
            htidy.modify rfl (htidy.unleased id ref hcur)
          refine Budgeted.settle (hmoved.moveToEnd id) _ _ (fun other hne => ?_) fun other => ?_
          · rw [tally_moveToEnd hmoved, tally_moveToEnd hmoved]
            intro hover
            have hlive := hmodify (RuntimeEntry.Live other)
            have hspare := hmodify (RuntimeEntry.Spare other)
            have haway : ∀ P, ¬ ((limits.bucketOf mediaType = other) ∧ P) := fun P hboth => hne hboth.1.symm
            simp only [RuntimeEntry.Live, RuntimeEntry.Spare, haway, if_false, Nat.add_zero] at hlive hspare
            have hbefore := h.spare other
            omega
          · rw [tally_moveToEnd hmoved]
            have hloads := hmodify (RuntimeEntry.Loads other)
            have hstate : (c.heap ref).state ≠ .loading := fun hstate => by
              have hevictable := hidle.2
              simp [hstate, evictableStates] at hevictable
            rw [if_neg (fun hloads => hstate hloads.2), if_neg (fun hloads => hstate hloads.2)] at hloads
            exact hloads.le.trans (h.loads other)
      case isFalse =>
        have hnone : (c.remove id).current? id = none := by rw [current?_remove, if_pos rfl]
        exact settle_install (h.remove htidy id) (htidy.remove id) hnone _ _ _

theorem Budgeted.unload (h : c.Budgeted limits) (htidy : c.Tidy) (id : CanonicalId) : (c.unload id).2.Budgeted limits := by
  unfold ModelRuntimeCache.unload
  cases hcur : c.current? id with
  | none => exact h
  | some ref =>
    dsimp only
    split
    · exact h
    case isFalse hbusy => exact h.retire htidy hcur (RuntimeEntry.isEvictable_iff_not_isBusy.2 hbusy)

theorem Budgeted.unloadAll (h : c.Budgeted limits) (htidy : c.Tidy) : (c.unloadAll).2.Budgeted limits := by
  unfold ModelRuntimeCache.unloadAll
  dsimp only
  split
  case isTrue hbusy =>
    have hsub : ∀ entry ∈ c.entries, c.current? entry.1 = some entry.2 ∧ (c.heap entry.2).IsEvictable := by
      intro entry hmem
      refine ⟨htidy.current?_of_mem hmem, RuntimeEntry.isEvictable_iff_not_isBusy.2 fun hentry => ?_⟩
      have hnone := List.filter_eq_nil_iff.1 (List.isEmpty_iff.1 hbusy) entry hmem
      exact hnone (by simpa using hentry)
    exact h.retires (foldl_retire_spec htidy hsub htidy.keys)
  · exact h

/-- A reservation is made only where there is room. -/
theorem Budgeted.reserve (h : c.Budgeted limits) (htidy : c.Tidy) (hnone : c.current? id = none)
    (hroom : (c.bucketEntries bucket).length < limits.budget bucket) : (c.reserve id bucket).2.Budgeted limits := by
  have hnew : (c.reserve id bucket).2.heap c.made =
      { canonicalId := id, mediaBucket := bucket, state := .loading, generation := c.nextGeneration id } := by
    simp [ModelRuntimeCache.reserve, install]
  have hinstall := fun (P : RuntimeEntry ρ → Prop) [DecidablePred P] =>
    tally_install (P := P) htidy hnone bucket .loading none
  have hreserve : (c.install id bucket .loading none).2 = (c.reserve id bucket).2 := rfl
  simp only [hreserve, hnew] at hinstall
  obtain ⟨hlive, hloads⟩ := length_bucketEntries c bucket
  refine ⟨fun other hover => ?_, fun other => ?_⟩
  · have hspare := hinstall (RuntimeEntry.Spare other)
    rw [if_neg fun hspare => by simp [RuntimeEntry.Spare, RuntimeEntry.IsEvictable, evictableStates] at hspare] at hspare
    rw [hspare]
    have hlive' := hinstall (RuntimeEntry.Live other)
    by_cases heq : bucket = other
    · subst heq
      split at hlive' <;> omega
    · rw [if_neg fun hlive => heq hlive.1] at hlive'
      exact h.spare other (by omega)
  · have hloads' := hinstall (RuntimeEntry.Loads other)
    by_cases heq : bucket = other
    · subst heq
      split at hloads' <;> omega
    · rw [if_neg fun hloads => heq hloads.1] at hloads'
      exact hloads'.le.trans (h.loads other)

theorem bucketEntries_reserve (htidy : c.Tidy) (hnone : c.current? id = none) (bucket : String) :
    ((c.reserve id bucket).2.bucketEntries bucket).length = (c.bucketEntries bucket).length + 1 := by
  have hinstall := tally_install (P := fun entry => entry.mediaBucket = bucket) htidy hnone bucket .loading none
  have hcount : ∀ c : ModelRuntimeCache ρ, (c.bucketEntries bucket).length = c.tally fun entry => entry.mediaBucket = bucket :=
    fun c => by rw [bucketEntries, ← List.countP_eq_length_filter]; rfl
  rw [hcount, hcount, ModelRuntimeCache.reserve, hinstall]
  simp [install]

theorem Budgeted.acquireOrReserve (h : c.Budgeted limits) (htidy : c.Tidy) (id : CanonicalId) (mediaType : Option String) :
    (c.acquireOrReserve limits id mediaType).2.Budgeted limits := by
  unfold ModelRuntimeCache.acquireOrReserve
  cases hcur : c.current? id with
  | some ref =>
    dsimp only
    cases hstate : (c.heap ref).state with
    | loading | retiring => exact h
    | ready =>
      have hpin : (c.modify ref fun entry => { entry with leaseCount := entry.leaseCount + 1 }).Budgeted limits :=
        h.modify htidy hcur (fun _ hlive => hlive)
          (fun _ hspare => absurd (Nat.succ_pos _) hspare.2.1) fun _ hloads => hloads
      refine hpin.moveToEnd (htidy.modify rfl ?_) id
      simp [hstate, busyForUnloadStates]
    | invalid =>
      dsimp only
      split
      · exact h
      case isFalse hpinned => exact h.retire htidy hcur ⟨hpinned, by simp [hstate, evictableStates]⟩
  | none =>
    dsimp only
    split
    · exact h
    case h_2 hvictim => exact h.reserve htidy hcur (lt_budget_of_select hvictim)
    case h_3 hvictim =>
      obtain ⟨hmem, hevictable⟩ := selectCapacityVictim_spec hvictim
      exact h.retire htidy (htidy.current?_of_mem hmem) hevictable

theorem Budgeted.acquireRecheck (h : c.Budgeted limits) (htidy : c.Tidy) (id : CanonicalId) (mediaType : Option String) :
    (c.acquireRecheck limits id mediaType).2.Budgeted limits := by
  unfold ModelRuntimeCache.acquireRecheck
  dsimp only
  split
  · exact h
  case isFalse hcur =>
    have hnone : c.current? id = none := by simpa using hcur
    split
    · exact h
    · exact h
    case h_3 hvictim => exact h.reserve htidy hnone (lt_budget_of_select hvictim)

theorem Budgeted.publish (h : c.Budgeted limits) (htidy : c.Tidy) (hreserved : c.Reserved id ref) (runtime : ρ) :
    (c.publishReadyAndPin id ref runtime).2.Budgeted limits := by
  unfold ModelRuntimeCache.publishReadyAndPin
  have hstate := hreserved.unleased htidy
  rw [if_pos hreserved.1]
  have hpublish : (c.modify ref fun entry =>
      { entry with runtime := some runtime, state := .ready, leaseCount := 1 }).Budgeted limits := by
    refine h.modify htidy hreserved.1 (fun _ hlive => ⟨hlive.1, by simp [hstate]⟩) (fun _ hspare => ?_)
      fun _ hloads => nomatch hloads.2
    exact absurd Nat.one_pos hspare.2.1
  refine hpublish.moveToEnd (htidy.modify rfl ?_) id
  simp [busyForUnloadStates]

/-- A lease less, before the eviction: only the bucket of the entry has changed. -/
theorem tally_unlease {P : RuntimeEntry ρ → Prop} [DecidablePred P] (htidy : c.Tidy) (hcur : c.current? id = some ref)
    (hP : P { c.heap ref with leaseCount := (c.heap ref).leaseCount - 1 } ↔ P (c.heap ref)) :
    (c.modify ref fun entry => { entry with leaseCount := entry.leaseCount - 1 }).tally P = c.tally P := by
  have hmodify := tally_modify (P := P) htidy hcur fun entry => { entry with leaseCount := entry.leaseCount - 1 }
  simp only [hP] at hmodify
  omega

theorem Tidy.unlease (htidy : c.Tidy) (hcur : c.current? id = some ref) :
    (c.modify ref fun entry => { entry with leaseCount := entry.leaseCount - 1 }).Tidy := by
  refine htidy.modify rfl fun hstate => ?_
  have hleases := htidy.unleased id ref hcur hstate
  simp [hleases]

theorem Budgeted.releaseLease (h : c.Budgeted limits) (htidy : c.Tidy) (id : CanonicalId) (ref : EntryRef) :
    (c.releaseLease limits id ref).2.Budgeted limits := by
  unfold ModelRuntimeCache.releaseLease
  split
  case isFalse => exact h
  case isTrue hcur =>
    dsimp only
    split
    case isTrue hzero =>
      have hbucket : (((c.modify ref fun entry => { entry with leaseCount := entry.leaseCount - 1 }).heap ref).mediaBucket) =
          (c.heap ref).mediaBucket := by simp
      refine Budgeted.settle (htidy.unlease hcur) _ none (fun other hne => ?_) fun other => ?_
      · rw [hbucket] at hne
        rw [tally_unlease htidy hcur ⟨fun hlive => absurd hlive.1.symm hne, fun hlive => absurd hlive.1.symm hne⟩,
          tally_unlease htidy hcur ⟨fun hspare => absurd hspare.1.symm hne, fun hspare => absurd hspare.1.symm hne⟩]
        exact h.spare other
      · rw [tally_unlease htidy hcur Iff.rfl]
        exact h.loads other
    case isFalse hleased =>
      have hpinned : 0 < (c.heap ref).leaseCount - 1 := by
        simp only [heap_modify, Function.update_self] at hleased
        omega
      exact h.modify (f := fun entry => { entry with leaseCount := entry.leaseCount - 1 }) htidy hcur
        (fun _ hlive => hlive) (fun _ hspare => absurd hpinned hspare.2.1) fun _ hloads => hloads

/-- When the last lease of a bucket is over, the bucket is within its budget. -/
theorem releaseLease_restores (h : c.Budgeted limits) (htidy : c.Tidy) (hcur : c.current? id = some ref)
    (hfree : ∀ entry ∈ (c.releaseLease limits id ref).2.bucketEntries (c.heap ref).mediaBucket,
      ¬ ((c.releaseLease limits id ref).2.heap entry.2).IsPinned) :
    (c.releaseLease limits id ref).2.occupancy (c.heap ref).mediaBucket ≤ limits.budget (c.heap ref).mediaBucket := by
  have hloads := (h.releaseLease htidy id ref).loads (c.heap ref).mediaBucket
  unfold ModelRuntimeCache.releaseLease at hfree hloads ⊢
  simp only [hcur, if_true] at hfree hloads ⊢
  split at hfree
  case isTrue hzero =>
    rw [if_pos hzero] at hloads ⊢
    have hbucket : (((c.modify ref fun entry => { entry with leaseCount := entry.leaseCount - 1 }).heap ref).mediaBucket) =
        (c.heap ref).mediaBucket := by simp
    rw [hbucket] at hfree hloads ⊢
    rcases evictBucketOverflow_settles limits (htidy.unlease hcur) (c.heap ref).mediaBucket none with hwithin | hidle
    · exact hwithin
    · -- what is live is neither leased nor free to pick, so it is being loaded
      rw [occupancy_eq]
      refine le_trans (List.countP_mono_left fun entry hmem hlive => ?_) hloads
      have hlive := of_decide_eq_true hlive
      have hentry : entry ∈ bucketEntries _ (c.heap ref).mediaBucket := List.mem_filter.2 ⟨hmem, decide_eq_true hlive.1⟩
      have hspare : ¬ RuntimeEntry.Spare (c.heap ref).mediaBucket _ := fun hspare => by
        cases hidle entry (List.mem_filter.2 ⟨hentry, decide_eq_true hspare.2⟩)
      rcases hlive.cases hspare with hpinned | hloading
      · exact absurd hpinned (hfree entry hentry)
      · exact decide_eq_true ⟨hlive.1, hloading⟩
  case isFalse hleased =>
    have hmem := mem_entries hcur
    exact absurd (Nat.pos_of_ne_zero hleased) (hfree (id, ref) (List.mem_filter.2 ⟨hmem, by simp⟩))

theorem Budgeted.markInvalid (h : c.Budgeted limits) (htidy : c.Tidy) (id : CanonicalId) (ref : EntryRef) :
    (c.markInvalid id ref).Budgeted limits := by
  unfold ModelRuntimeCache.markInvalid
  split
  case isTrue hboth =>
    refine h.modify htidy hboth.1 (fun _ hlive => ⟨hlive.1, by simp [hboth.2]⟩) (fun _ hspare => ?_)
      fun _ hloads => nomatch hloads.2
    exact ⟨hspare.1, hspare.2.1, by simp [hboth.2, evictableStates]⟩
  · exact h

/-! ## What is picked -/

/-- The entry that has just been put is the last one, and the others stand as they did. -/
theorem idleEntries_put (hentries : c'.entries = c.entries.erase id ++ [(id, ref)])
    (hheap : ∀ entry ∈ c.entries.erase id, c'.heap entry.2 = c.heap entry.2) (bucket : String) :
    ((c'.bucketEntries bucket).filter fun entry => some entry.1 ≠ some id ∧ (c'.heap entry.2).IsEvictable) =
      (c.idleEntries bucket).filter fun entry => entry.1 ≠ id := by
  unfold idleEntries bucketEntries
  rw [hentries, List.filter_append, List.filter_append]
  have hlast : (List.filter (fun entry => decide (some entry.1 ≠ some id ∧ (c'.heap entry.2).IsEvictable))
      (List.filter (fun entry => decide ((c'.heap entry.2).mediaBucket = bucket)) [(id, ref)])) = [] := by
    rw [List.filter_eq_nil_iff]
    intro entry hmem
    have hid : entry = (id, ref) := List.mem_singleton.1 (List.mem_of_mem_filter hmem)
    simp [hid]
  rw [hlast, List.append_nil, List.filter_filter, List.filter_congr fun entry hmem => by rw [hheap entry hmem]]
  unfold Dict.erase
  simp only [List.filter_filter]
  refine List.filter_congr fun entry _ => ?_
  rw [Bool.eq_iff_iff]
  simp only [ne_eq, Option.some.injEq, Bool.and_eq_true, decide_eq_true_eq, bne_iff_ne]
  tauto

/-- `put` picks the least recently used entries of its bucket but for its own. -/
theorem put_picks [DecidableEq ρ] (htidy : c.Tidy) {runtime : ρ} {mediaType : Option String} {cleanup : PutCleanup ρ}
    (hput : (c.put limits id runtime mediaType).1 = .ok cleanup) :
    cleanup.overflow <+: (c.idleEntries (limits.bucketOf mediaType)).filter fun entry => entry.1 ≠ id := by
  have hpicks : ∀ {c' : ModelRuntimeCache ρ} (ref : EntryRef), c'.Tidy → c'.entries = c.entries.erase id ++ [(id, ref)] →
      (∀ entry ∈ c.entries.erase id, c'.heap entry.2 = c.heap entry.2) →
      (c'.evictBucketOverflow limits (limits.bucketOf mediaType) (some id)).1 <+:
        (c.idleEntries (limits.bucketOf mediaType)).filter fun entry => entry.1 ≠ id := by
    intro c' ref htidy' hentries hheap
    have hbegins := evictBucketOverflow_prefix limits htidy' (limits.bucketOf mediaType) (some id)
    rwa [idleEntries_put hentries hheap] at hbegins
  have hold : ∀ entry ∈ c.entries.erase id, entry.2 ≠ c.made := fun entry hmem =>
    (htidy.made _ _ (htidy.current?_of_mem (List.mem_of_mem_filter hmem))).ne
  unfold ModelRuntimeCache.put at hput
  cases hcur : c.current? id with
  | none =>
    simp only [hcur, settlePut, Except.ok.injEq] at hput
    subst hput
    refine hpicks c.made (htidy.install ..) ?_ fun entry hmem => by simp [install, hold entry hmem]
    rw [erase_of_absent hcur]
    exact Dict.set_of_notMem (notMem_names hcur) _
  | some ref =>
    simp only [hcur] at hput
    split at hput
    · cases hput
    split at hput
    · split at hput
      · cases hput
      · simp only [settlePut, Except.ok.injEq] at hput
        subst hput
        have hmoved : (c.modify ref fun entry => { entry with mediaBucket := limits.bucketOf mediaType }).Tidy :=
          htidy.modify rfl (htidy.unleased id ref hcur)
        refine hpicks ref (hmoved.moveToEnd id) ?_ fun entry hmem => ?_
        · unfold ModelRuntimeCache.moveToEnd
          rw [current?_modify, hcur]
          rfl
        · simp [ne_of_mem_erase htidy hcur hmem]
    · simp only [settlePut, Except.ok.injEq] at hput
      subst hput
      have hnone : (c.remove id).current? id = none := by rw [current?_remove, if_pos rfl]
      refine hpicks c.made ((htidy.remove id).install ..) ?_ fun entry hmem => by simp [install, hold entry hmem]
      exact Dict.set_of_notMem (notMem_names hnone) _

theorem releaseLease_picks (htidy : c.Tidy) (hcur : c.current? id = some ref) :
    (c.releaseLease limits id ref).1 <+:
      (c.modify ref fun entry => { entry with leaseCount := entry.leaseCount - 1 }).idleEntries (c.heap ref).mediaBucket := by
  unfold ModelRuntimeCache.releaseLease
  rw [if_pos hcur]
  dsimp only
  split
  · have hbegins := evictBucketOverflow_prefix limits (htidy.unlease hcur) (c.heap ref).mediaBucket none
    have hsame : ∀ (c : ModelRuntimeCache ρ) (bucket : String), ((c.bucketEntries bucket).filter fun entry =>
        some entry.1 ≠ none ∧ (c.heap entry.2).IsEvictable) = c.idleEntries bucket :=
      fun c _ => List.filter_congr fun entry _ => by simp
    rw [hsame] at hbegins
    simpa using hbegins
  · exact List.nil_prefix

theorem acquireOrReserve_picks {mediaType : Option String} {victim : CanonicalId × EntryRef} (hnone : c.current? id = none)
    (hacquire : (c.acquireOrReserve limits id mediaType).1 = .ok (.victim victim.1 victim.2)) :
    (c.idleEntries (limits.bucketOf mediaType)).head? = some victim := by
  unfold ModelRuntimeCache.acquireOrReserve at hacquire
  simp only [hnone] at hacquire
  split at hacquire
  · cases hacquire
  · cases hacquire
  case h_3 hvictim =>
    cases hacquire
    exact head_of_select hvictim

/-! ## What is reserved -/

/-- The bucket of an entry is within its budget, whatever is being torn down in it. -/
def Fits (limits : Limits) (c : ModelRuntimeCache ρ) (ref : EntryRef) : Prop :=
  (c.bucketEntries (c.heap ref).mediaBucket).length ≤ limits.budget (c.heap ref).mediaBucket

theorem reserve_fits (htidy : c.Tidy) (hnone : c.current? id = none) {budgetFor : CanonicalId}
    (hroom : c.selectCapacityVictim limits bucket budgetFor = .ok none) : (c.reserve id bucket).2.Fits limits c.made := by
  have hlt := lt_budget_of_select hroom
  have hbucket : ((c.reserve id bucket).2.heap c.made).mediaBucket = bucket := by
    simp [ModelRuntimeCache.reserve, install]
  rw [Fits, hbucket, bucketEntries_reserve htidy hnone]
  exact hlt

theorem acquireOrReserve_fits (limits : Limits) (htidy : c.Tidy) (id : CanonicalId) (mediaType : Option String)
    (ref : EntryRef) (hreserved : (c.acquireOrReserve limits id mediaType).1 = .ok (.reserved ref)) :
    (c.acquireOrReserve limits id mediaType).2.Fits limits ref := by
  unfold ModelRuntimeCache.acquireOrReserve at hreserved ⊢
  cases hcur : c.current? id with
  | some ref' =>
    simp only [hcur] at hreserved
    cases hstate : (c.heap ref').state <;> simp only [hstate] at hreserved
    case invalid => split at hreserved <;> cases hreserved
    all_goals cases hreserved
  | none =>
    simp only [hcur] at hreserved ⊢
    cases hvictim : c.selectCapacityVictim limits (limits.bucketOf mediaType) id with
    | error e => simp [hvictim] at hreserved
    | ok victim =>
      cases victim with
      | some victim => simp [hvictim] at hreserved
      | none =>
        simp only [hvictim, Except.ok.injEq, Claim.reserved.injEq] at hreserved
        subst hreserved
        exact reserve_fits htidy hcur hvictim

theorem acquireRecheck_fits (limits : Limits) (htidy : c.Tidy) (id : CanonicalId) (mediaType : Option String)
    (ref : EntryRef) (hreserved : (c.acquireRecheck limits id mediaType).1 = .ok ref) :
    (c.acquireRecheck limits id mediaType).2.Fits limits ref := by
  unfold ModelRuntimeCache.acquireRecheck at hreserved ⊢
  dsimp only at hreserved ⊢
  by_cases hcur : (c.current? id).isSome
  · simp [hcur] at hreserved
  have hnone : c.current? id = none := by simpa using hcur
  simp only [hnone, Option.isSome_none, Bool.false_eq_true, if_false] at hreserved ⊢
  cases hvictim : c.selectCapacityVictim limits (limits.bucketOf mediaType) id with
  | error e => simp [hvictim] at hreserved
  | ok victim =>
    cases victim with
    | some victim => simp [hvictim] at hreserved
    | none =>
      simp only [hvictim, Except.ok.injEq] at hreserved
      subst hreserved
      exact reserve_fits htidy hnone hvictim

theorem Budgeted.finishRetirement (h : c.Budgeted limits) (htidy : c.Tidy) (id : CanonicalId) (ref : EntryRef) :
    (c.finishRetirement id ref).Budgeted limits := by
  unfold ModelRuntimeCache.finishRetirement
  split
  · exact h.remove htidy id
  · exact h

theorem Budgeted.abortReservation (h : c.Budgeted limits) (htidy : c.Tidy) (id : CanonicalId) (ref : EntryRef) :
    (c.abortReservation id ref).Budgeted limits := by
  unfold ModelRuntimeCache.abortReservation
  split
  · exact h.remove htidy id
  · exact h

theorem Budgeted.get (h : c.Budgeted limits) (htidy : c.Tidy) (id : CanonicalId) : (c.get id).2.Budgeted limits := by
  unfold ModelRuntimeCache.get
  split
  · exact h
  split
  · exact h.moveToEnd htidy id
  · exact h

theorem budgeted_empty (limits : Limits) (ρ : Type) : (empty ρ).Budgeted limits :=
  ⟨fun _ _ => Nat.zero_le _, fun _ => Nat.zero_le _⟩

/-- A bucket over its budget has an entry that no eviction may touch. -/
theorem Budgeted.overBudget (h : c.Budgeted limits) (hover : limits.budget bucket < c.occupancy bucket) :
    ∃ entry ∈ c.bucketEntries bucket, (c.heap entry.2).IsPinned ∨ (c.heap entry.2).state = .loading := by
  rw [occupancy_eq] at hover
  have hspare := h.spare bucket hover
  have hbudget := limits.budget_pos bucket
  by_contra hnone
  have hle : c.tally (RuntimeEntry.Live bucket) ≤ c.tally (RuntimeEntry.Spare bucket) := by
    refine List.countP_mono_left fun entry hmem hlive => ?_
    have hlive := of_decide_eq_true hlive
    by_contra hnot
    have hcases := hlive.cases fun hspare => hnot (decide_eq_true hspare)
    exact hnone ⟨entry, List.mem_filter.2 ⟨hmem, decide_eq_true hlive.1⟩, hcases⟩
  omega

end ModelRuntimeCache

namespace CacheSystem
variable {ρ : Type} {limits : Limits} {s s' : CacheSystem ρ} {t : Tid}

@[simp] theorem cache_occupy (s : CacheSystem ρ) (t : Tid) (activity : Activity ρ) :
    (s.occupy t activity).cache = s.cache := rfl

@[simp] theorem cache_clean (s : CacheSystem ρ) (t : Tid) (first : List (Chore ρ))
    (victims : List (CanonicalId × EntryRef)) (resume : Option (CanonicalId × Option String)) :
    (s.clean t first victims resume).cache = s.cache := rfl

theorem call_budgeted [DecidableEq ρ] {call : Call ρ} (h : s.Sound) (hbudget : s.cache.Budgeted limits)
    (hcall : s.call limits t call = some s') : s'.cache.Budgeted limits := by
  cases call with
  | get id =>
    cases hcall
    exact hbudget.get h.tidy id
  | put id runtime mediaType =>
    have hput := hbudget.put h.tidy id runtime mediaType
    simp only [CacheSystem.call] at hcall
    split at hcall <;> rename_i heq <;> cases hcall <;> simpa [heq] using hput
  | unload id =>
    have hunload := hbudget.unload h.tidy id
    simp only [CacheSystem.call] at hcall
    split at hcall
    case h_1 heq =>
      cases hcall
      simpa [heq] using hunload
    case h_2 heq =>
      cases hcall
      simpa [heq] using hunload
  | unloadAll =>
    have hunload := hbudget.unloadAll h.tidy
    simp only [CacheSystem.call] at hcall
    split at hcall <;> rename_i heq <;> cases hcall <;> simpa [heq] using hunload
  | acquireOrReserve id mediaType =>
    have hacquire := hbudget.acquireOrReserve h.tidy id mediaType
    simp only [CacheSystem.call] at hcall
    split at hcall <;> rename_i heq <;> cases hcall <;> simpa [heq] using hacquire
  | publishReadyAndPin id reserved runtime =>
    simp only [CacheSystem.call] at hcall
    split at hcall <;> cases hcall
    rename_i hmem
    exact hbudget.publish h.tidy (h.reserved _ hmem) runtime
  | abortReservation id reserved =>
    simp only [CacheSystem.call] at hcall
    split at hcall <;> cases hcall
    exact hbudget.abortReservation h.tidy id reserved
  | releaseLease id ref =>
    have hrelease := hbudget.releaseLease h.tidy id ref
    simp only [CacheSystem.call] at hcall
    split at hcall <;> cases hcall <;> exact hrelease
  | markInvalid id ref =>
    cases hcall
    exact hbudget.markInvalid h.tidy id ref
  | waitForStaleEntryDrain id ref expired =>
    cases hcall
    rwa [cache_look]

theorem step_budgeted [DecidableEq ρ] {event : Event ρ} (h : s.Sound) (hbudget : s.cache.Budgeted limits)
    (hstep : step limits event s = some s') : s'.cache.Budgeted limits := by
  cases event with
  | call t call =>
    simp only [step] at hstep
    split at hstep
    · exact call_budgeted h hbudget hstep
    · cases hstep
  | proceed t raises =>
    simp only [step, proceed] at hstep
    split at hstep
    · cases hstep
      exact hbudget
    · split at hstep <;> cases hstep <;> exact hbudget
    · cases hstep
      exact hbudget.finishRetirement h.tidy _ _
    · rename_i id mediaType _
      have hrecheck := hbudget.acquireRecheck h.tidy id mediaType
      split at hstep <;> rename_i heq <;> cases hstep <;> simpa [heq] using hrecheck
    · cases hstep
  | recheck t expired =>
    simp only [step] at hstep
    split at hstep <;> cases hstep
    rwa [cache_look]
  | wakeUp t =>
    simp only [step] at hstep
    split at hstep <;> cases hstep
    exact hbudget

theorem Reachable.budgeted [DecidableEq ρ] (h : s.Reachable limits) : s.cache.Budgeted limits := by
  obtain ⟨run, hrun⟩ := h
  have hboth : s.Sound ∧ s.cache.Budgeted limits :=
    holds_of_run (I := fun s => s.Sound ∧ s.cache.Budgeted limits)
      (fun _ _ _ h hstep => ⟨(step_spec h.1 hstep).sound, step_budgeted h.1 h.2 hstep⟩)
      ⟨sound_start, ModelRuntimeCache.budgeted_empty limits ρ⟩ hrun
  exact hboth.2

/-- A step gives a reservation out only for an entry that fits into its bucket. -/
theorem fits_of_step [DecidableEq ρ] {event : Event ρ} {id : CanonicalId} {ref : EntryRef} (h : s.Sound)
    (hstep : step limits event s = some s') (hnew : s'.reservations = (id, ref) :: s.reservations) :
    s'.cache.Fits limits ref := by
  have hsame : s'.reservations = s.reservations → s'.cache.Fits limits ref := fun hsame =>
    absurd (hsame.symm.trans hnew) (List.cons_ne_self _ _).symm
  have herase : ∀ reservation, s'.reservations = s.reservations.erase reservation → s'.cache.Fits limits ref := by
    intro reservation herase
    have hlength := List.length_erase_le (a := reservation) (l := s.reservations)
    rw [← herase, hnew, List.length_cons] at hlength
    omega
  cases event with
  | call t call =>
    simp only [step] at hstep
    split at hstep
    case h_2 => cases hstep
    case h_1 =>
      cases call with
      | get id | markInvalid id ref =>
        cases hstep
        exact hsame rfl
      | waitForStaleEntryDrain id ref expired =>
        cases hstep
        refine hsame ?_
        unfold look
        split
        · split <;> rfl
        · rfl
      | put | unload | unloadAll | releaseLease =>
        simp only [CacheSystem.call] at hstep
        split at hstep <;> cases hstep <;> exact hsame rfl
      | publishReadyAndPin | abortReservation =>
        simp only [CacheSystem.call] at hstep
        split at hstep <;> cases hstep
        exact herase _ rfl
      | acquireOrReserve id' mediaType =>
        have hfits := ModelRuntimeCache.acquireOrReserve_fits limits h.tidy id' mediaType
        simp only [CacheSystem.call] at hstep
        split at hstep
        case h_2 heq =>
          cases hstep
          obtain ⟨rfl, rfl⟩ : _ ∧ _ := by simpa using hnew
          simp only [heq] at hfits
          exact hfits _ rfl
        all_goals
          cases hstep
          exact hsame rfl
  | proceed t raises =>
    simp only [step, proceed] at hstep
    split at hstep
    · cases hstep
      exact hsame rfl
    · split at hstep <;> cases hstep <;> exact hsame rfl
    · cases hstep
      exact hsame rfl
    · rename_i id' mediaType _
      have hfits := ModelRuntimeCache.acquireRecheck_fits limits h.tidy id' mediaType
      split at hstep
      case h_1 heq =>
        cases hstep
        obtain ⟨rfl, rfl⟩ : _ ∧ _ := by simpa [occupy] using hnew
        simp only [heq] at hfits
        exact hfits _ rfl
      case h_2 =>
        cases hstep
        exact hsame rfl
    · cases hstep
  | recheck t expired =>
    simp only [step] at hstep
    split at hstep <;> cases hstep
    refine hsame ?_
    unfold look
    split
    · split <;> rfl
    · rfl
  | wakeUp t =>
    simp only [step] at hstep
    split at hstep <;> cases hstep
    exact hsame rfl

/-- The release of a lease, as a step. -/
theorem cache_of_releaseLease [DecidableEq ρ] {id : CanonicalId} {ref : EntryRef}
    (hstep : step limits (.call t (.releaseLease id ref)) s = some s') :
    s'.cache = (s.cache.releaseLease limits id ref).2 := by
  simp only [step] at hstep
  split at hstep
  · simp only [CacheSystem.call] at hstep
    split at hstep <;> cases hstep <;> rfl
  · cases hstep

/-- Budgets in a state of the cache: what a reservation may do, when a bucket may be over its
budget, what brings it back, and what an eviction picks. -/
structure BudgetsKept [DecidableEq ρ] (limits : Limits) (s : CacheSystem ρ) : Prop where
  /-- `acquire_or_reserve` reserves only what fits, retiring entries counted. -/
  reserves : ∀ event s' id ref, step limits event s = some s' → s'.reservations = (id, ref) :: s.reservations →
    s'.cache.Fits limits ref
  overBudget : ∀ bucket, limits.budget bucket < s.cache.occupancy bucket → ∃ entry ∈ s.cache.bucketEntries bucket,
    (s.cache.heap entry.2).IsPinned ∨ (s.cache.heap entry.2).state = .loading
  /-- The last lease of a bucket is over. -/
  restores : ∀ t id ref s', s.cache.current? id = some ref →
    step limits (.call t (.releaseLease id ref)) s = some s' →
    (∀ entry ∈ s'.cache.bucketEntries (s.cache.heap ref).mediaBucket, ¬ (s'.cache.heap entry.2).IsPinned) →
    s'.cache.occupancy (s.cache.heap ref).mediaBucket ≤ limits.budget (s.cache.heap ref).mediaBucket
  putPicks : ∀ id runtime mediaType cleanup, (s.cache.put limits id runtime mediaType).1 = .ok cleanup →
    cleanup.overflow <+: (s.cache.idleEntries (limits.bucketOf mediaType)).filter fun entry => entry.1 ≠ id
  releasePicks : ∀ id ref, s.cache.current? id = some ref → (s.cache.releaseLease limits id ref).1 <+:
    (s.cache.modify ref fun entry => { entry with leaseCount := entry.leaseCount - 1 }).idleEntries
      (s.cache.heap ref).mediaBucket
  acquirePicks : ∀ id mediaType victim, s.cache.current? id = none →
    (s.cache.acquireOrReserve limits id mediaType).1 = .ok (.victim victim.1 victim.2) →
    (s.cache.idleEntries (limits.bucketOf mediaType)).head? = some victim

/-- The budgets are kept in every state that some run comes to. -/
theorem budgets_kept [DecidableEq ρ] (h : s.Reachable limits) : BudgetsKept limits s where
  reserves _ _ _ _ hstep hnew := fits_of_step h.sound hstep hnew
  overBudget _ hover := h.budgeted.overBudget hover
  restores t id ref s' hcur hstep hfree := by
    have hcache := cache_of_releaseLease hstep
    rw [hcache] at hfree ⊢
    exact ModelRuntimeCache.releaseLease_restores h.budgeted h.sound.tidy hcur hfree
  putPicks _ _ _ _ hput := ModelRuntimeCache.put_picks h.sound.tidy hput
  releasePicks _ _ hcur := ModelRuntimeCache.releaseLease_picks h.sound.tidy hcur
  acquirePicks _ _ _ hnone hacquire := ModelRuntimeCache.acquireOrReserve_picks hnone hacquire

/-- Somebody puts an entry into a bucket whose only place is leased. -/
def overshootRun : List (Event ℕ) :=
  [.call 0 (.put "m" 7 none), .call 0 (.acquireOrReserve "m" none), .call 1 (.put "n" 8 none)]

theorem budgets_kept_overshootRun : ∃ s : CacheSystem ℕ, s.Reachable oneEntry ∧ s.cache.occupancy defaultBucket = 2 ∧
    ∃ entry ∈ s.cache.bucketEntries defaultBucket,
      (s.cache.heap entry.2).IsPinned ∨ (s.cache.heap entry.2).state = .loading := by
  have hover : (runSteps (step oneEntry) overshootRun (start ℕ)).map (fun s =>
      decide (s.cache.occupancy defaultBucket = 2 ∧ oneEntry.budget defaultBucket = 1)) = some true := by decide +kernel
  obtain ⟨s, hs, hover⟩ := Option.map_eq_some_iff.1 hover
  obtain ⟨htwo, hone⟩ := of_decide_eq_true hover
  have hreachable : s.Reachable oneEntry := ⟨overshootRun, hs⟩
  exact ⟨s, hreachable, htwo, (budgets_kept hreachable).overBudget defaultBucket (by omega)⟩

end CacheSystem

end CreativeStudio.Models
