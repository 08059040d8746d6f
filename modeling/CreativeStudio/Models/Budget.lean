import CreativeStudio.Models.CacheInvariant
import CreativeStudio.Models.Tally

/-!
# Budgets of the runtime cache

A bucket may hold more entries than its budget while some of them are leased or being loaded.
The invariant is that such a bucket has at most one entry that an eviction could still pick,
the one that the last `put` has left there.
-/

namespace CreativeStudio.Models
open Data Conc

section Entry
variable {ρ : Type}

/-- The entry is charged to the bucket, and nobody tears it down. -/
def RuntimeEntry.Live (bucket : String) (entry : RuntimeEntry ρ) : Prop :=
  entry.mediaBucket = bucket ∧ entry.state ≠ .retiring

/-- An eviction in the bucket may pick the entry. -/
def RuntimeEntry.Spare (bucket : String) (entry : RuntimeEntry ρ) : Prop :=
  entry.mediaBucket = bucket ∧ entry.IsEvictable

/-- The entry is being loaded into the bucket. -/
def RuntimeEntry.Loads (bucket : String) (entry : RuntimeEntry ρ) : Prop :=
  entry.mediaBucket = bucket ∧ entry.state = .loading

instance (bucket : String) : DecidablePred (RuntimeEntry.Live (ρ := ρ) bucket) := fun _ =>
  inferInstanceAs (Decidable (_ ∧ _))
instance (bucket : String) : DecidablePred (RuntimeEntry.Spare (ρ := ρ) bucket) := fun _ =>
  inferInstanceAs (Decidable (_ ∧ _))
instance (bucket : String) : DecidablePred (RuntimeEntry.Loads (ρ := ρ) bucket) := fun _ =>
  inferInstanceAs (Decidable (_ ∧ _))

/-- What is live is leased, being loaded, or could be picked. -/
theorem RuntimeEntry.Live.cases {bucket : String} {entry : RuntimeEntry ρ} (h : entry.Live bucket)
    (hspare : ¬ entry.Spare bucket) : entry.IsPinned ∨ entry.state = .loading := by
  by_contra hnot
  obtain ⟨hpinned, hloading⟩ := not_or.1 hnot
  refine hspare ⟨h.1, hpinned, ?_⟩
  have hstate := h.2
  cases hentry : entry.state <;> simp_all [evictableStates]

end Entry

theorem Limits.budget_pos (limits : Limits) (bucket : String) : 1 ≤ limits.budget bucket := by
  unfold budget
  cases hget : limits.mediaLimits.get? bucket with
  | none => exact limits.maxEntries_pos
  | some budget => exact limits.mediaLimits_pos _ (Dict.mem_of_get? hget)

namespace ModelRuntimeCache
variable {ρ : Type} {limits : Limits} {c c' : ModelRuntimeCache ρ} {id : CanonicalId} {ref : EntryRef}
  {bucket : String} {excludeId : Option CanonicalId}

/-- How many entries of a bucket nobody tears down. -/
def occupancy (c : ModelRuntimeCache ρ) (bucket : String) : ℕ :=
  (c.bucketEntries bucket).length - c.retiringCount bucket

/-- What an eviction in a bucket may pick, the least recently used first. -/
def idleEntries (c : ModelRuntimeCache ρ) (bucket : String) : List (CanonicalId × EntryRef) :=
  (c.bucketEntries bucket).filter fun entry => (c.heap entry.2).IsEvictable

theorem occupancy_eq (c : ModelRuntimeCache ρ) (bucket : String) : c.occupancy bucket = c.tally (RuntimeEntry.Live bucket) := by
  have hparts := List.length_eq_countP_add_countP (fun entry => decide ((c.heap entry.2).state = .retiring))
    (l := c.bucketEntries bucket)
  have hlive : ((c.bucketEntries bucket).countP fun entry => ¬ decide ((c.heap entry.2).state = .retiring) = true) =
      c.tally (RuntimeEntry.Live bucket) := by
    unfold bucketEntries tally
    rw [List.countP_filter]
    refine List.countP_congr fun entry _ => ?_
    simp only [Bool.and_eq_true, decide_eq_true_eq, RuntimeEntry.Live]
    exact and_comm.trans decide_eq_true_iff.symm
  unfold occupancy retiringCount
  omega

theorem length_idleEntries (c : ModelRuntimeCache ρ) (bucket : String) :
    (c.idleEntries bucket).length = c.tally (RuntimeEntry.Spare bucket) := by
  unfold idleEntries bucketEntries tally
  rw [List.filter_filter, ← List.countP_eq_length_filter]
  refine List.countP_congr fun entry _ => ?_
  simp only [Bool.and_eq_true, decide_eq_true_eq]
  exact and_comm

/-- Only one entry can have the id that an eviction leaves out. -/
theorem tally_spare_le_one (h : c.Tidy) (hidle : ∀ entry ∈ c.idleEntries bucket, some entry.1 = excludeId) :
    c.tally (RuntimeEntry.Spare bucket) ≤ 1 := by
  have hsub : (c.idleEntries bucket).Sublist c.entries := List.filter_sublist.trans List.filter_sublist
  have hkeys := h.keys.sublist (hsub.map Prod.fst)
  rw [← length_idleEntries]
  cases hentries : c.idleEntries bucket with
  | nil => simp
  | cons entry rest =>
    cases rest with
    | nil => simp
    | cons entry' rest =>
      rw [hentries] at hidle hkeys
      have hsame := (hidle entry (by simp)).trans (hidle entry' (by simp)).symm
      simp [Option.some.inj hsame] at hkeys

theorem length_bucketEntries (c : ModelRuntimeCache ρ) (bucket : String) :
    c.tally (RuntimeEntry.Live bucket) ≤ (c.bucketEntries bucket).length ∧ c.tally (RuntimeEntry.Loads bucket) ≤ (c.bucketEntries bucket).length := by
  unfold bucketEntries tally
  rw [← List.countP_eq_length_filter]
  constructor <;> refine List.countP_mono_left fun entry _ hentry => ?_
  · simpa using (of_decide_eq_true hentry).1
  · simpa using (of_decide_eq_true hentry).1

/-! ## Evictions -/

/-- The eviction goes on until the bucket is within its budget or there is nothing to pick. -/
theorem evictTurns_settles {turns : ℕ} (h : c.Tidy) (hturns : c.tally RuntimeEntry.IsEvictable ≤ turns) :
    (evictTurns limits bucket excludeId turns c).2.occupancy bucket ≤ limits.budget bucket ∨
      ∀ entry ∈ (evictTurns limits bucket excludeId turns c).2.idleEntries bucket, some entry.1 = excludeId := by
  induction turns generalizing c with
  | zero =>
    right
    intro entry hmem
    obtain ⟨hmem, hevictable⟩ := List.mem_filter.1 hmem
    have hnone := (List.countP_eq_zero.1 (Nat.le_zero.1 hturns)) entry (mem_bucketEntries hmem)
    exact absurd hevictable hnone
  | succ turns ih =>
    unfold evictTurns
    split
    case isTrue hwithin => exact .inl hwithin
    split
    case h_1 hnone =>
      right
      intro entry hmem
      obtain ⟨hmem, hevictable⟩ := List.mem_filter.1 hmem
      have hpicked := List.find?_eq_none.1 hnone entry hmem
      by_contra hne
      exact hpicked (by simpa using ⟨hne, of_decide_eq_true hevictable⟩)
    case h_2 victim hfound =>
      have hmem : victim ∈ c.entries := mem_bucketEntries (List.mem_of_find?_eq_some hfound)
      obtain ⟨-, hevictable⟩ : some victim.1 ≠ excludeId ∧ (c.heap victim.2).IsEvictable := by
        simpa using List.find?_some hfound
      have hretire := tally_modify (P := RuntimeEntry.IsEvictable) h (h.current?_of_mem hmem)
        fun entry => { entry with state := .retiring }
      have hgone : ¬ ({ c.heap victim.2 with state := .retiring } : RuntimeEntry ρ).IsEvictable := fun hboth => by
        simp [RuntimeEntry.IsEvictable, evictableStates] at hboth
      rw [if_pos hevictable, if_neg hgone] at hretire
      exact ih (h.retire hevictable.1) (by rw [retire]; omega)

/-- The eviction picks the least recently used entries. -/
theorem evictTurns_prefix {turns : ℕ} (h : c.Tidy) : (evictTurns limits bucket excludeId turns c).1 <+:
    (c.bucketEntries bucket).filter fun entry => some entry.1 ≠ excludeId ∧ (c.heap entry.2).IsEvictable := by
  induction turns generalizing c with
  | zero => exact List.nil_prefix
  | succ turns ih =>
    unfold evictTurns
    split
    · exact List.nil_prefix
    split
    · exact List.nil_prefix
    case h_2 victim hfound =>
      have hmem : victim ∈ c.entries := mem_bucketEntries (List.mem_of_find?_eq_some hfound)
      obtain ⟨hexclude, hevictable⟩ : some victim.1 ≠ excludeId ∧ (c.heap victim.2).IsEvictable := by
        simpa using List.find?_some hfound
      obtain ⟨rest, hrest⟩ : ∃ rest, ((c.bucketEntries bucket).filter fun entry =>
          some entry.1 ≠ excludeId ∧ (c.heap entry.2).IsEvictable) = victim :: rest := by
        refine ⟨_, List.eq_cons_of_mem_head? ?_⟩
        rw [List.head?_filter, hfound]
        rfl
      -- the victim is not picked again, and the others are picked in the same order
      have hothers : ∀ entry ∈ rest, entry.2 ≠ victim.2 := by
        have hsub : (victim :: rest).Sublist c.entries :=
          hrest ▸ List.filter_sublist.trans List.filter_sublist
        have hkeys := h.keys.sublist (hsub.map Prod.fst)
        intro entry hentry heq
        have hcur := h.current?_of_mem (hsub.subset (List.mem_cons_of_mem _ hentry))
        have hid : entry.1 = victim.1 := h.inj hcur (heq ▸ h.current?_of_mem hmem)
        exact (List.nodup_cons.1 hkeys).1 (hid ▸ List.mem_map_of_mem hentry)
      have hretired : ((c.retire victim.2).bucketEntries bucket).filter (fun entry =>
          some entry.1 ≠ excludeId ∧ ((c.retire victim.2).heap entry.2).IsEvictable) = rest := by
        have hbucket : (c.retire victim.2).bucketEntries bucket = c.bucketEntries bucket := by
          refine List.filter_congr fun entry _ => ?_
          by_cases heq : entry.2 = victim.2 <;> simp [retire, heq]
        have hpick : ∀ entry : CanonicalId × EntryRef,
            decide (some entry.1 ≠ excludeId ∧ ((c.retire victim.2).heap entry.2).IsEvictable) =
              (decide (entry.2 ≠ victim.2) && decide (some entry.1 ≠ excludeId ∧ (c.heap entry.2).IsEvictable)) := by
          intro entry
          by_cases heq : entry.2 = victim.2
          · simp [retire, heq, RuntimeEntry.IsEvictable, evictableStates]
          · simp [retire, heq]
        rw [hbucket, List.filter_congr fun entry _ => hpick entry, ← List.filter_filter, hrest,
          List.filter_cons_of_neg (by simp), List.filter_eq_self]
        exact fun entry hentry => by simpa using hothers entry hentry
      have hbegins := ih (h.retire hevictable.1)
      rw [hretired] at hbegins
      rw [hrest]
      exact (List.prefix_cons_inj _).2 hbegins

theorem evictBucketOverflow_settles (limits : Limits) (h : c.Tidy) (bucket : String) (excludeId : Option CanonicalId) :
    (c.evictBucketOverflow limits bucket excludeId).2.occupancy bucket ≤ limits.budget bucket ∨
      ∀ entry ∈ (c.evictBucketOverflow limits bucket excludeId).2.idleEntries bucket, some entry.1 = excludeId :=
  evictTurns_settles h List.countP_le_length

theorem evictBucketOverflow_prefix (limits : Limits) (h : c.Tidy) (bucket : String) (excludeId : Option CanonicalId) :
    (c.evictBucketOverflow limits bucket excludeId).1 <+:
      (c.bucketEntries bucket).filter fun entry => some entry.1 ≠ excludeId ∧ (c.heap entry.2).IsEvictable :=
  evictTurns_prefix h

/-- What a capacity check lets in fits. -/
theorem lt_budget_of_select {budgetFor : CanonicalId}
    (h : c.selectCapacityVictim limits bucket budgetFor = .ok none) :
    (c.bucketEntries bucket).length < limits.budget bucket := by
  unfold selectCapacityVictim at h
  dsimp only at h
  split at h
  · assumption
  split at h
  · cases h
  split at h
  · cases h
  split at h <;> cases h

/-- A capacity check picks the least recently used entry. -/
theorem head_of_select {budgetFor : CanonicalId} {victim : CanonicalId × EntryRef}
    (h : c.selectCapacityVictim limits bucket budgetFor = .ok (some victim)) :
    (c.idleEntries bucket).head? = some victim := by
  unfold selectCapacityVictim at h
  dsimp only at h
  split at h
  · cases h
  split at h
  · cases h
  split at h
  · cases h
  case h_2 victim' hfound =>
    split at h <;> cases h
    rw [idleEntries, List.head?_filter, hfound]

/-! ## The invariant -/

/-- A bucket over its budget has at most one entry to pick, and no bucket has more loads going on
than its budget. -/
structure Budgeted (limits : Limits) (c : ModelRuntimeCache ρ) : Prop where
  spare : ∀ bucket, limits.budget bucket < c.tally (RuntimeEntry.Live bucket) →
    c.tally (RuntimeEntry.Spare bucket) ≤ 1
  loads : ∀ bucket, c.tally (RuntimeEntry.Loads bucket) ≤ limits.budget bucket

/-- Nothing is added to what the invariant counts. -/
theorem Budgeted.mono (h : c.Budgeted limits)
    (hlive : ∀ bucket, c'.tally (RuntimeEntry.Live bucket) ≤ c.tally (RuntimeEntry.Live bucket))
    (hspare : ∀ bucket, c'.tally (RuntimeEntry.Spare bucket) ≤ c.tally (RuntimeEntry.Spare bucket))
    (hloads : ∀ bucket, c'.tally (RuntimeEntry.Loads bucket) ≤ c.tally (RuntimeEntry.Loads bucket)) :
    c'.Budgeted limits where
  spare bucket hover := (hspare bucket).trans (h.spare bucket (hover.trans_le (hlive bucket)))
  loads bucket := (hloads bucket).trans (h.loads bucket)

theorem Budgeted.retires {victims : List (CanonicalId × EntryRef)} (h : c.Budgeted limits)
    (hretires : Retires c victims c') : c'.Budgeted limits :=
  h.mono (fun _ => tally_retires_le hretires fun _ hlive => absurd rfl hlive.2)
    (fun _ => tally_retires_le hretires fun _ hspare => by simp [RuntimeEntry.Spare, RuntimeEntry.IsEvictable, evictableStates] at hspare)
    (fun _ => tally_retires_le hretires fun _ hloads => nomatch hloads.2)

theorem Budgeted.retire (h : c.Budgeted limits) (htidy : c.Tidy) (hcur : c.current? id = some ref)
    (hevictable : (c.heap ref).IsEvictable) : (c.retire ref).Budgeted limits :=
  have hretires : Retires c [(id, ref)] (c.retire ref) :=
    .cons htidy hcur hevictable (.nil (htidy.retire hevictable.1))
  h.retires hretires

theorem Budgeted.remove (h : c.Budgeted limits) (htidy : c.Tidy) (id : CanonicalId) : (c.remove id).Budgeted limits := by
  cases hcur : c.current? id with
  | none =>
    rwa [ModelRuntimeCache.remove, erase_of_absent hcur]
  | some ref =>
    have hle : ∀ P : RuntimeEntry ρ → Prop, ∀ [DecidablePred P], (c.remove id).tally P ≤ c.tally P := fun P _ => by
      have hremove := tally_remove (P := P) htidy hcur
      omega
    exact h.mono (fun _ => hle _) (fun _ => hle _) fun _ => hle _

/-- An entry changes without becoming live, free to pick or loading. -/
theorem Budgeted.modify (h : c.Budgeted limits) (htidy : c.Tidy) (hcur : c.current? id = some ref)
    {f : RuntimeEntry ρ → RuntimeEntry ρ}
    (hlive : ∀ bucket, (f (c.heap ref)).Live bucket → (c.heap ref).Live bucket)
    (hspare : ∀ bucket, (f (c.heap ref)).Spare bucket → (c.heap ref).Spare bucket)
    (hloads : ∀ bucket, (f (c.heap ref)).Loads bucket → (c.heap ref).Loads bucket) :
    (c.modify ref f).Budgeted limits := by
  have hle : ∀ P : RuntimeEntry ρ → Prop, ∀ [DecidablePred P], (P (f (c.heap ref)) → P (c.heap ref)) →
      (c.modify ref f).tally P ≤ c.tally P := fun P _ hP => by
    have hmodify := tally_modify (P := P) htidy hcur f
    split at hmodify <;> split at hmodify <;> first | omega | (exfalso; tauto)
  exact h.mono (fun bucket => hle _ (hlive bucket)) (fun bucket => hle _ (hspare bucket))
    fun bucket => hle _ (hloads bucket)

theorem Budgeted.moveToEnd (h : c.Budgeted limits) (htidy : c.Tidy) (id : CanonicalId) :
    (c.moveToEnd id).Budgeted limits :=
  h.mono (fun _ => (tally_moveToEnd htidy id).le) (fun _ => (tally_moveToEnd htidy id).le)
    fun _ => (tally_moveToEnd htidy id).le

/-- Whatever has happened to a bucket, an eviction in it restores the invariant. -/
theorem Budgeted.settle (htidy : c.Tidy) (bucket : String) (excludeId : Option CanonicalId)
    (hspare : ∀ other, other ≠ bucket → limits.budget other < c.tally (RuntimeEntry.Live other) →
      c.tally (RuntimeEntry.Spare other) ≤ 1)
    (hloads : ∀ other, c.tally (RuntimeEntry.Loads other) ≤ limits.budget other) :
    (c.evictBucketOverflow limits bucket excludeId).2.Budgeted limits := by
  have hretires := (evictBucketOverflow_spec limits htidy bucket excludeId).1
  have hlive := fun other => tally_retires_le (P := RuntimeEntry.Live other) hretires
    fun _ hlive => absurd rfl hlive.2
  have hspares := fun other => tally_retires_le (P := RuntimeEntry.Spare other) hretires
    fun _ hspare => by simp [RuntimeEntry.Spare, RuntimeEntry.IsEvictable, evictableStates] at hspare
  have hloaded := fun other => tally_retires_le (P := RuntimeEntry.Loads other) hretires
    fun _ hloads => by cases hloads.2
  refine ⟨fun other hover => ?_, fun other => (hloaded other).trans (hloads other)⟩
  by_cases heq : other = bucket
  · subst heq
    rcases evictBucketOverflow_settles limits htidy other excludeId with hwithin | hidle
    · rw [occupancy_eq] at hwithin
      omega
    · exact tally_spare_le_one hretires.tidy hidle
  · exact (hspares other).trans (hspare other heq (hover.trans_le (hlive other)))

end ModelRuntimeCache

end CreativeStudio.Models
