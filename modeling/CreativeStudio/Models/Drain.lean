import CreativeStudio.Models.CacheInvariant

/-!
# The drain of a stale entry

A caller whose entry has been declared invalid waits until the entry is out of the way. No
step ends a wait without a notification, so nobody sleeps past it. From an invalid entry on,
every lease that ends is one less, the entry is retired at most once, and that is the only
thing that can make a caller wait again.
-/

namespace CreativeStudio.Models.CacheSystem
open Data Conc

variable {ρ : Type} [DecidableEq ρ] {limits : Limits} {s s' : CacheSystem ρ} {ref : EntryRef}

/-- A lease on the entry ends. -/
def LeaseEnds (ref : EntryRef) (s s' : CacheSystem ρ) : Prop :=
  (s'.cache.slot ref).leases < (s.cache.slot ref).leases

/-- The entry is marked as being retired. -/
def GivenUp (ref : EntryRef) (s s' : CacheSystem ρ) : Prop :=
  s.cache.slot ref ≠ .retiring ∧ s'.cache.slot ref = .retiring

/-- The entry starts to block its id. -/
def Reblocks (id : CanonicalId) (ref : EntryRef) (s s' : CacheSystem ρ) : Prop :=
  ¬ s.cache.StillBlocks id ref ∧ s'.cache.StillBlocks id ref

instance (ref : EntryRef) (s s' : CacheSystem ρ) : Decidable (LeaseEnds ref s s') := inferInstanceAs (Decidable (_ < _))
instance (ref : EntryRef) (s s' : CacheSystem ρ) : Decidable (GivenUp ref s s') := inferInstanceAs (Decidable (_ ∧ _))
instance (id : CanonicalId) (ref : EntryRef) (s s' : CacheSystem ρ) : Decidable (Reblocks id ref s s') :=
  inferInstanceAs (Decidable (_ ∧ _))

/-- What becomes of an entry in a run that finds it invalid with `n` leases. -/
structure RunsDown (limits : Limits) (ref : EntryRef) (n : ℕ) (s : CacheSystem ρ) (run : List (Event ρ))
    (s' : CacheSystem ρ) : Prop where
  releases : countSteps (step limits) (LeaseEnds ref) run s ≤ n
  retirements : countSteps (step limits) (GivenUp ref) run s ≤ 1
  /-- The entry blocks its id again only by being retired. -/
  reblocks : ∀ id, countSteps (step limits) (Reblocks id ref) run s ≤ countSteps (step limits) (GivenUp ref) run s
  /-- A caller that is still parked waits for one of the `n` leases or for the retirement. -/
  parked : ∀ t id, s'.activity t = .draining id ref true →
    countSteps (step limits) (LeaseEnds ref) run s < n ∨ s'.cache.slot ref = .retiring
  /-- Once the entry has been removed it never blocks again. -/
  removed : s'.cache.slot ref = .gone → ∀ later s'', runSteps (step limits) later s' = some s'' →
    ∀ id, ¬ s''.cache.StillBlocks id ref

/-- An entry on its way out, in a sound state. -/
def Waning (ref : EntryRef) (s : CacheSystem ρ) : Prop := s.Sound ∧ (s.cache.slot ref).Spent

theorem Waning.step {event : Event ρ} (h : Waning ref s) (hstep : step limits event s = some s') :
    Waning ref s' ∧ (s'.cache.slot ref).rank ≤ (s.cache.slot ref).rank ∧
      (s'.cache.slot ref).leases ≤ (s.cache.slot ref).leases := by
  have hadvances := step_spec h.1 hstep
  obtain ⟨hspent, hrank, hleases⟩ := h.2.moves (hadvances.turns ref)
  exact ⟨⟨hadvances.sound, hspent⟩, hrank, hleases⟩

theorem Waning.run {run : List (Event ρ)} (h : Waning ref s) (hrun : runSteps (CacheSystem.step limits) run s = some s') :
    Waning ref s' :=
  holds_of_run (fun _ _ _ h hstep => (h.step hstep).1) h hrun

theorem Waning.releases {run : List (Event ρ)} (h : Waning ref s)
    (hrun : runSteps (CacheSystem.step limits) run s = some s') :
    countSteps (CacheSystem.step limits) (LeaseEnds ref) run s + (s'.cache.slot ref).leases ≤
      (s.cache.slot ref).leases := by
  refine countSteps_add_le (I := Waning ref) (φ := fun s => (s.cache.slot ref).leases) ?_ h hrun
  intro event s s' h hstep
  obtain ⟨hwaning, -, hleases⟩ := h.step hstep
  refine ⟨hwaning, ?_⟩
  by_cases hends : LeaseEnds ref s s'
  · rw [if_pos hends]
    have hless : (s'.cache.slot ref).leases < (s.cache.slot ref).leases := hends
    omega
  · rw [if_neg hends]
    omega

/-- One if the entry can still be retired. -/
def retirable (ref : EntryRef) (s : CacheSystem ρ) : ℕ := if (s.cache.slot ref).rank ≤ 1 then 0 else 1

theorem Waning.retirements {run : List (Event ρ)} (h : Waning ref s)
    (hrun : runSteps (CacheSystem.step limits) run s = some s') :
    countSteps (CacheSystem.step limits) (GivenUp ref) run s ≤ 1 := by
  have hcount := countSteps_add_le (I := Waning ref) (P := GivenUp ref) (φ := retirable ref) ?_ h hrun
  · have hretirable : retirable ref s ≤ 1 := by
      unfold retirable
      split <;> omega
    omega
  intro event s s' h hstep
  obtain ⟨hwaning, hrank, -⟩ := h.step hstep
  refine ⟨hwaning, ?_⟩
  unfold retirable
  by_cases hgiven : GivenUp ref s s'
  · obtain ⟨hbefore, hafter⟩ := hgiven
    have hhigh : ¬ (s.cache.slot ref).rank ≤ 1 := by
      intro hlow
      rcases h.2.rank_le_one.1 hlow with hslot | hslot
      · exact hbefore hslot
      · rw [hslot, hafter] at hrank
        exact absurd hrank (by decide)
    have hlow : (s'.cache.slot ref).rank ≤ 1 := by rw [hafter]; decide
    rw [if_pos ⟨hbefore, hafter⟩, if_pos hlow, if_neg hhigh]
  · rw [if_neg hgiven]
    split <;> split <;> omega

/-- An entry on its way out blocks its id again only by being retired. -/
theorem Waning.givenUp_of_reblocks {event : Event ρ} {id : CanonicalId} (h : Waning ref s)
    (hstep : CacheSystem.step limits event s = some s') (hreblocks : Reblocks id ref s s') : GivenUp ref s s' := by
  have hadvances := step_spec h.1 hstep
  have hid := ((ModelRuntimeCache.stillBlocks_iff hadvances.sound.tidy).1 hreblocks.2).1
  have hmade : ref < s.cache.made := by
    by_contra hunmade
    have hspent := h.2
    have hcur : s.cache.current? (s.cache.heap ref).canonicalId ≠ some ref :=
      fun hcur => hunmade (h.1.tidy.made _ _ hcur)
    rw [ModelRuntimeCache.slot, if_neg hcur, if_neg hunmade] at hspent
    exact hspent
  have hfree : ¬ (s.cache.slot ref).Blocks := by
    intro hblocks
    refine hreblocks.1 ((ModelRuntimeCache.stillBlocks_iff h.1.tidy).2 ⟨?_, hblocks⟩)
    rw [← hadvances.named ref hmade, hid]
  have hblocks := ((ModelRuntimeCache.stillBlocks_iff hadvances.sound.tidy).1 hreblocks.2).2
  obtain ⟨hbefore, hafter⟩ := h.2.retiring_of_blocks (hadvances.turns ref) hfree hblocks
  exact ⟨by simp [hbefore], hafter⟩

theorem Waning.not_stillBlocks_of_gone {run : List (Event ρ)} (h : Waning ref s) (hgone : s.cache.slot ref = .gone)
    (hrun : runSteps (CacheSystem.step limits) run s = some s') (id : CanonicalId) : ¬ s'.cache.StillBlocks id ref := by
  have hgone' : Waning ref s' ∧ (s'.cache.slot ref).rank = 0 := by
    refine holds_of_run (I := fun s => Waning ref s ∧ (s.cache.slot ref).rank = 0) ?_ ⟨h, by rw [hgone]; rfl⟩ hrun
    intro event s s' h hstep
    obtain ⟨hwaning, hrank, -⟩ := h.1.step hstep
    exact ⟨hwaning, by omega⟩
  intro hblocks
  have hslot := ((ModelRuntimeCache.stillBlocks_iff hgone'.1.1.tidy).1 hblocks).2
  rcases hgone'.1.2.rank_le_one.1 (by omega) with hretiring | hgone
  · rw [hretiring] at hgone'
    exact absurd hgone'.2 (by decide)
  · rw [hgone] at hslot
    exact absurd hslot (by decide)

theorem runsDown {n : ℕ} {run : List (Event ρ)} (h : s.Sound) (hslot : s.cache.slot ref = .invalid n)
    (hrun : runSteps (step limits) run s = some s') : RunsDown limits ref n s run s' := by
  have hwaning : Waning ref s := ⟨h, by rw [hslot]; trivial⟩
  have hreleases := hwaning.releases hrun
  rw [hslot, Slot.leases_invalid] at hreleases
  refine ⟨by omega, hwaning.retirements hrun, fun id => ?_, fun t id hasleep => ?_, fun hgone later s'' hlater => ?_⟩
  · exact countSteps_le (I := Waning ref)
      (fun _ _ _ h hstep => ⟨(h.step hstep).1, fun hreblocks => h.givenUp_of_reblocks hstep hreblocks⟩) hwaning
  · have hblocks := (hwaning.run hrun).1.asleep t id ref hasleep
    rcases ((ModelRuntimeCache.stillBlocks_iff (hwaning.run hrun).1.tidy).1 hblocks).2 with hleases | hretiring
    · exact .inl (by omega)
    · exact .inr hretiring
  · exact (hwaning.run hrun).not_stillBlocks_of_gone hgone hlater

/-- A step that ends what a caller waits for notifies it; a parked caller has something to wait
for; a caller that is awake and has nothing to wait for answers that the entry is out of the
way; and an invalid entry runs down. -/
theorem drain_spec (h : s.Reachable limits) :
    (∀ event s', step limits event s = some s' → ∀ id ref, s.cache.StillBlocks id ref →
      ¬ s'.cache.StillBlocks id ref → s'.notified = s.notified + 1) ∧
    (∀ t id ref, s.activity t = .draining id ref true → s.cache.StillBlocks id ref) ∧
    (∀ t id ref expired, s.activity t = .draining id ref false → ¬ s.cache.StillBlocks id ref →
      ∃ s', step limits (.recheck t expired) s = some s' ∧ s'.activity t = .idle ∧
        s'.drained = s.drained ++ [(t, true)]) ∧
    ∀ ref n, s.cache.slot ref = .invalid n → ∀ run s', runSteps (step limits) run s = some s' →
      RunsDown limits ref n s run s' := by
  refine ⟨?_, h.sound.asleep, ?_, fun ref n hslot run s' hrun => runsDown h.sound hslot hrun⟩
  · intro event s' hstep id ref hblocks hfree
    rcases (step_spec h.sound hstep).waits with hstill | hnotified
    · exact absurd (hstill id ref hblocks) hfree
    · exact hnotified
  · intro t id ref expired hawake hfree
    refine ⟨_, by simp only [step, hawake]; rfl, ?_, ?_⟩ <;> simp [look, hfree, occupy]

/-- A caller waits for the one lease on an invalid entry, and the lease ends. -/
def staleRun : List (Event ℕ) :=
  [.call 0 (.put "m" 7 none), .call 0 (.acquireOrReserve "m" none), .call 0 (.markInvalid "m" 0),
    .call 1 (.waitForStaleEntryDrain "m" 0 false), .call 0 (.releaseLease "m" 0)]

/-- Room for one entry. -/
def oneEntry : Limits := ⟨1, [], le_rfl, by simp⟩

/-- An invalid entry that has no lease left does not block its id, until somebody who needs the
place retires it. -/
theorem reblocks_of_retirement :
    ¬ ∀ (s s' : CacheSystem ℕ) (run : List (Event ℕ)) (id : CanonicalId) (ref : EntryRef), s.Reachable oneEntry →
      (s.cache.heap ref).state = .invalid → ¬ s.cache.StillBlocks id ref →
      runSteps (step oneEntry) run s = some s' → ¬ s'.cache.StillBlocks id ref := by
  intro hclaim
  have hstale : (runSteps (step oneEntry) staleRun (start ℕ)).map (fun s =>
      decide ((s.cache.heap 0).state = .invalid ∧ ¬ s.cache.StillBlocks "m" 0)) = some true := by decide +kernel
  have hretired : ((runSteps (step oneEntry) staleRun (start ℕ)).bind
      (runSteps (step oneEntry) [.call 2 (.acquireOrReserve "m" none)])).map (fun s =>
        decide (s.cache.StillBlocks "m" 0)) = some true := by decide +kernel
  obtain ⟨s, hs, hstale⟩ := Option.map_eq_some_iff.1 hstale
  rw [hs] at hretired
  obtain ⟨s', hs', hblocks⟩ := Option.map_eq_some_iff.1 hretired
  obtain ⟨hinvalid, hfree⟩ := of_decide_eq_true hstale
  exact hclaim s s' _ "m" 0 ⟨staleRun, hs⟩ hinvalid hfree hs' (of_decide_eq_true hblocks)

/-- The caller of `staleRun` while it is parked. -/
theorem drain_spec_staleRun : ∃ s : CacheSystem ℕ, s.Reachable oneEntry ∧ (s.cache.slot 0 = .invalid 1) ∧
    s.activity 1 = .draining "m" 0 true ∧ RunsDown oneEntry 0 1 s [] s := by
  have hparked : (runSteps (step oneEntry) (staleRun.take 4) (start ℕ)).map (fun s =>
      decide (s.cache.slot 0 = .invalid 1 ∧ s.activity 1 = .draining "m" 0 true)) = some true := by decide +kernel
  obtain ⟨s, hs, hparked⟩ := Option.map_eq_some_iff.1 hparked
  obtain ⟨hslot, hasleep⟩ := of_decide_eq_true hparked
  have hreachable : s.Reachable oneEntry := ⟨staleRun.take 4, hs⟩
  exact ⟨s, hreachable, hslot, hasleep, (drain_spec hreachable).2.2.2 0 1 hslot [] s rfl⟩

end CreativeStudio.Models.CacheSystem
