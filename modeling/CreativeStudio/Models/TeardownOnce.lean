import CreativeStudio.Models.Drain
import CreativeStudio.Models.HandleTeardown

/-!
# What a handle gives back, and when

The resources go back once each and in order, not under a running body. A `release` that
reports an exception announces itself with its call but marks the entry only in its first
section, so the entry is known to be invalid when the execution lock goes back only as long as
no such call is in between.
-/

namespace CreativeStudio.Models
open Data Conc HandleCall CacheSystem

namespace HandleSystem
variable {ρ : Type} {limits : Limits} {handle : RuntimeHandle} {s s' : HandleSystem ρ} {t : Tid}

/-- What is to hold of a handle between any two steps. -/
structure TeardownKept [DecidableEq ρ] (limits : Limits) (handle : RuntimeHandle) (s : HandleSystem ρ) : Prop where
  /-- Nothing is given back twice, or out of order. -/
  once : s.freed <+: teardownOrder
  body : s.active = true → s.freed = []
  /-- `__exit__` has returned. -/
  exited : s.isEntered = true → s.active = false → s.calls handle.ownerThread = none → s.freed = teardownOrder
  /-- A handle that has not been entered is given back by the call that has set the flag. -/
  released : s.answered = true → s.isEntered = false →
    s.freed = teardownOrder ∨ ∃ t, s.releasedBy = some t ∧ Unwinding (s.calls t)
  /-- Nothing can stop a thread that gives the resources back. -/
  unblocked : ∀ t, Unwinding (s.calls t) → ∃ s', step limits handle (.go t) s = some s' ∨
    step limits handle (.cache (.proceed t false)) s = some s'
  /-- A condemned entry is never handed out again once the execution lock is free. -/
  invalid : .executionLock ∈ s.freed → s.condemned = true →
    (s.system.cache.current? handle.canonicalId = some handle.entry →
      (s.system.cache.heap handle.entry).state ≠ .ready) ∧
    (.lease ∉ s.freed → (s.system.cache.heap handle.entry).state = .invalid)

/-- The step does not give the execution lock back while a thread that reports an exception
has yet to mark the entry. -/
def Heeds (event : HandleEvent ρ) (s : HandleSystem ρ) : Prop :=
  ∀ t, event = .go t → s.calls t = some (.teardown .executionLock) → ∀ u, s.calls u ≠ some .releaseMark

/-- The execution lock is free only when a condemned entry is spent. -/
def Careful (handle : RuntimeHandle) (s : HandleSystem ρ) : Prop :=
  s.Sound handle ∧ (.executionLock ∈ s.freed → s.condemned = true → (s.system.cache.slot handle.entry).Spent)

/-! ## Resources -/

theorem Ordered.freed_of_order (h : s.Ordered handle) : s.freed <+: teardownOrder := by
  cases hreleased : s.releasedBy with
  | none =>
    rw [h.unreleased hreleased]
    exact List.nil_prefix
  | some t =>
    by_cases hunwinding : Unwinding (s.calls t)
    · rw [(h.unwinding t hunwinding).2.1]
      unfold given
      split <;> decide
    · exact h.done t hreleased hunwinding ▸ List.prefix_rfl

/-- Whoever has set the released flag either still gives the resources back or has done so. -/
theorem Ordered.freed_of_released (h : s.Ordered handle) (hreleased : s.releasedBy ≠ none) :
    s.freed = teardownOrder ∨ ∃ t, s.releasedBy = some t ∧ Unwinding (s.calls t) := by
  obtain ⟨t, ht⟩ := Option.ne_none_iff_exists'.1 hreleased
  by_cases hunwinding : Unwinding (s.calls t)
  · exact .inr ⟨t, ht, hunwinding⟩
  · exact .inl (h.done t ht hunwinding)

theorem Ordered.freed_of_exited (h : s.Ordered handle) (hentered : s.isEntered = true) (hactive : s.active = false)
    (hcall : s.calls handle.ownerThread = none) : s.freed = teardownOrder := by
  have hreleased : s.releasedBy ≠ none := by
    intro hreleased
    have hexiting := h.left hentered hactive hreleased
    rw [hcall] at hexiting
    exact hexiting
  rcases h.freed_of_released hreleased with hfreed | ⟨t, -, hunwinding⟩
  · exact hfreed
  · obtain rfl := (h.unwinding t hunwinding).2.2 hentered
    rw [hcall] at hunwinding
    exact hunwinding.elim

theorem Sound.unblocked [DecidableEq ρ] (h : s.Sound handle) (hunwinding : Unwinding (s.calls t)) :
    ∃ s', step limits handle (.go t) s = some s' ∨ step limits handle (.cache (.proceed t false)) s = some s' := by
  cases hcall : s.calls t with
  | none => simp [hcall, Unwinding] at hunwinding
  | some call =>
    cases call with
    | enter | exit | release | releaseMark => simp [hcall, Unwinding] at hunwinding
    | exitMark | exitUnlock => exact ⟨_, .inl (by simp only [step, go, hcall]; rfl)⟩
    | teardown next =>
      cases next with
      | executionLock => exact ⟨_, .inl (by simp only [step, go, hcall]; rfl)⟩
      | lease =>
        have hsome : (s.system.call limits t (.releaseLease handle.canonicalId handle.entry)).isSome := by
          simp only [CacheSystem.call]
          split <;> rfl
        obtain ⟨system, hsystem⟩ := Option.isSome_iff_exists.1 hsome
        exact ⟨_, .inl (by simp only [step, go, hcall, hsystem, Option.map_some]; rfl)⟩
      | admission =>
        rcases h.winding t hcall with hidle | ⟨chore, chores, raised, hactivity⟩
        · exact ⟨_, .inl (by simp only [step, go, hcall, hidle, if_true]; rfl)⟩
        · have hsome : (s.system.proceed limits t false).isSome := by
            unfold CacheSystem.proceed
            rw [hactivity]
            cases chore with
            | cleanup | removal => rfl
            | retirement id ref =>
              dsimp only
              split <;> rfl
          obtain ⟨system, hsystem⟩ := Option.isSome_iff_exists.1 hsome
          refine ⟨{ s with system }, .inr ?_⟩
          simp only [step, Foreign, if_true, CacheSystem.step, hsystem, Option.map_some]

/-! ## The entry -/

/-- A thread that has yet to mark the entry when the released flag is set is in a `release`, or
in the `__exit__` that has set it. -/
theorem Ordered.releaseMark_of_marking (h : s.Ordered handle) {u : Tid}
    (hteardown : s.calls t = some (.teardown .executionLock)) (hmarking : Marking (s.calls u)) :
    s.calls u = some .releaseMark := by
  have hreleased := (h.unwinding t (by rw [hteardown]; trivial)).1
  cases hcall : s.calls u with
  | none => simp [hcall, Marking] at hmarking
  | some call =>
    cases call with
    | releaseMark => rfl
    | enter | exitUnlock | release | teardown => simp [hcall, Marking] at hmarking
    | exit hadException guarded =>
      have hunreleased := h.exiting_unreleased u (by rw [hcall]; trivial)
      rw [hreleased] at hunreleased
      cases hunreleased
    | exitMark =>
      have hsame := (h.unwinding u (by rw [hcall]; trivial)).1
      obtain rfl := Option.some.inj (hreleased.symm.trans hsame)
      rw [hteardown] at hcall
      cases hcall

/-- Only its own step of the teardown gives the execution lock back. -/
theorem freed_of_step [DecidableEq ρ] {event : HandleEvent ρ} (hstep : step limits handle event s = some s')
    (hnot : ∀ t, event = .go t → s.calls t ≠ some (.teardown .executionLock))
    (hfreed : .executionLock ∈ s'.freed) : .executionLock ∈ s.freed ∧ s'.condemned = s.condemned := by
  cases event with
  | enter t =>
    simp only [step] at hstep
    split at hstep <;> cases hstep
    exact ⟨hfreed, rfl⟩
  | exit hadException =>
    simp only [step] at hstep
    split at hstep <;> cases hstep
    have hfreed : Resource.executionLock ∈ s.freed := hfreed
    exact ⟨hfreed, by simp [condemn, goto, hfreed]⟩
  | release t hadException =>
    simp only [step] at hstep
    split at hstep <;> cases hstep
    have hfreed : Resource.executionLock ∈ s.freed := hfreed
    exact ⟨hfreed, by simp [condemn, goto, hfreed]⟩
  | cache event =>
    simp only [step] at hstep
    split at hstep
    · obtain ⟨system, -, rfl⟩ := Option.map_eq_some_iff.1 hstep
      exact ⟨hfreed, rfl⟩
    · cases hstep
  | go t =>
    have hnot := hnot t rfl
    simp only [step, go] at hstep
    split at hstep
    case h_1 => cases hstep
    case h_2 | h_4 | h_9 =>
      unfold HandleSystem.lock at hstep
      split at hstep <;> cases hstep
      exact ⟨hfreed, rfl⟩
    case h_3 =>
      cases hstep
      unfold enterGuarded at hfreed ⊢
      split at hfreed <;> rename_i hif
      · rw [if_pos hif]
        exact ⟨hfreed, rfl⟩
      · rw [if_neg hif]
        exact ⟨hfreed, rfl⟩
    case h_5 =>
      cases hstep
      unfold exitGuarded at hfreed ⊢
      split at hfreed <;> rename_i hif
      · rw [if_pos hif]
        exact ⟨hfreed, rfl⟩
      · rw [if_neg hif]
        exact ⟨hfreed, rfl⟩
    case h_10 =>
      cases hstep
      unfold releaseGuarded at hfreed ⊢
      grind [HandleSystem.unlock, goto]
    case h_6 | h_7 | h_8 =>
      cases hstep
      exact ⟨hfreed, rfl⟩
    case h_11 hcall => exact absurd hcall hnot
    case h_12 =>
      obtain ⟨system, -, rfl⟩ := Option.map_eq_some_iff.1 hstep
      exact ⟨by simpa [free, goto] using hfreed, rfl⟩
    case h_13 =>
      split at hstep <;> cases hstep
      exact ⟨by simpa [free, goto] using hfreed, rfl⟩

/-- What a step does to the entry is what the cache lets happen to it. -/
theorem turns_of_step [DecidableEq ρ] {event : HandleEvent ρ} (h : s.Sound handle)
    (hstep : step limits handle event s = some s') :
    Slot.Moves (fun _ => True) (s.system.cache.slot handle.entry) (s'.system.cache.slot handle.entry) := by
  have hsame : s'.system = s.system →
      Slot.Moves (fun _ => True) (s.system.cache.slot handle.entry) (s'.system.cache.slot handle.entry) :=
    fun hsystem => hsystem ▸ .refl
  have hmark := (ModelRuntimeCache.markInvalid_acts h.system.tidy handle.canonicalId handle.entry).turns handle.entry
  cases event with
  | enter t | exit hadException | release t hadException =>
    simp only [step] at hstep
    split at hstep <;> cases hstep
    exact hsame rfl
  | cache event =>
    simp only [step] at hstep
    split at hstep
    · obtain ⟨system, hsystem, rfl⟩ := Option.map_eq_some_iff.1 hstep
      exact ((CacheSystem.step_spec h.system hsystem).turns _).mono fun _ _ => trivial
    · cases hstep
  | go t =>
    simp only [step, go] at hstep
    split at hstep
    case h_1 => cases hstep
    case h_2 | h_4 | h_9 =>
      unfold HandleSystem.lock at hstep
      split at hstep <;> cases hstep
      exact hsame rfl
    case h_3 | h_5 | h_10 =>
      cases hstep
      refine hsame ?_
      first | unfold enterGuarded | unfold exitGuarded | unfold releaseGuarded
      grind [HandleSystem.unlock, goto]
    case h_6 | h_8 =>
      cases hstep
      exact hmark.mono fun _ _ => trivial
    case h_7 | h_11 =>
      cases hstep
      exact hsame rfl
    case h_12 hcall =>
      obtain ⟨system, hrelease, rfl⟩ := Option.map_eq_some_iff.1 hstep
      exact ((CacheSystem.step_spec h.system (h.release_step hcall hrelease)).turns _).mono fun _ _ => trivial
    case h_13 =>
      split at hstep <;> cases hstep
      exact hsame rfl

theorem Careful.step [DecidableEq ρ] {event : HandleEvent ρ} (h : Careful handle s) (hheeds : Heeds event s)
    (hstep : HandleSystem.step limits handle event s = some s') : Careful handle s' := by
  refine ⟨step_sound h.1 hstep, fun hfreed hcondemned => ?_⟩
  have hturns := turns_of_step h.1 hstep
  by_cases hfrees : ∃ t, event = .go t ∧ s.calls t = some (.teardown .executionLock)
  · obtain ⟨t, rfl, hcall⟩ := hfrees
    have hcondemned' : s.condemned = true := by
      simp only [HandleSystem.step, go, hcall, Option.some.injEq] at hstep
      rw [← hstep] at hcondemned
      exact hcondemned
    rcases h.1.condemned hcondemned' with hspent | ⟨u, hmarking⟩
    · exact (hspent.moves hturns).1
    · exact absurd (h.1.releaseMark_of_marking hcall hmarking) (hheeds t rfl hcall u)
  · obtain ⟨hfreed, hsame⟩ := freed_of_step hstep (fun t heq hcall => hfrees ⟨t, heq, hcall⟩) hfreed
    exact ((h.2 hfreed (hsame ▸ hcondemned)).moves hturns).1

theorem Careful.kept [DecidableEq ρ] (h : Careful handle s) : TeardownKept limits handle s where
  once := h.1.freed_of_order
  body hactive := h.1.unreleased (h.1.active hactive).2
  exited := h.1.freed_of_exited
  released hanswered hentered := by
    refine h.1.freed_of_released ?_
    rcases h.1.answered hanswered with hreleased | hentered'
    · exact hreleased
    · rw [hentered] at hentered'
      cases hentered'
  unblocked _ := h.1.unblocked
  invalid hfreed hcondemned := by
    have hspent := h.2 hfreed hcondemned
    refine ⟨fun hcur hready => ?_, fun hlease => ?_⟩
    · rw [ModelRuntimeCache.slot_of_current h.1.system.tidy hcur] at hspent
      simp [RuntimeEntry.slot, hready, Slot.Spent] at hspent
    · have hheld := h.1.held hlease
      rw [ModelRuntimeCache.slot_of_current h.1.system.tidy hheld.1] at hspent
      have hpinned := hheld.2
      rw [ModelRuntimeCache.slot_of_current h.1.system.tidy hheld.1] at hpinned
      unfold RuntimeEntry.slot at hspent hpinned
      cases hstate : (s.system.cache.heap handle.entry).state <;>
        simp_all [Slot.Spent, Slot.Pinned, Slot.leases]

/-- Only the call of a `release` brings a thread to where it has yet to mark the entry. -/
theorem releaseMark_of_step [DecidableEq ρ] {event : HandleEvent ρ} {u : Tid}
    (hstep : step limits handle event s = some s') (hmark : s'.calls u = some .releaseMark) :
    s.calls u = some .releaseMark ∨ event = .release u true := by
  have hgoto : ∀ {s : HandleSystem ρ} {t : Tid} {call : Option HandleCall},
      (s.goto t call).calls u = some .releaseMark → call ≠ some .releaseMark → s.calls u = some .releaseMark := by
    intro s t call hmark hne
    rw [calls_goto] at hmark
    split at hmark
    · exact absurd hmark hne
    · exact hmark
  cases event with
  | enter t | exit hadException =>
    simp only [step] at hstep
    split at hstep <;> cases hstep
    exact .inl (hgoto hmark (by simp))
  | release t hadException =>
    simp only [step] at hstep
    split at hstep <;> cases hstep
    rw [calls_goto] at hmark
    split at hmark
    case isTrue heq =>
      cases hadException with
      | true => exact .inr (by rw [heq])
      | false => cases hmark
    case isFalse => exact .inl hmark
  | cache event =>
    simp only [step] at hstep
    split at hstep
    · obtain ⟨system, -, rfl⟩ := Option.map_eq_some_iff.1 hstep
      exact .inl hmark
    · cases hstep
  | go t =>
    left
    simp only [step, go] at hstep
    split at hstep
    case h_1 => cases hstep
    case h_2 | h_4 | h_9 =>
      unfold HandleSystem.lock at hstep
      split at hstep <;> cases hstep
      exact hgoto hmark (by simp)
    case h_3 =>
      cases hstep
      unfold enterGuarded at hmark
      split at hmark <;> exact hgoto hmark (by simp)
    case h_5 =>
      cases hstep
      unfold exitGuarded at hmark
      split at hmark
      · exact hgoto hmark (by simp)
      · refine hgoto hmark ?_
        split <;> simp
    case h_10 =>
      cases hstep
      unfold releaseGuarded at hmark
      split at hmark
      · exact hgoto hmark (by simp)
      · dsimp only at hmark
        split at hmark <;> exact hgoto hmark (by simp)
    case h_6 | h_7 | h_8 | h_11 =>
      cases hstep
      exact hgoto hmark (by simp)
    case h_12 =>
      obtain ⟨system, -, rfl⟩ := Option.map_eq_some_iff.1 hstep
      exact hgoto hmark (by simp)
    case h_13 =>
      split at hstep <;> cases hstep
      exact hgoto hmark (by simp)

/-- A run in which only the body raises has no mark to wait for. -/
theorem heeds_of_run [DecidableEq ρ] {run : List (HandleEvent ρ)} (hcalls : ∀ u, s.calls u ≠ some .releaseMark)
    (hquiet : ∀ t, .release t true ∉ run) : AllSteps (step limits handle) Heeds run s := by
  induction run generalizing s with
  | nil => trivial
  | cons event run ih =>
    refine ⟨fun _ _ _ => hcalls, ?_⟩
    cases hstep : step limits handle event s with
    | none => trivial
    | some s' =>
      refine ih (fun u hmark => ?_) fun t hmem => hquiet t (List.mem_cons_of_mem _ hmem)
      rcases releaseMark_of_step hstep hmark with hmark | rfl
      · exact hcalls u hmark
      · exact hquiet u List.mem_cons_self

/-- In a run in which no step gives the execution lock back past a `release` that has yet to
mark the entry, everything is as it is to be. -/
theorem teardown_once [DecidableEq ρ] {start : HandleSystem ρ} {run : List (HandleEvent ρ)}
    (hissued : Issued limits handle start) (hheeds : AllSteps (step limits handle) Heeds run start)
    (hrun : runSteps (step limits handle) run start = some s) : TeardownKept limits handle s := by
  have hstart : Careful handle start := by
    refine ⟨hissued.sound, ?_⟩
    obtain ⟨system, rfl, -⟩ := hissued
    simp
  exact (holds_of_allSteps (fun _ _ _ h hheeds hstep => h.step hheeds hstep) hstart hheeds hrun).kept

/-- A handle of thread 0 for the first entry. -/
def ownHandle : RuntimeHandle := ⟨"m", 0, 0⟩

/-- Somebody loads a runtime and thread 0 leases it. -/
def leaseRun : List (Event ℕ) := [.call 0 (.put "m" 7 none), .call 0 (.acquireOrReserve "m" none)]

/-- A handle has been made for the lease. -/
theorem issued_leaseRun : ∃ system, runSteps (CacheSystem.step oneEntry) leaseRun (.start ℕ) = some system ∧
    Issued oneEntry ownHandle { system } := by
  have hheld : (runSteps (CacheSystem.step oneEntry) leaseRun (.start ℕ)).map (fun system =>
      decide (system.cache.current? "m" = some 0 ∧ (system.cache.slot 0).Pinned)) = some true := by decide +kernel
  obtain ⟨system, hsystem, hheld⟩ := Option.map_eq_some_iff.1 hheld
  have hheld : system.cache.current? "m" = some 0 ∧ (system.cache.slot 0).Pinned := of_decide_eq_true hheld
  exact ⟨system, hsystem, system, rfl, ⟨leaseRun, hsystem⟩, hheld⟩

/-- The body raises. -/
def raisingRun : List (HandleEvent ℕ) :=
  [.enter 0, .go 0, .go 0, .exit true, .go 0, .go 0, .go 0, .go 0, .go 0]

theorem teardown_once_raisingRun : ∃ (start s : HandleSystem ℕ), Issued oneEntry ownHandle start ∧
    runSteps (step oneEntry ownHandle) raisingRun start = some s ∧ TeardownKept oneEntry ownHandle s ∧
    s.freed = [.executionLock] ∧ s.condemned = true ∧ (s.system.cache.heap 0).state = .invalid := by
  obtain ⟨system, hsystem, hissued⟩ := issued_leaseRun
  have hend : ((runSteps (CacheSystem.step oneEntry) leaseRun (.start ℕ)).bind fun system =>
      runSteps (step oneEntry ownHandle) raisingRun { system }).map (fun s =>
        decide (s.freed = [.executionLock] ∧ s.condemned = true ∧ (s.system.cache.heap 0).state = .invalid)) =
      some true := by decide +kernel
  rw [hsystem] at hend
  obtain ⟨s, hs, hend⟩ := Option.map_eq_some_iff.1 hend
  have hheeds : AllSteps (step oneEntry ownHandle) Heeds raisingRun { system } :=
    heeds_of_run (by simp) (by simp [raisingRun])
  exact ⟨_, s, hissued, hs, teardown_once hissued hheeds hs, of_decide_eq_true hend⟩

/-! ## A release that comes too late -/

/-- The owner leaves the body while thread 1 has begun to say that the runtime is broken. -/
def lateRun : List (HandleEvent ℕ) :=
  [.enter 0, .go 0, .go 0, .release 1 true, .exit false, .go 0, .go 0, .go 0, .go 0]

/-- The execution lock is free and the entry still ready, though thread 1 has called
`release(had_exception=True)` before. -/
theorem ready_after_release : ¬ ∀ (s start : HandleSystem ℕ) (run : List (HandleEvent ℕ)),
    Issued oneEntry ownHandle start → runSteps (step oneEntry ownHandle) run start = some s →
    TeardownKept oneEntry ownHandle s := by
  intro hclaim
  obtain ⟨system, hsystem, hissued⟩ := issued_leaseRun
  have hlate : ((runSteps (CacheSystem.step oneEntry) leaseRun (.start ℕ)).bind fun system =>
      runSteps (step oneEntry ownHandle) lateRun { system }).map (fun s =>
        decide (Resource.executionLock ∈ s.freed ∧ s.condemned = true ∧ Resource.lease ∉ s.freed ∧
          (s.system.cache.heap 0).state = .ready)) = some true := by decide +kernel
  rw [hsystem] at hlate
  obtain ⟨s, hs, hlate⟩ := Option.map_eq_some_iff.1 hlate
  obtain ⟨hfreed, hcondemned, hlease, hready⟩ := of_decide_eq_true hlate
  have hinvalid := ((hclaim s _ _ hissued hs).invalid hfreed hcondemned).2 hlease
  rw [show ownHandle.entry = 0 from rfl, hready] at hinvalid
  cases hinvalid

end HandleSystem

end CreativeStudio.Models
