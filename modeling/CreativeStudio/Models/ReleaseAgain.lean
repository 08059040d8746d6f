import CreativeStudio.Models.TeardownOnce

/-!
# A release of a handle that has been torn down

A further `release` finds the released flag set and gives nothing back. One that reports an
exception has by then declared the entry invalid, whoever holds it now.
-/

namespace CreativeStudio.Models
open Data Conc HandleCall CacheSystem

namespace HandleCall

/-- The thread is in `release`, before the teardown. -/
def InRelease : Option HandleCall → Prop
  | some .releaseMark | some (.release _ _) => True
  | _ => False

end HandleCall

namespace HandleSystem
variable {ρ : Type} {limits : Limits} {handle : RuntimeHandle} {s s' : HandleSystem ρ} {t : Tid}

/-- Nothing is given back, and every entry is as it was. -/
structure Unmoved (s s' : HandleSystem ρ) : Prop where
  freed : s'.freed = s.freed
  leaseCount : ∀ ref, (s'.system.cache.heap ref).leaseCount = (s.system.cache.heap ref).leaseCount
  state : ∀ ref, (s'.system.cache.heap ref).state = (s.system.cache.heap ref).state
  current : ∀ id, s'.system.cache.current? id = s.system.cache.current? id

/-- A step of a `release` by the thread: the call itself, or a section of it. -/
def OfRelease (t : Tid) (event : HandleEvent ρ) (s : HandleSystem ρ) : Prop :=
  (∃ hadException, event = .release t hadException) ∨ event = .go t ∧ InRelease (s.calls t)

/-- The step is the early invalidation of a `release`, and it finds the entry in use. -/
def Strikes (handle : RuntimeHandle) (t : Tid) (event : HandleEvent ρ) (s : HandleSystem ρ) : Prop :=
  event = .go t ∧ s.calls t = some .releaseMark ∧
    s.system.cache.isCurrentAndReady handle.canonicalId handle.entry = true

theorem Unmoved.of_cache (hfreed : s'.freed = s.freed) (hcache : s'.system.cache = s.system.cache) : Unmoved s s' where
  freed := hfreed
  leaseCount _ := by rw [hcache]
  state _ := by rw [hcache]
  current _ := by rw [hcache]

/-- The early invalidation changes an entry exactly when it is the current one and ready. -/
theorem unmoved_markInvalid (hfreed : s'.freed = s.freed)
    (hcache : s'.system.cache = s.system.cache.markInvalid handle.canonicalId handle.entry) :
    Unmoved s s' ↔ ¬ s.system.cache.isCurrentAndReady handle.canonicalId handle.entry = true := by
  have hready : s.system.cache.isCurrentAndReady handle.canonicalId handle.entry = true ↔
      s.system.cache.current? handle.canonicalId = some handle.entry ∧
        (s.system.cache.heap handle.entry).state = .ready := by
    simp [ModelRuntimeCache.isCurrentAndReady]
  rw [hready]
  constructor
  · intro h hboth
    have hstate := h.state handle.entry
    simp [hcache, ModelRuntimeCache.markInvalid, hboth] at hstate
  · intro hnot
    refine .of_cache hfreed ?_
    rw [hcache, ModelRuntimeCache.markInvalid, if_neg hnot]

/-- A handle that has been torn down has been released. -/
theorem Ordered.isSome_of_freed (h : s.Ordered handle) (hdown : s.freed = teardownOrder) :
    s.releasedBy.isSome = true := by
  rw [Option.isSome_iff_ne_none]
  intro hreleased
  rw [h.unreleased hreleased] at hdown
  cases hdown

/-- A further `release` that nobody interrupts. -/
theorem runs_release [DecidableEq ρ] (hfree : s.IsFree t) (hguard : s.guard = none)
    (hreleased : s.releasedBy.isSome = true) (hadException : Bool) :
    ∃ s', runSteps (step limits handle) (.release t hadException ::
        List.replicate (if hadException then 3 else 2) (.go t)) s = some s' ∧ s'.calls t = none ∧ s'.freed = s.freed ∧
      s'.system.cache = (if hadException then s.markInvalid handle else s).system.cache := by
  cases hadException with
  | false =>
    simp [runSteps, step, hfree, List.replicate, go, goto, condemn, HandleSystem.lock, hguard, releaseGuarded,
      HandleSystem.unlock, hreleased]
  | true =>
    simp [runSteps, step, hfree, List.replicate, go, goto, condemn, HandleSystem.lock, hguard, releaseGuarded,
      HandleSystem.unlock, hreleased, markInvalid]

/-- A step of a further `release`, by any thread and whatever happens in between, gives nothing
back. It leaves every entry alone exactly when it is not the early invalidation of an entry
that is in use; and a further `release` that nobody interrupts changes nothing exactly when it
reports no exception or the entry is not in use. -/
theorem release_again [DecidableEq ρ] (h : s.Reachable limits handle) (hdown : s.freed = teardownOrder) :
    (∀ event s', OfRelease t event s → step limits handle event s = some s' →
      s'.freed = teardownOrder ∧ (Unmoved s s' ↔ ¬ Strikes handle t event s)) ∧
    ∀ hadException, s.IsFree t → s.guard = none →
      ∃ s', runSteps (step limits handle) (.release t hadException ::
          List.replicate (if hadException then 3 else 2) (.go t)) s = some s' ∧ s'.calls t = none ∧
        (Unmoved s s' ↔
          ¬ (hadException = true ∧ s.system.cache.isCurrentAndReady handle.canonicalId handle.entry = true)) := by
  have hreleased := h.sound.isSome_of_freed hdown
  have hsame : ∀ {event : HandleEvent ρ} {s' : HandleSystem ρ}, s'.freed = s.freed →
      s'.system.cache = s.system.cache → ¬ Strikes handle t event s →
      s'.freed = teardownOrder ∧ (Unmoved s s' ↔ ¬ Strikes handle t event s) :=
    fun hfreed hcache hnot => ⟨hfreed.trans hdown, fun _ => hnot, fun _ => .of_cache hfreed hcache⟩
  refine ⟨fun event s' hevent hstep => ?_, fun hadException hfree hguard => ?_⟩
  · rcases hevent with ⟨hadException, rfl⟩ | ⟨rfl, hin⟩
    · simp only [step] at hstep
      split at hstep <;> cases hstep
      exact hsame rfl rfl fun hstrikes => by cases hstrikes.1
    · cases hcall : s.calls t with
      | none => simp [hcall, InRelease] at hin
      | some call =>
        have hnot : call ≠ .releaseMark → ¬ Strikes handle t (.go t) s := by
          rintro hne ⟨-, hmark, -⟩
          rw [hcall] at hmark
          exact hne (Option.some.inj hmark)
        cases call with
        | enter | exit | exitMark | exitUnlock | teardown => simp [hcall, InRelease] at hin
        | releaseMark =>
          simp only [step, go, hcall, Option.some.injEq] at hstep
          subst hstep
          refine ⟨hdown, ?_⟩
          simp only [Strikes, hcall, true_and]
          exact unmoved_markInvalid rfl rfl
        | release hadException guarded =>
          cases guarded with
          | false =>
            simp only [step, go, hcall, HandleSystem.lock] at hstep
            split at hstep <;> cases hstep
            exact hsame rfl rfl (hnot (by simp))
          | true =>
            simp only [step, go, hcall, releaseGuarded, hreleased, if_true, Option.some.injEq] at hstep
            subst hstep
            exact hsame rfl rfl (hnot (by simp))
  · obtain ⟨s', hrun, hcall, hfreed, hcache⟩ := runs_release hfree hguard hreleased hadException
    refine ⟨s', hrun, hcall, ?_⟩
    cases hadException with
    | false => exact ⟨fun _ hboth => Bool.false_ne_true hboth.1, fun _ => .of_cache hfreed hcache⟩
    | true => simpa using unmoved_markInvalid hfreed hcache

/-! ## Somebody else's entry -/

/-- The handle has been left, and thread 1 holds the entry. -/
def handedOnRun : List (HandleEvent ℕ) :=
  [.enter 0, .go 0, .go 0, .exit false, .go 0, .go 0, .go 0, .go 0, .go 0, .go 0,
    .cache (.call 1 (.acquireOrReserve "m" none))]

theorem reachable_handedOnRun : ∃ s : HandleSystem ℕ, s.Reachable oneEntry ownHandle ∧ s.freed = teardownOrder ∧
    s.IsFree 2 ∧ s.guard = none ∧ s.system.cache.isCurrentAndReady "m" 0 = true ∧
    (s.system.cache.heap 0).leaseCount = 1 := by
  obtain ⟨system, hsystem, hissued⟩ := issued_leaseRun
  have hend : ((runSteps (CacheSystem.step oneEntry) leaseRun (.start ℕ)).bind fun system =>
      runSteps (step oneEntry ownHandle) handedOnRun { system }).map (fun s =>
        decide (s.freed = teardownOrder ∧ s.IsFree 2 ∧ s.guard = none ∧
          s.system.cache.isCurrentAndReady "m" 0 = true ∧ (s.system.cache.heap 0).leaseCount = 1)) =
      some true := by decide +kernel
  rw [hsystem] at hend
  obtain ⟨s, hs, hend⟩ := Option.map_eq_some_iff.1 hend
  exact ⟨s, ⟨_, handedOnRun, hissued, hs⟩, of_decide_eq_true hend⟩

theorem release_again_handedOnRun : ∃ s s' : HandleSystem ℕ, s.Reachable oneEntry ownHandle ∧
    runSteps (step oneEntry ownHandle) [.release 2 false, .go 2, .go 2] s = some s' ∧ Unmoved s s' := by
  obtain ⟨s, hreachable, hdown, hfree, hguard, -, -⟩ := reachable_handedOnRun
  obtain ⟨s', hrun, -, hunmoved⟩ := (release_again hreachable hdown).2 false hfree hguard
  exact ⟨s, s', hreachable, hrun, hunmoved.2 (by simp)⟩

/-- Thread 2 reports an exception of a body that is long over, and the runtime that thread 1
works with is declared invalid. -/
theorem struck_after_teardown : ¬ ∀ (s s' : HandleSystem ℕ) (t : Tid) (hadException : Bool),
    s.Reachable oneEntry ownHandle → s.freed = teardownOrder → s.IsFree t →
    runSteps (step oneEntry ownHandle) (.release t hadException ::
      List.replicate (if hadException then 3 else 2) (.go t)) s = some s' → Unmoved s s' := by
  intro hclaim
  obtain ⟨s, hreachable, hdown, hfree, hguard, hready, -⟩ := reachable_handedOnRun
  obtain ⟨s', hrun, -, hfreed, hcache⟩ := runs_release hfree hguard (hreachable.sound.isSome_of_freed hdown) true
  exact (unmoved_markInvalid hfreed hcache).1 (hclaim s s' 2 true hreachable hdown hfree hrun) hready

end HandleSystem

end CreativeStudio.Models
