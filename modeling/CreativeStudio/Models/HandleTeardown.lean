import CreativeStudio.Models.CacheInvariant
import CreativeStudio.Models.RuntimeHandle

/-!
# The teardown of a runtime handle

`Ordered` says who may be giving the handle's resources back, and how far that is. The first
call to set the released flag is the only one that goes on to the teardown, and once the
handle has been entered that is the `__exit__` of its owner.
-/

namespace CreativeStudio.Models
open Data Conc

namespace HandleCall

/-- The thread has the guard. -/
def Guarded : Option HandleCall → Prop
  | some (.enter true) | some (.exit _ true) | some .exitMark | some .exitUnlock | some (.release _ true) => True
  | _ => False

/-- The thread is in `__exit__`, before the released flag. -/
def Exiting : Option HandleCall → Prop
  | some (.exit _ _) => True
  | _ => False

/-- The thread has set the released flag in `__exit__` and has not left the guard. -/
def Closing : Option HandleCall → Prop
  | some .exitMark | some .exitUnlock => True
  | _ => False

/-- The thread has set the released flag and goes on to the teardown. -/
def Unwinding : Option HandleCall → Prop
  | some .exitMark | some .exitUnlock | some (.teardown _) => True
  | _ => False

/-- What has been given back when a thread is here in the teardown. -/
def given : Option HandleCall → List Resource
  | some (.teardown .lease) => [.executionLock]
  | some (.teardown .admission) => [.executionLock, .lease]
  | _ => []

end HandleCall

open HandleCall

namespace HandleSystem
variable {ρ : Type} {limits : Limits} {handle : RuntimeHandle} {s s' : HandleSystem ρ} {t : Tid}

/-- The order of the calls of a handle. -/
structure Ordered (handle : RuntimeHandle) (s : HandleSystem ρ) : Prop where
  guarded : ∀ t, Guarded (s.calls t) → s.guard = some t
  unreleased : s.releasedBy = none → s.freed = []
  unwinding : ∀ t, Unwinding (s.calls t) → s.releasedBy = some t ∧ s.freed = given (s.calls t) ∧
    (s.isEntered = true → t = handle.ownerThread)
  done : ∀ t, s.releasedBy = some t → ¬ Unwinding (s.calls t) → s.freed = teardownOrder
  exiting : ∀ t, Exiting (s.calls t) ∨ Closing (s.calls t) →
    t = handle.ownerThread ∧ s.isEntered = true ∧ s.active = false
  exiting_unreleased : ∀ t, Exiting (s.calls t) → s.releasedBy = none
  active : s.active = true → s.isEntered = true ∧ s.releasedBy = none
  left : s.isEntered = true → s.active = false → s.releasedBy = none → Exiting (s.calls handle.ownerThread)
  answered : s.answered = true → s.releasedBy ≠ none ∨ s.isEntered = true

/-! ## Moves of one thread -/

/-- A thread goes to another point of its call, and nothing happens to the flags. -/
theorem Ordered.move {next : Option HandleCall} (h : s.Ordered handle)
    (hcalls : s'.calls = Function.update s.calls t next)
    (hflags : s'.releasedBy = s.releasedBy ∧ s'.freed = s.freed ∧ s'.isEntered = s.isEntered ∧ s'.active = s.active)
    (hguard : ∀ u, u ≠ t → Guarded (s.calls u) → s'.guard = some u) (hguard' : Guarded next → s'.guard = some t)
    (hunwinding : (Unwinding next ↔ Unwinding (s.calls t)) ∧ given next = given (s.calls t))
    (hexiting : (Exiting next ↔ Exiting (s.calls t)) ∧ (Closing next → Closing (s.calls t)))
    (hanswered : s'.answered = true → s.answered = true ∨ s.releasedBy ≠ none ∨ s.isEntered = true) :
    s'.Ordered handle := by
  obtain ⟨hreleased, hfreed, hentered, hactive⟩ := hflags
  have hother : ∀ u, u ≠ t → s'.calls u = s.calls u := fun u hne => by rw [hcalls, Function.update_of_ne hne]
  have hself : s'.calls t = next := by rw [hcalls, Function.update_self]
  have hleft := h.left
  refine ⟨fun u => ?_, ?_, fun u => ?_, fun u => ?_, fun u => ?_, fun u => ?_, ?_, ?_, ?_⟩
  · by_cases heq : u = t
    · subst heq
      rwa [hself]
    · rw [hother u heq]
      exact hguard u heq
  · rw [hreleased, hfreed]
    exact h.unreleased
  · rw [hreleased, hfreed, hentered]
    by_cases heq : u = t
    · subst heq
      rw [hself, hunwinding.1, hunwinding.2]
      exact h.unwinding u
    · rw [hother u heq]
      exact h.unwinding u
  · rw [hreleased, hfreed]
    by_cases heq : u = t
    · subst heq
      rw [hself, hunwinding.1]
      exact h.done u
    · rw [hother u heq]
      exact h.done u
  · rw [hentered, hactive]
    by_cases heq : u = t
    · subst heq
      rw [hself, hexiting.1]
      exact fun hnext => h.exiting u (hnext.imp_right hexiting.2)
    · rw [hother u heq]
      exact h.exiting u
  · rw [hreleased]
    by_cases heq : u = t
    · subst heq
      rw [hself, hexiting.1]
      exact h.exiting_unreleased u
    · rw [hother u heq]
      exact h.exiting_unreleased u
  · rw [hactive, hentered, hreleased]
    exact h.active
  · rw [hactive, hentered, hreleased]
    by_cases heq : handle.ownerThread = t
    · rw [heq, hself, hexiting.1, ← heq]
      exact h.left
    · rw [hother _ heq]
      exact h.left
  · rw [hreleased, hentered]
    intro hanswer
    rcases hanswered hanswer with hanswer | hdone
    · exact h.answered hanswer
    · exact hdone

/-- Nobody else has the guard. -/
theorem Ordered.alone (h : s.Ordered handle) (hguarded : Guarded (s.calls t)) {u : Tid} (hne : u ≠ t) :
    ¬ Guarded (s.calls u) := by
  intro hother
  have hboth := (h.guarded u hother).symm.trans (h.guarded t hguarded)
  exact hne (Option.some.inj hboth)

theorem Ordered.lock {call call' : HandleCall} (h : s.Ordered handle) (hcall : s.calls t = some call)
    (hlock : s.lock t call' = some s') (hunwinding : (Unwinding (some call') ↔ Unwinding (some call)) ∧
      given (some call') = given (some call))
    (hexiting : (Exiting (some call') ↔ Exiting (some call)) ∧ (Closing (some call') → Closing (some call))) :
    s'.Ordered handle := by
  unfold HandleSystem.lock at hlock
  split at hlock
  case _ hfree =>
    cases hlock
    refine h.move rfl ⟨rfl, rfl, rfl, rfl⟩ (fun u _ hguarded => ?_) (fun _ => rfl) (hcall ▸ hunwinding)
      (hcall ▸ hexiting) fun hanswer => .inl hanswer
    rw [h.guarded u hguarded] at hfree
    cases hfree
  · cases hlock

/-- A thread leaves the guard. -/
theorem Ordered.unlock {call : HandleCall} (h : s.Ordered handle) (next : Option HandleCall)
    (hcall : s.calls t = some call) (hguarded : Guarded (some call)) (hnext : ¬ Guarded next)
    (hunwinding : (Unwinding next ↔ Unwinding (some call)) ∧ given next = given (some call))
    (hexiting : (Exiting next ↔ Exiting (some call)) ∧ (Closing next → Closing (some call))) :
    (s.unlock t next).Ordered handle :=
  h.move rfl ⟨rfl, rfl, rfl, rfl⟩ (fun _ hne hother => absurd hother (h.alone (hcall ▸ hguarded) hne))
    (fun hnot => absurd hnot hnext) (hcall ▸ hunwinding) (hcall ▸ hexiting) fun hanswer => .inl hanswer

/-! ## Moves that set a flag -/

theorem calls_goto (s : HandleSystem ρ) (t u : Tid) (call : Option HandleCall) :
    (s.goto t call).calls u = if u = t then call else s.calls u := by
  simp [goto, Function.update_apply]

/-- `__enter__` goes through. -/
theorem Ordered.entered (h : s.Ordered handle) (hcall : s.calls handle.ownerThread = some (.enter true))
    (hreleased : s.releasedBy = none) (hentered : s.isEntered = false) :
    (({ s with isEntered := true, active := true } : HandleSystem ρ).unlock handle.ownerThread none).Ordered handle := by
  have hguarded : Guarded (s.calls handle.ownerThread) := by rw [hcall]; trivial
  have halone := fun u (hne : u ≠ handle.ownerThread) => h.alone hguarded hne
  have hunreleased := h.unreleased
  have hunwinding := h.unwinding
  have hexiting := h.exiting
  constructor <;> simp only [HandleSystem.unlock, goto, Function.update_apply]
  all_goals grind [Guarded, Exiting, Closing, Unwinding]

/-- The owner calls `__exit__`. -/
theorem Ordered.left_body (h : s.Ordered handle) (hactive : s.active = true) (hadException : Bool) :
    ((({ s with active := false } : HandleSystem ρ).condemn hadException).goto handle.ownerThread
      (some (.exit hadException false))).Ordered handle := by
  obtain ⟨hentered, hreleased⟩ := h.active hactive
  have hguarded := h.guarded
  have hunwinding := h.unwinding
  have hexiting := h.exiting
  have hunreleased := h.unreleased
  constructor <;> simp only [condemn, goto, Function.update_apply]
  all_goals grind [Guarded, Exiting, Closing, Unwinding]

/-- `__exit__` sets the released flag. -/
theorem Ordered.closed (h : s.Ordered handle) {hadException : Bool} {next : HandleCall}
    (hcall : s.calls t = some (.exit hadException true)) (hreleased : s.releasedBy = none)
    (hnext : next = .exitMark ∨ next = .exitUnlock) :
    (({ s with releasedBy := some t } : HandleSystem ρ).goto t (some next)).Ordered handle := by
  have hguarded := h.guarded
  have hunwinding := h.unwinding
  have hexiting := h.exiting
  have hunreleased := h.unreleased
  have hactive := h.active
  constructor <;> simp only [goto, Function.update_apply]
  all_goals grind [Guarded, Exiting, Closing, Unwinding, given]

/-- `release` sets the released flag of a handle that has not been entered. -/
theorem Ordered.released (h : s.Ordered handle) {hadException : Bool}
    (hcall : s.calls t = some (.release hadException true)) (hreleased : s.releasedBy = none)
    (hentered : s.isEntered = false) (pending : Bool) :
    (({ s with pendingInvalidation := pending, releasedBy := some t, answered := true } : HandleSystem ρ).unlock t
      (some (.teardown .executionLock))).Ordered handle := by
  have hguarded : Guarded (s.calls t) := by rw [hcall]; trivial
  have halone := fun u (hne : u ≠ t) => h.alone hguarded hne
  have hunwinding := h.unwinding
  have hexiting := h.exiting
  have hunreleased := h.unreleased
  have hactive := h.active
  constructor <;> simp only [HandleSystem.unlock, goto, Function.update_apply]
  all_goals grind [Guarded, Exiting, Closing, Unwinding, given]

/-- The resource that comes next is given back. -/
theorem Ordered.freed (h : s.Ordered handle) {resource : Resource} {next : Option HandleCall}
    (hcall : s.calls t = some (.teardown resource))
    (hnext : (resource = .executionLock ∧ next = some (.teardown .lease)) ∨
      (resource = .lease ∧ next = some (.teardown .admission)) ∨ (resource = .admission ∧ next = none)) :
    (s.free t resource next).Ordered handle := by
  have hmine : s.releasedBy = some t ∧ s.freed = given (s.calls t) ∧ (s.isEntered = true → t = handle.ownerThread) :=
    h.unwinding t (by rw [hcall]; trivial)
  have hguarded := h.guarded
  have hunwinding := h.unwinding
  have hdone := h.done
  have hexiting := h.exiting
  have hunreleased := h.exiting_unreleased
  have hactive := h.active
  have hleft := h.left
  have hanswered := h.answered
  rw [hcall] at hmine
  rcases hnext with ⟨rfl, rfl⟩ | ⟨rfl, rfl⟩ | ⟨rfl, rfl⟩
  all_goals
    constructor <;> simp only [free, goto, Function.update_apply]
    all_goals grind [Guarded, Exiting, Closing, Unwinding, given, teardownOrder]

/-! ## The lease of the handle -/

theorem notified_of_call [DecidableEq ρ] {limits : Limits} {c c' : CacheSystem ρ} {call : Call ρ}
    (hcall : c.call limits t call = some c') (hother : ∀ id ref, call ≠ .releaseLease id ref) :
    c'.notified = c.notified := by
  cases call with
  | releaseLease id ref => exact absurd rfl (hother id ref)
  | get | markInvalid =>
    cases hcall
    rfl
  | waitForStaleEntryDrain id ref expired =>
    cases hcall
    unfold CacheSystem.look
    split
    · split <;> rfl
    · rfl
  | publishReadyAndPin | abortReservation =>
    simp only [CacheSystem.call] at hcall
    split at hcall <;> cases hcall
    rfl
  | put | unload | unloadAll | acquireOrReserve =>
    simp only [CacheSystem.call] at hcall
    split at hcall <;> cases hcall <;> rfl

/-- A lease stays where it is, unless its own release takes it away. -/
theorem held_of_step [DecidableEq ρ] {c c' : CacheSystem ρ} {id : CanonicalId} {ref : EntryRef} {event : Event ρ}
    (h : c.Sound) (hheld : c.cache.Held id ref) (hstep : CacheSystem.step limits event c = some c')
    (hforeign : ∀ t, event = .call t (.releaseLease id ref) → 2 ≤ (c.cache.heap ref).leaseCount) :
    c'.cache.Held id ref := by
  have hadvances := CacheSystem.step_spec h hstep
  have hslot : (c'.cache.slot ref).Pinned → c'.cache.Held id ref := fun hpinned =>
    hheld.of_slot h.tidy hpinned hadvances.named
  have hquiet : ∀ {t first victims}, CacheSystem.Section t first victims c c' → c'.notified = c.notified →
      c'.cache.Held id ref := fun hsection hnotified =>
    hheld.kept h.tidy (hsection.quiet.resolve_right (by omega))
  have hsame : c'.cache = c.cache → c'.cache.Held id ref := fun hcache => hcache ▸ hheld
  cases event with
  | call t call =>
    simp only [CacheSystem.step] at hstep
    split at hstep
    case h_2 => cases hstep
    case h_1 hidle =>
      by_cases hrelease : ∃ id' ref', call = .releaseLease id' ref'
      · obtain ⟨id', ref', rfl⟩ := hrelease
        refine hslot ?_
        have hcache : c'.cache = (c.cache.releaseLease limits id' ref').2 := by
          simp only [CacheSystem.call] at hstep
          split at hstep <;> cases hstep <;> rfl
        rw [hcache]
        by_cases hcur : c.cache.current? id' = some ref'
        · refine ModelRuntimeCache.slot_releaseLease limits h.tidy hheld.2 fun heq => ?_
          subst heq
          obtain rfl : id' = id := h.tidy.inj hcur hheld.1
          have hleases := hforeign t rfl
          have hpinned := hheld.2
          rw [ModelRuntimeCache.slot_of_current h.tidy hcur] at hpinned ⊢
          unfold RuntimeEntry.slot Slot.Pinned at *
          cases hstate : (c.cache.heap ref').state <;> simp_all
        · rw [ModelRuntimeCache.releaseLease, if_neg hcur]
          exact hheld.2
      · obtain ⟨first, victims, hsection⟩ := CacheSystem.call_section h (by rw [hidle]; rfl) hstep
        exact hquiet hsection (notified_of_call hstep fun id' ref' heq => hrelease ⟨id', ref', heq⟩)
  | proceed t raises =>
    rcases CacheSystem.proceed_cases h hstep with hdoes | ⟨-, hsection, hnotified⟩
    · cases hdoes with
      | cleanup raised' _ | retirement raised' _ => exact hheld
      | @removal t id' ref' chores raised resume hactivity =>
        refine hslot ?_
        obtain ⟨hmade, hid, hgiven⟩ := h.chores t (.removal id' ref') (by rw [hactivity]; exact List.mem_cons_self)
        have hupdate := (ModelRuntimeCache.finishRetirement_acts h.tidy hmade hid hgiven).2
        have hne : ref ≠ ref' := by
          rintro rfl
          rcases hgiven with hgiven | hgiven
          · exact hheld.2.live.2.2 hgiven
          · exact hheld.2.live.1 hgiven
        have hother : (c.cache.finishRetirement id' ref').slot ref = c.cache.slot ref := by
          rw [hupdate, Function.update_of_ne hne]
        exact hother ▸ hheld.2
    · exact hquiet hsection hnotified
  | recheck t expired =>
    simp only [CacheSystem.step] at hstep
    split at hstep <;> cases hstep
    exact hsame (CacheSystem.cache_look ..)
  | wakeUp t =>
    simp only [CacheSystem.step] at hstep
    split at hstep <;> cases hstep
    exact hheld

/-! ## The invariant -/

/-- The thread still has to see to it that the entry is invalid. -/
def Marking : Option HandleCall → Prop
  | some .releaseMark | some (.exit true _) | some .exitMark => True
  | _ => False

/-- The thread is in no operation of the cache, or in one that ends with its chores. -/
def Winding (activity : Activity ρ) : Prop :=
  activity.isIdle = true ∨ ∃ chore chores raised, activity = .cleaning (chore :: chores) raised none

theorem Winding.after (chores : List (Chore ρ)) (raised : Bool) : Winding (.after chores raised none) := by
  cases chores with
  | nil => exact .inl (by cases raised <;> rfl)
  | cons chore chores => exact .inr ⟨chore, chores, raised, rfl⟩

theorem Winding.awake {activity : Activity ρ} (h : Winding activity) : Winding activity.awake := by
  rcases h with hidle | ⟨chore, chores, raised, rfl⟩
  · cases activity <;> simp_all [Activity.isIdle, Activity.awake, Winding]
  · exact .inr ⟨chore, chores, raised, rfl⟩

/-- What holds whenever a thread is between two steps. -/
structure Sound (handle : RuntimeHandle) (s : HandleSystem ρ) : Prop extends Ordered handle s where
  system : s.system.Sound
  idle : ∀ t, s.calls t ≠ none → s.calls t ≠ some (.teardown .admission) → (s.system.activity t).isIdle = true
  /-- Before it gives the admission slot back a thread sees to what the lease has left it. -/
  winding : ∀ t, s.calls t = some (.teardown .admission) → Winding (s.system.activity t)
  named : handle.entry < s.system.cache.made ∧ (s.system.cache.heap handle.entry).canonicalId = handle.canonicalId
  loaded : (s.system.cache.slot handle.entry).Loaded
  /-- As long as the handle has its lease, its entry is there. -/
  held : .lease ∉ s.freed → s.system.cache.Held handle.canonicalId handle.entry
  /-- A condemned entry is invalid, or somebody still has to make it so. -/
  condemned : s.condemned = true → (s.system.cache.slot handle.entry).Spent ∨ ∃ t, Marking (s.calls t)

theorem Issued.sound [DecidableEq ρ] (h : Issued limits handle s) : s.Sound handle := by
  obtain ⟨system, rfl, hreachable, hheld⟩ := h
  have htidy := hreachable.sound.tidy
  exact {
    guarded := by simp [Guarded]
    unreleased := by simp
    unwinding := by simp [Unwinding]
    done := by simp
    exiting := by simp [Exiting, Closing]
    exiting_unreleased := by simp
    active := by simp
    left := by simp
    answered := by simp
    system := hreachable.sound
    idle := by simp
    winding := by simp
    named := ⟨htidy.made _ _ hheld.1, htidy.named _ _ hheld.1⟩
    loaded := hheld.2.loaded
    held := fun _ => hheld
    condemned := by simp }

/-- Declaring a loaded entry invalid leaves it spent. -/
theorem spent_markInvalid {c : ModelRuntimeCache ρ} {id : CanonicalId} {ref : EntryRef} (h : c.Tidy)
    (hnamed : (c.heap ref).canonicalId = id) (hloaded : (c.slot ref).Loaded) : ((c.markInvalid id ref).slot ref).Spent := by
  unfold ModelRuntimeCache.markInvalid
  by_cases hcur : c.current? id = some ref
  · have hslot := ModelRuntimeCache.slot_of_current h hcur
    by_cases hready : (c.heap ref).state = .ready
    · rw [if_pos ⟨hcur, hready⟩, ModelRuntimeCache.slot_modify h rfl hcur, Function.update_self]
      trivial
    · rw [if_neg fun hboth => hready hboth.2]
      rw [hslot] at hloaded ⊢
      unfold RuntimeEntry.slot at hloaded ⊢
      cases hstate : (c.heap ref).state <;> simp_all [Slot.Loaded, Slot.Spent]
  · rw [if_neg fun hboth => hcur hboth.1]
    have hgone : c.slot ref = .gone := by
      refine ModelRuntimeCache.slot_eq_gone (ModelRuntimeCache.lt_made_of_slot h hloaded.1) fun id' hcur' => hcur ?_
      rwa [← hnamed, h.named id' ref hcur']
    rw [hgone]
    trivial

/-! ## Steps -/

theorem Ordered.of_system (h : s.Ordered handle) (system : CacheSystem ρ) :
    ({ s with system } : HandleSystem ρ).Ordered handle :=
  { h with }

/-- What the cache keeps for the handle in a step of it. -/
structure Keeps (handle : RuntimeHandle) (s : HandleSystem ρ) (system : CacheSystem ρ) : Prop where
  sound : system.Sound
  named : handle.entry < system.cache.made ∧ (system.cache.heap handle.entry).canonicalId = handle.canonicalId
  loaded : (system.cache.slot handle.entry).Loaded
  spent : (s.system.cache.slot handle.entry).Spent → (system.cache.slot handle.entry).Spent

theorem Keeps.of_advances {system : CacheSystem ρ} (h : s.Sound handle)
    (hadvances : CacheSystem.Advances s.system system) : Keeps handle s system where
  sound := hadvances.sound
  named := ⟨h.named.1.trans_le hadvances.made, (hadvances.named _ h.named.1).trans h.named.2⟩
  loaded := (hadvances.turns _).loaded h.loaded
  spent hspent := (hspent.moves (hadvances.turns _)).1

/-- Who is idle stays so until it calls something. -/
theorem idle_of_step [DecidableEq ρ] {c c' : CacheSystem ρ} {event : Event ρ} {u : Tid} (h : c.Sound)
    (hstep : CacheSystem.step limits event c = some c') (hidle : (c.activity u).isIdle = true)
    (hother : ∀ call, event ≠ .call u call) : (c'.activity u).isIdle = true := by
  have hawake : (c.activity u).awake.isIdle = true := by
    cases hactivity : c.activity u <;> simp_all [Activity.isIdle, Activity.awake]
  have hsection : ∀ {t first victims}, u ≠ t → CacheSystem.Section t first victims c c' →
      (c'.activity u).isIdle = true := by
    intro t first victims hne hsection
    rcases hsection.others u hne with hsame | hsame <;> rw [hsame]
    · exact hidle
    · exact hawake
  cases event with
  | call t call =>
    simp only [CacheSystem.step] at hstep
    split at hstep
    case h_1 hfree =>
      obtain ⟨first, victims, hdone⟩ := CacheSystem.call_section h (by rw [hfree]; rfl) hstep
      exact hsection (fun heq => hother call (by rw [heq])) hdone
    · cases hstep
  | proceed t raises =>
    have hne : u ≠ t := by
      rintro rfl
      cases hactivity : c.activity u <;> simp_all [Activity.isIdle]
      simp [CacheSystem.step, CacheSystem.proceed, hactivity] at hstep
    rcases CacheSystem.proceed_cases h hstep with hdoes | ⟨-, hdone, -⟩
    · cases hdoes with
      | @cleanup t' _ _ _ _ _ _ _ hactivity | @retirement t' _ _ _ _ _ _ hactivity =>
        have hne : u ≠ t' := by
          rintro rfl
          simp [hactivity, Activity.isIdle] at hidle
        simpa [CacheSystem.occupy, hne] using hidle
      | @removal t' _ _ _ _ _ hactivity =>
        have hne : u ≠ t' := by
          rintro rfl
          simp [hactivity, Activity.isIdle] at hidle
        simpa [CacheSystem.occupy, CacheSystem.notifyAll, hne] using hawake
    · exact hsection hne hdone
  | recheck t expired =>
    simp only [CacheSystem.step] at hstep
    split at hstep
    case h_1 hactivity =>
      cases hstep
      have hne : u ≠ t := by
        rintro rfl
        simp [hactivity, Activity.isIdle] at hidle
      exact hsection hne (.look h)
    · cases hstep
  | wakeUp t =>
    simp only [CacheSystem.step] at hstep
    split at hstep
    case h_1 hactivity =>
      cases hstep
      have hne : u ≠ t := by
        rintro rfl
        simp [hactivity, Activity.isIdle] at hidle
      simpa [CacheSystem.occupy, hne] using hidle
    · cases hstep

/-- Who has nothing left but chores goes on with them. -/
theorem winding_of_step [DecidableEq ρ] {c c' : CacheSystem ρ} {event : Event ρ} {u : Tid} (h : c.Sound)
    (hstep : CacheSystem.step limits event c = some c') (hwinding : Winding (c.activity u))
    (hother : ∀ call, event ≠ .call u call) : Winding (c'.activity u) := by
  rcases hwinding with hidle | ⟨chore, chores, raised, hactivity⟩
  · exact .inl (idle_of_step h hstep hidle hother)
  have hwinding : Winding (c.activity u) := .inr ⟨chore, chores, raised, hactivity⟩
  have hsection : ∀ {t first victims}, u ≠ t → CacheSystem.Section t first victims c c' → Winding (c'.activity u) := by
    intro t first victims hne hsection
    rcases hsection.others u hne with hsame | hsame <;> rw [hsame]
    · exact hwinding
    · exact hwinding.awake
  cases event with
  | call t call =>
    simp only [CacheSystem.step] at hstep
    split at hstep
    case h_1 hfree =>
      obtain ⟨first, victims, hdone⟩ := CacheSystem.call_section h (by rw [hfree]; rfl) hstep
      exact hsection (fun heq => hother call (by rw [heq])) hdone
    · cases hstep
  | proceed t raises =>
    rcases CacheSystem.proceed_cases h hstep with hdoes | ⟨hnone, hdone, -⟩
    · cases hdoes with
      | @cleanup t' _ _ _ chores' _ resume raised' hactivity' =>
        by_cases heq : u = t'
        · subst heq
          obtain ⟨⟨-, rfl⟩, -, rfl⟩ := by simpa [hactivity] using hactivity'
          simpa [CacheSystem.occupy] using Winding.after chores raised'
        · simpa [CacheSystem.occupy, heq] using hwinding
      | @retirement t' id ref chores' _ resume raised' hactivity' =>
        by_cases heq : u = t'
        · subst heq
          obtain ⟨⟨-, rfl⟩, -, rfl⟩ := by simpa [hactivity] using hactivity'
          exact .inr ⟨.removal id ref, chores, raised', by simp [CacheSystem.occupy]⟩
        · simpa [CacheSystem.occupy, heq] using hwinding
      | @removal t' _ _ chores' _ resume hactivity' =>
        by_cases heq : u = t'
        · subst heq
          obtain ⟨⟨-, rfl⟩, rfl, rfl⟩ := by simpa [hactivity] using hactivity'
          simpa [CacheSystem.occupy] using Winding.after chores raised
        · simpa [CacheSystem.occupy, CacheSystem.notifyAll, heq] using hwinding.awake
    · refine hsection ?_ hdone
      rintro rfl
      simp [hactivity, Activity.chores] at hnone
  | recheck t expired =>
    simp only [CacheSystem.step] at hstep
    split at hstep
    case h_1 hactivity' =>
      cases hstep
      have hne : u ≠ t := by
        rintro rfl
        simp [hactivity'] at hactivity
      exact hsection hne (.look h)
    · cases hstep
  | wakeUp t =>
    simp only [CacheSystem.step] at hstep
    split at hstep
    case h_1 hactivity' =>
      cases hstep
      have hne : u ≠ t := by
        rintro rfl
        simp [hactivity'] at hactivity
      simpa [CacheSystem.occupy, hne] using hwinding
    · cases hstep

/-- A step of the handle that leaves the cache alone. -/
theorem Sound.still {next : Option HandleCall} (h : s.Sound handle) (hordered : s'.Ordered handle)
    (hsystem : s'.system = s.system) (hcalls : s'.calls = Function.update s.calls t next)
    (hidle : next ≠ none → (s.system.activity t).isIdle = true)
    (hnext : next ≠ some (.teardown .admission)) (hlease : .lease ∈ s.freed → .lease ∈ s'.freed)
    (hcondemned : s'.condemned = true → s.condemned = true ∨ Marking next)
    (hmarking : Marking (s.calls t) → Marking next) : s'.Sound handle where
  toOrdered := hordered
  system := hsystem ▸ h.system
  idle u hsome hother := by
    rw [hsystem]
    rw [hcalls] at hsome hother
    by_cases heq : u = t
    · subst heq
      rw [Function.update_self] at hsome
      exact hidle hsome
    · rw [Function.update_of_ne heq] at hsome hother
      exact h.idle u hsome hother
  winding u hcall := by
    rw [hsystem]
    rw [hcalls] at hcall
    by_cases heq : u = t
    · subst heq
      rw [Function.update_self] at hcall
      exact absurd hcall hnext
    · rw [Function.update_of_ne heq] at hcall
      exact h.winding u hcall
  named := hsystem ▸ h.named
  loaded := hsystem ▸ h.loaded
  held hnot := hsystem ▸ h.held fun hmem => hnot (hlease hmem)
  condemned hcondemn := by
    rw [hsystem, hcalls]
    have hnext : Marking next → ∃ u, Marking (Function.update s.calls t next u) := fun hnext =>
      ⟨t, by rwa [Function.update_self]⟩
    rcases hcondemned hcondemn with hcondemn | hmark
    · rcases h.condemned hcondemn with hspent | ⟨u, hu⟩
      · exact .inl hspent
      · by_cases heq : u = t
        · subst heq
          exact .inr (hnext (hmarking hu))
        · exact .inr ⟨u, by rwa [Function.update_of_ne heq]⟩
    · exact .inr (hnext hmark)

/-- A step of the handle that declares the entry invalid. -/
theorem Sound.marked {next : HandleCall} (h : s.Sound handle) (hcall : s.calls t ≠ none)
    (hbusy : s.calls t ≠ some (.teardown .admission)) (hnext : next ≠ .teardown .admission)
    (hordered : ((s.markInvalid handle).goto t (some next)).Ordered handle) :
    ((s.markInvalid handle).goto t (some next)).Sound handle := by
  have hacts := ModelRuntimeCache.markInvalid_acts h.system.tidy handle.canonicalId handle.entry
  refine { toOrdered := hordered, system := h.system.acts hacts, idle := fun u hsome hother => ?_,
           winding := fun u hadmission => ?_, named := ?_, loaded := ?_, held := fun hnot => ?_, condemned := fun _ => .inl ?_ }
  · by_cases heq : u = t
    · subst heq
      exact h.idle u hcall hbusy
    · rw [calls_goto, if_neg heq] at hsome hother
      exact h.idle u hsome hother
  · by_cases heq : u = t
    · rw [calls_goto, if_pos heq] at hadmission
      exact absurd (Option.some.inj hadmission) hnext
    · rw [calls_goto, if_neg heq] at hadmission
      exact h.winding u hadmission
  · exact ⟨h.named.1.trans_le hacts.made, (hacts.named _ h.named.1).trans h.named.2⟩
  · exact (hacts.turns _).loaded h.loaded
  · exact (h.held hnot).kept h.system.tidy (hacts.mono fun _ hmove => hmove.1)
  · exact spent_markInvalid h.system.tidy h.named.2 h.loaded

/-- A step of the cache. -/
theorem Sound.of_system [DecidableEq ρ] {event : Event ρ} {system : CacheSystem ρ} (h : s.Sound handle)
    (hstep : CacheSystem.step limits event s.system = some system) (hforeign : s.Foreign handle event) :
    ({ s with system } : HandleSystem ρ).Sound handle := by
  have hadvances := CacheSystem.step_spec h.system hstep
  have hkeeps := Keeps.of_advances h hadvances
  refine { toOrdered := h.toOrdered.of_system system, system := hadvances.sound, idle := fun u hsome hother => ?_,
           winding := fun u hadmission => ?_, named := hkeeps.named, loaded := hkeeps.loaded, held := fun hnot => ?_,
           condemned := fun hcondemn => (h.condemned hcondemn).imp_left hkeeps.spent }
  · refine idle_of_step h.system hstep (h.idle u hsome hother) fun call heq => ?_
    subst heq
    exact hsome hforeign.1
  · refine winding_of_step h.system hstep (h.winding u hadmission) fun call heq => ?_
    subst heq
    rw [hforeign.1] at hadmission
    cases hadmission
  · refine held_of_step h.system (h.held hnot) hstep fun u heq => ?_
    subst heq
    exact hforeign.2 rfl hnot

theorem winding_of_release [DecidableEq ρ] {c c' : CacheSystem ρ} {id : CanonicalId} {ref : EntryRef}
    (hidle : c.activity t = .idle) (hrelease : c.call limits t (.releaseLease id ref) = some c') :
    Winding (c'.activity t) := by
  simp only [CacheSystem.call] at hrelease
  split at hrelease <;> cases hrelease
  · simpa [CacheSystem.clean, CacheSystem.occupy] using Winding.after _ false
  · exact .inl (by simp [hidle, Activity.isIdle])

/-- The cache comes to the release of the lease in a step of its own. -/
theorem Sound.release_step [DecidableEq ρ] {system : CacheSystem ρ} (h : s.Sound handle)
    (hcall : s.calls t = some (.teardown .lease))
    (hrelease : s.system.call limits t (.releaseLease handle.canonicalId handle.entry) = some system) :
    CacheSystem.step limits (.call t (.releaseLease handle.canonicalId handle.entry)) s.system = some system := by
  have hidle := h.idle t (by simp [hcall]) (by simp [hcall])
  have hactivity : s.system.activity t = .idle := by
    cases hactivity : s.system.activity t <;> simp_all [Activity.isIdle]
  simp only [CacheSystem.step, hactivity, hrelease]

/-- `release_lease` in the teardown. -/
theorem Sound.leaseFreed [DecidableEq ρ] {system : CacheSystem ρ} (h : s.Sound handle)
    (hcall : s.calls t = some (.teardown .lease))
    (hrelease : s.system.call limits t (.releaseLease handle.canonicalId handle.entry) = some system) :
    (({ s with system } : HandleSystem ρ).free t .lease (some (.teardown .admission))).Sound handle := by
  have hidle := h.idle t (by simp [hcall]) (by simp [hcall])
  have hactivity : s.system.activity t = .idle := by
    cases hactivity : s.system.activity t <;> simp_all [Activity.isIdle]
  have hstep := h.release_step hcall hrelease
  have hadvances := CacheSystem.step_spec h.system hstep
  have hkeeps := Keeps.of_advances h hadvances
  have hordered : (({ s with system } : HandleSystem ρ).free t .lease (some (.teardown .admission))).Ordered handle :=
    (h.toOrdered.of_system system).freed hcall (.inr (.inl ⟨rfl, rfl⟩))
  refine { toOrdered := hordered, system := hadvances.sound, idle := fun u hsome hother => ?_,
           winding := fun u hadmission => ?_, named := hkeeps.named, loaded := hkeeps.loaded,
           held := fun hnot => absurd ?_ hnot, condemned := fun hcondemn => ?_ }
  · by_cases heq : u = t
    · subst heq
      simp [free, goto] at hother
    · simp only [free, goto, Function.update_of_ne heq] at hsome hother
      exact idle_of_step h.system hstep (h.idle u hsome hother) fun call hsame => heq (by cases hsame; rfl)
  · by_cases heq : u = t
    · subst heq
      exact winding_of_release hactivity hrelease
    · simp only [free, goto, Function.update_of_ne heq] at hadmission
      exact winding_of_step h.system hstep (h.winding u hadmission) fun call hsame => heq (by cases hsame; rfl)
  · simp [free, goto]
  · refine (h.condemned hcondemn).imp hkeeps.spent fun ⟨u, hu⟩ => ⟨u, ?_⟩
    have hne : u ≠ t := by
      rintro rfl
      simp [hcall, Marking] at hu
    simpa [free, goto, hne] using hu

/-- A call of the handle goes on. -/
theorem go_sound [DecidableEq ρ] (h : s.Sound handle) (hgo : s.go limits handle t = some s') : s'.Sound handle := by
  unfold HandleSystem.go at hgo
  have hidle : ∀ call, s.calls t = some call → call ≠ .teardown .admission → (s.system.activity t).isIdle = true :=
    fun call hcall hne => h.idle t (by simp [hcall]) (by simpa [hcall] using hne)
  split at hgo
  case h_1 => cases hgo
  case h_2 hcall =>
    have hordered := h.toOrdered.lock hcall hgo (by simp [Unwinding, given]) (by simp [Exiting, Closing])
    unfold HandleSystem.lock at hgo
    split at hgo <;> cases hgo
    exact h.still hordered rfl rfl (fun _ => hidle _ hcall nofun) nofun id .inl (by simp [hcall, Marking])
  case h_3 hcall =>
    cases hgo
    unfold enterGuarded
    split
    · have hordered := h.toOrdered.unlock none hcall trivial (by simp [Guarded])
        (by simp [Unwinding, given]) (by simp [Exiting, Closing])
      exact h.still hordered rfl rfl (by simp) nofun id .inl (by simp [hcall, Marking])
    · rename_i hnot
      simp only [not_or, Bool.not_eq_true, ne_eq, not_not, Option.isSome_eq_false_iff,
        Option.isNone_iff_eq_none] at hnot
      obtain ⟨hreleased, hentered, rfl⟩ := hnot
      exact h.still (h.toOrdered.entered hcall hreleased hentered) rfl rfl (by simp) nofun id .inl
        (by simp [hcall, Marking])
  case h_4 hadException hcall =>
    have hordered := h.toOrdered.lock hcall hgo (by simp [Unwinding, given]) (by simp [Exiting, Closing])
    unfold HandleSystem.lock at hgo
    split at hgo <;> cases hgo
    exact h.still hordered rfl rfl (fun _ => hidle _ hcall nofun) nofun id .inl
      (by rw [hcall]; cases hadException <;> exact id)
  case h_5 hadException hcall =>
    cases hgo
    have hreleased := h.exiting_unreleased t (by rw [hcall]; trivial)
    unfold exitGuarded
    rw [if_neg (by simp [hreleased])]
    have hnext : (if hadException || s.pendingInvalidation then HandleCall.exitMark else .exitUnlock) = .exitMark ∨
        (if hadException || s.pendingInvalidation then HandleCall.exitMark else .exitUnlock) = .exitUnlock := by
      split
      · exact .inl rfl
      · exact .inr rfl
    refine h.still (h.toOrdered.closed hcall hreleased hnext) rfl rfl (fun _ => hidle _ hcall nofun) ?_ id .inl ?_
    · rcases hnext with hnext | hnext <;> rw [hnext] <;> nofun
    · rw [hcall]
      cases hadException with
      | true => exact id
      | false => exact nofun
  case h_6 hcall =>
    cases hgo
    refine h.marked (by simp [hcall]) (by simp [hcall]) nofun ?_
    refine (h.toOrdered.of_system _).move rfl ⟨rfl, rfl, rfl, rfl⟩ (fun u _ hguarded => h.guarded u hguarded)
      (fun _ => h.guarded t (by rw [hcall]; trivial)) ?_ ?_ .inl
    · simp [hcall, Unwinding, given]
    · simp [hcall, Exiting, Closing]
  case h_7 hcall =>
    cases hgo
    have hordered := h.toOrdered.unlock (some (.teardown .executionLock)) hcall trivial (by simp [Guarded])
      (by simp [Unwinding, given]) (by simp [Exiting, Closing])
    exact h.still hordered rfl rfl (fun _ => hidle _ hcall nofun) nofun id .inl (by simp [hcall, Marking])
  case h_8 hcall =>
    cases hgo
    refine h.marked (by simp [hcall]) (by simp [hcall]) nofun ?_
    refine (h.toOrdered.of_system _).move rfl ⟨rfl, rfl, rfl, rfl⟩ (fun u _ hguarded => h.guarded u hguarded)
      (by simp [Guarded]) ?_ ?_ .inl
    · simp [hcall, Unwinding, given]
    · simp [hcall, Exiting, Closing]
  case h_9 hadException hcall =>
    have hordered := h.toOrdered.lock hcall hgo (by simp [Unwinding, given]) (by simp [Exiting, Closing])
    unfold HandleSystem.lock at hgo
    split at hgo <;> cases hgo
    exact h.still hordered rfl rfl (fun _ => hidle _ hcall nofun) nofun id .inl (by simp [hcall, Marking])
  case h_10 hadException hcall =>
    cases hgo
    have hguarded : Guarded (s.calls t) := by rw [hcall]; trivial
    have hmarking : Marking (s.calls t) → False := by simp [hcall, Marking]
    unfold releaseGuarded
    split
    · rename_i hreleased
      refine h.still ?_ rfl rfl (by simp) nofun id .inl (fun hmark => (hmarking hmark).elim)
      refine h.toOrdered.move rfl ⟨rfl, rfl, rfl, rfl⟩ (fun u hne hother => absurd hother (h.alone hguarded hne))
        (by simp [Guarded]) (by simp [hcall, Unwinding, given]) (by simp [hcall, Exiting, Closing]) ?_
      exact fun _ => .inr (.inl (Option.isSome_iff_ne_none.1 hreleased))
    · rename_i hreleased
      have hreleased : s.releasedBy = none := by simpa using hreleased
      by_cases hentered : s.isEntered = true
      · dsimp only
        rw [if_pos hentered]
        refine h.still ?_ rfl rfl (by simp) nofun id .inl (fun hmark => (hmarking hmark).elim)
        exact h.toOrdered.move rfl ⟨rfl, rfl, rfl, rfl⟩ (fun u hne hother => absurd hother (h.alone hguarded hne))
          (by simp [Guarded]) (by simp [hcall, Unwinding, given]) (by simp [hcall, Exiting, Closing])
          fun _ => .inr (.inr hentered)
      · dsimp only
        rw [if_neg hentered]
        have hordered := h.toOrdered.released hcall hreleased (by simpa using hentered) (s.pendingInvalidation || hadException)
        exact h.still hordered rfl rfl (fun _ => hidle _ hcall nofun) nofun id .inl
          (fun hmark => (hmarking hmark).elim)
  case h_11 hcall =>
    cases hgo
    have hordered := h.toOrdered.freed hcall (.inl ⟨rfl, rfl⟩)
    exact h.still hordered rfl rfl (fun _ => hidle _ hcall nofun) nofun (by simp [free, goto]) .inl
      (by simp [hcall, Marking])
  case h_12 hcall =>
    obtain ⟨system, hrelease, rfl⟩ := Option.map_eq_some_iff.1 hgo
    exact h.leaseFreed hcall hrelease
  case h_13 hcall =>
    split at hgo <;> cases hgo
    have hordered := h.toOrdered.freed hcall (.inr (.inr ⟨rfl, rfl⟩))
    exact h.still hordered rfl rfl (by simp) nofun (by simp [free, goto]) .inl (by simp [hcall, Marking])

theorem step_sound [DecidableEq ρ] {event : HandleEvent ρ} (h : s.Sound handle)
    (hstep : step limits handle event s = some s') : s'.Sound handle := by
  cases event with
  | enter t =>
    simp only [step] at hstep
    split at hstep <;> cases hstep
    rename_i hfree
    refine h.still ?_ rfl rfl (fun _ => hfree.2) nofun id .inl (by simp [hfree.1, Marking])
    exact h.toOrdered.move rfl ⟨rfl, rfl, rfl, rfl⟩ (fun u _ hguarded => h.guarded u hguarded) (by simp [Guarded])
      (by simp [hfree.1, Unwinding, given]) (by simp [hfree.1, Exiting, Closing]) .inl
  | exit hadException =>
    simp only [step] at hstep
    split at hstep <;> cases hstep
    rename_i hboth
    obtain ⟨hactive, hfree⟩ := hboth
    refine h.still (h.toOrdered.left_body hactive hadException) rfl rfl (fun _ => hfree.2) nofun id ?_
      (by simp [hfree.1, Marking])
    intro hcondemned
    simp only [condemn, goto, Bool.or_eq_true, Bool.and_eq_true] at hcondemned
    refine hcondemned.imp_right fun hraised => ?_
    rw [hraised.1]
    trivial
  | release t hadException =>
    simp only [step] at hstep
    split at hstep <;> cases hstep
    rename_i hfree
    refine h.still ?_ rfl rfl (fun _ => hfree.2) ?_ id ?_ (by simp [hfree.1, Marking])
    · refine h.toOrdered.move rfl ⟨rfl, rfl, rfl, rfl⟩ (fun u _ hguarded => h.guarded u hguarded) ?_ ?_ ?_ .inl <;>
        cases hadException <;> simp [hfree.1, Guarded, Unwinding, given, Exiting, Closing]
    · cases hadException <;> nofun
    · intro hcondemned
      simp only [condemn, goto, Bool.or_eq_true, Bool.and_eq_true] at hcondemned
      refine hcondemned.imp_right fun hraised => ?_
      rw [hraised.1]
      trivial
  | go t => exact go_sound h hstep
  | cache event =>
    simp only [step] at hstep
    split at hstep
    case isTrue hforeign =>
      obtain ⟨system, hsystem, rfl⟩ := Option.map_eq_some_iff.1 hstep
      exact h.of_system hsystem hforeign
    case isFalse => cases hstep

theorem Reachable.sound [DecidableEq ρ] (h : s.Reachable limits handle) : s.Sound handle := by
  obtain ⟨start, run, hissued, hrun⟩ := h
  exact holds_of_run (fun _ _ _ => step_sound) hissued.sound hrun

end HandleSystem

end CreativeStudio.Models
