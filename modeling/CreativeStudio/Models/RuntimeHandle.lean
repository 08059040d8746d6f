import CreativeStudio.Models.CacheSystem

/-!
# A runtime handle and the threads that use it

`RuntimeHandle` gives back the execution lock, the lease and the admission slot that it was
made with. Any number of threads call its methods. A step is one access to the guard or to
what it protects, one section of the metadata lock, or one release, so that other threads,
which go on using the cache as well, come between any two of them.
-/

namespace CreativeStudio.Models
open Data Conc

/-- What a handle gives back. -/
inductive Resource
  | executionLock | lease | admission
  deriving DecidableEq, Repr

/-- The order of `_teardown`. -/
def teardownOrder : List Resource := [.executionLock, .lease, .admission]

/-- `RuntimeHandle`, the fields that never change. -/
structure RuntimeHandle where
  canonicalId : CanonicalId
  entry : EntryRef
  ownerThread : Tid

/-- Where a thread is in a call of the handle. -/
inductive HandleCall
  | enter (guarded : Bool)
  /-- `__exit__`; `hadException` is `exc_type is not None`. -/
  | exit (hadException guarded : Bool)
  /-- `__exit__` has the guard and goes on to `mark_invalid`. -/
  | exitMark
  /-- `__exit__` is about to give the guard back. -/
  | exitUnlock
  /-- `release(had_exception=True)` has begun and goes on to `mark_invalid`. -/
  | releaseMark
  | release (hadException guarded : Bool)
  /-- `_teardown`, with the resource that comes next. -/
  | teardown (next : Resource)
  deriving DecidableEq, Repr

/-- The cache and everybody who uses it, the handle, and the threads that call it.
`releasedBy` is `_released` with the thread that has set it, if it is set. `active` says that `__enter__` has returned and `__exit__` has not been called; `answered` that some
`release` has returned from the guard; `condemned` that the body has raised or a
`release(had_exception=True)` has begun while the execution lock was held. -/
structure HandleSystem (ρ : Type) where
  system : CacheSystem ρ
  releasedBy : Option Tid := none
  isEntered : Bool := false
  pendingRelease : Bool := false
  pendingInvalidation : Bool := false
  guard : Option Tid := none
  calls : Tid → Option HandleCall := fun _ => none
  freed : List Resource := []
  active : Bool := false
  answered : Bool := false
  condemned : Bool := false

/-- What may happen. -/
inductive HandleEvent (ρ : Type)
  | enter (t : Tid)
  /-- The body ends and the owner calls `__exit__`. -/
  | exit (hadException : Bool)
  | release (t : Tid) (hadException : Bool)
  /-- The thread goes on with its call of the handle. -/
  | go (t : Tid)
  /-- The cache is used for something else. -/
  | cache (event : Event ρ)
  deriving Repr

namespace HandleSystem
variable {ρ : Type} (limits : Limits) (handle : RuntimeHandle)

/-- A thread is at another point of its call. -/
def goto (s : HandleSystem ρ) (t : Tid) (call : Option HandleCall) : HandleSystem ρ :=
  { s with calls := Function.update s.calls t call }

/-- A thread can call something. -/
def IsFree (s : HandleSystem ρ) (t : Tid) : Prop := s.calls t = none ∧ (s.system.activity t).isIdle

instance (s : HandleSystem ρ) (t : Tid) : Decidable (s.IsFree t) := inferInstanceAs (Decidable (_ ∧ _))

/-- `with self._release_guard`: wait for the guard. -/
def lock (s : HandleSystem ρ) (t : Tid) (call : HandleCall) : Option (HandleSystem ρ) :=
  match s.guard with
  | none => some ({ s with guard := some t }.goto t call)
  | some _ => none

/-- Leave the guard. -/
def unlock (s : HandleSystem ρ) (t : Tid) (call : Option HandleCall) : HandleSystem ρ :=
  { s with guard := none }.goto t call

/-- `self._cache.mark_invalid(self._canonical_id, self._entry)`. -/
def markInvalid (s : HandleSystem ρ) : HandleSystem ρ :=
  { s with system := { s.system with cache := s.system.cache.markInvalid handle.canonicalId handle.entry } }

/-- The body has raised, or a call that says so has begun. -/
def condemn (s : HandleSystem ρ) (hadException : Bool) : HandleSystem ρ :=
  { s with condemned := s.condemned || (hadException && Resource.executionLock ∉ s.freed) }

/-- The guarded part of `__enter__`. -/
def enterGuarded (s : HandleSystem ρ) (t : Tid) : HandleSystem ρ :=
  if s.releasedBy.isSome ∨ s.isEntered ∨ t ≠ handle.ownerThread then s.unlock t none
  else { s with isEntered := true, active := true }.unlock t none

/-- The guarded part of `__exit__`, up to the invalidation. -/
def exitGuarded (s : HandleSystem ρ) (t : Tid) (hadException : Bool) : HandleSystem ρ :=
  if s.releasedBy.isSome then s.unlock t none
  else { s with releasedBy := some t }.goto t
    (some (if hadException || s.pendingInvalidation then .exitMark else .exitUnlock))

/-- The guarded part of `release`. -/
def releaseGuarded (s : HandleSystem ρ) (t : Tid) (hadException : Bool) : HandleSystem ρ :=
  if s.releasedBy.isSome then { s with answered := true }.unlock t none
  else
    let s := { s with pendingInvalidation := s.pendingInvalidation || hadException }
    if s.isEntered then { s with pendingRelease := true, answered := true }.unlock t none
    else { s with releasedBy := some t, answered := true }.unlock t (some (.teardown .executionLock))

/-- A resource is given back. -/
def free (s : HandleSystem ρ) (t : Tid) (resource : Resource) (next : Option HandleCall) : HandleSystem ρ :=
  { s with freed := s.freed ++ [resource] }.goto t next

/-- A thread goes on with its call. -/
def go [DecidableEq ρ] (t : Tid) (s : HandleSystem ρ) : Option (HandleSystem ρ) :=
  match s.calls t with
  | none => none
  | some (.enter false) => s.lock t (.enter true)
  | some (.enter true) => some (s.enterGuarded handle t)
  | some (.exit hadException false) => s.lock t (.exit hadException true)
  | some (.exit hadException true) => some (s.exitGuarded t hadException)
  | some .exitMark => some ((s.markInvalid handle).goto t (some .exitUnlock))
  | some .exitUnlock => some (s.unlock t (some (.teardown .executionLock)))
  | some .releaseMark => some ((s.markInvalid handle).goto t (some (.release true false)))
  | some (.release hadException false) => s.lock t (.release hadException true)
  | some (.release hadException true) => some (s.releaseGuarded t hadException)
  | some (.teardown .executionLock) => some (s.free t .executionLock (some (.teardown .lease)))
  | some (.teardown .lease) =>
    (s.system.call limits t (.releaseLease handle.canonicalId handle.entry)).map fun system =>
      { s with system }.free t .lease (some (.teardown .admission))
  | some (.teardown .admission) =>
    -- `release_lease` comes back when its clean-ups are over, whatever they raise.
    if (s.system.activity t).isIdle then some (s.free t .admission none) else none

/-- The lease of the handle is not somebody else's to release. -/
def Foreign (s : HandleSystem ρ) (event : Event ρ) : Prop :=
  match event with
  | .call t call => s.calls t = none ∧
      (call = .releaseLease handle.canonicalId handle.entry → Resource.lease ∉ s.freed →
        2 ≤ (s.system.cache.heap handle.entry).leaseCount)
  | _ => True

instance [DecidableEq ρ] (s : HandleSystem ρ) (event : Event ρ) : Decidable (s.Foreign handle event) := by
  cases event <;> unfold Foreign <;> infer_instance

/-- One step. -/
def step [DecidableEq ρ] : HandleEvent ρ → HandleSystem ρ → Option (HandleSystem ρ)
  | .enter t, s => if s.IsFree t then some (s.goto t (some (.enter false))) else none
  | .exit hadException, s =>
    if s.active ∧ s.IsFree handle.ownerThread then
      some (({ s with active := false }.condemn hadException).goto handle.ownerThread
        (some (.exit hadException false)))
    else none
  | .release t hadException, s =>
    if s.IsFree t then
      some ((s.condemn hadException).goto t (some (if hadException then .releaseMark else .release false false)))
    else none
  | .go t, s => s.go limits handle t
  | .cache event, s =>
    if s.Foreign handle event then (s.system.step limits event).map fun system => { s with system } else none

/-- A handle has just been made, for an entry that its owner has leased. -/
def Issued [DecidableEq ρ] (s : HandleSystem ρ) : Prop :=
  ∃ system, s = { system } ∧ system.Reachable limits ∧ system.cache.Held handle.canonicalId handle.entry

/-- A state that some run from a new handle comes to. -/
def Reachable [DecidableEq ρ] (s : HandleSystem ρ) : Prop :=
  ∃ start run, Issued limits handle start ∧ runSteps (step limits handle) run start = some s

end HandleSystem

end CreativeStudio.Models
