import CreativeStudio.Conc.Prog
import CreativeStudio.Conc.Runs
import CreativeStudio.Models.CacheSections

/-!
# Threads that use the runtime cache

Any number of threads call the operations of the cache. A step is one section of the metadata
lock or one call of the clean-up hook between two sections, so everything may happen between
the sections of one operation. A thread in `wait_for_stale_entry_drain` is parked until a
section notifies, or until its own timer wakes it.
-/

namespace CreativeStudio.Models
open Data Conc

/-- What an operation has left to do outside the metadata lock. -/
inductive Chore (ρ : Type)
  /-- `_run_cleanup` of a runtime that `put` has replaced. -/
  | cleanup (id : CanonicalId) (ref : EntryRef) (runtime : ρ)
  /-- `_finish_retirement`. -/
  | retirement (id : CanonicalId) (ref : EntryRef)
  /-- The `finally` of `_finish_retirement`. -/
  | removal (id : CanonicalId) (ref : EntryRef)
  deriving DecidableEq, Repr

/-- What a thread is doing between two steps. -/
inductive Activity (ρ : Type)
  | idle
  /-- The chores of an operation; whether one of them has raised; and the reservation that
  `acquire_or_reserve` goes on to if none has. -/
  | cleaning (chores : List (Chore ρ)) (raised : Bool) (resume : Option (CanonicalId × Option String))
  /-- `wait_for_stale_entry_drain`. -/
  | draining (id : CanonicalId) (ref : EntryRef) (asleep : Bool)
  deriving DecidableEq, Repr

section Activity
variable {ρ : Type}

/-- The chores of a thread. -/
def Activity.chores : Activity ρ → List (Chore ρ)
  | .cleaning chores _ _ => chores
  | _ => []

/-- What follows a chore. An operation is over when nothing is left to do. -/
def Activity.after (chores : List (Chore ρ)) (raised : Bool) (resume : Option (CanonicalId × Option String)) :
    Activity ρ :=
  if chores.isEmpty && (raised || resume.isNone) then .idle else .cleaning chores raised resume

/-- What a thread is doing when it has been woken. -/
def Activity.awake : Activity ρ → Activity ρ
  | .draining id ref _ => .draining id ref false
  | activity => activity

/-- The thread is in no operation of the cache. -/
def Activity.isIdle : Activity ρ → Bool
  | .idle => true
  | _ => false

@[simp] theorem Activity.chores_idle : (Activity.idle : Activity ρ).chores = [] := rfl

@[simp] theorem Activity.chores_after (chores : List (Chore ρ)) (raised : Bool)
    (resume : Option (CanonicalId × Option String)) : (Activity.after chores raised resume).chores = chores := by
  cases chores <;> cases raised <;> cases resume <;> rfl

end Activity

/-- The calls of the cache's operations. -/
inductive Call (ρ : Type)
  | get (id : CanonicalId)
  | put (id : CanonicalId) (runtime : ρ) (mediaType : Option String)
  | unload (id : CanonicalId)
  | unloadAll
  | acquireOrReserve (id : CanonicalId) (mediaType : Option String)
  | publishReadyAndPin (id : CanonicalId) (reserved : EntryRef) (runtime : ρ)
  | abortReservation (id : CanonicalId) (reserved : EntryRef)
  | releaseLease (id : CanonicalId) (ref : EntryRef)
  | markInvalid (id : CanonicalId) (ref : EntryRef)
  /-- `expired` says whether the deadline is over. -/
  | waitForStaleEntryDrain (id : CanonicalId) (ref : EntryRef) (expired : Bool)
  deriving DecidableEq, Repr

/-- What may happen. -/
inductive Event (ρ : Type)
  | call (t : Tid) (call : Call ρ)
  /-- The thread goes on with its chores; the clean-up hook may raise what `_run_cleanup` lets
  through. -/
  | proceed (t : Tid) (raises : Bool)
  /-- A waiting thread that is awake looks again. -/
  | recheck (t : Tid) (expired : Bool)
  /-- `Condition.wait` returns on its own. -/
  | wakeUp (t : Tid)
  deriving Repr

/-- The cache and the threads that use it, with what has happened so far: the runtimes that
the clean-up hook was called on and the entries they were in, the notifications, and the
answers of `wait_for_stale_entry_drain`. A reservation that has been given out is used once. -/
structure CacheSystem (ρ : Type) where
  cache : ModelRuntimeCache ρ
  activity : Tid → Activity ρ
  reservations : List (CanonicalId × EntryRef)
  evicted : List (EntryRef × ρ)
  notified : ℕ
  drained : List (Tid × Bool)

namespace CacheSystem
variable {ρ : Type} (limits : Limits)

/-- A thread turns to something else. -/
def occupy (s : CacheSystem ρ) (t : Tid) (activity : Activity ρ) : CacheSystem ρ :=
  { s with activity := Function.update s.activity t activity }

/-- An operation goes on to its chores, the retirement of `victims` last. -/
def clean (s : CacheSystem ρ) (t : Tid) (first : List (Chore ρ)) (victims : List (CanonicalId × EntryRef))
    (resume : Option (CanonicalId × Option String)) : CacheSystem ρ :=
  s.occupy t (.after (first ++ victims.map fun victim => .retirement victim.1 victim.2) false resume)

/-- The clean-up of what `put` has replaced. -/
def replacement (cleanup : ModelRuntimeCache.PutCleanup ρ) : List (Chore ρ) :=
  match cleanup.replaced with
  | some (id, ref, runtime) => [.cleanup id ref runtime]
  | none => []

/-- `notify_all`. -/
def notifyAll (s : CacheSystem ρ) : CacheSystem ρ :=
  { s with activity := fun t => (s.activity t).awake, notified := s.notified + 1 }

/-- A turn of the loop of `wait_for_stale_entry_drain`. -/
def look (s : CacheSystem ρ) (t : Tid) (id : CanonicalId) (ref : EntryRef) (expired : Bool) : CacheSystem ρ :=
  if s.cache.StillBlocks id ref then
    if expired then { s.occupy t .idle with drained := s.drained ++ [(t, false)] }
    else s.occupy t (.draining id ref true)
  else { s.occupy t .idle with drained := s.drained ++ [(t, true)] }

/-- The first section of an operation. -/
def call [DecidableEq ρ] (t : Tid) (s : CacheSystem ρ) : Call ρ → Option (CacheSystem ρ)
  | .get id => some { s with cache := (s.cache.get id).2 }
  | .put id runtime mediaType => match s.cache.put limits id runtime mediaType with
    | (.ok cleanup, cache) => some ({ s with cache }.clean t (replacement cleanup) cleanup.overflow none)
    | (.error _, cache) => some { s with cache }
  | .unload id => match s.cache.unload id with
    | (.ok (some ref), cache) => some ({ s with cache }.clean t [] [(id, ref)] none)
    | (_, cache) => some { s with cache }
  | .unloadAll => match s.cache.unloadAll with
    | (.ok targets, cache) => some ({ s with cache }.clean t [] targets none)
    | (.error _, cache) => some { s with cache }
  | .acquireOrReserve id mediaType => match s.cache.acquireOrReserve limits id mediaType with
    | (.ok (.pinned _), cache) => some { s with cache }
    | (.ok (.reserved ref), cache) => some { s with cache, reservations := (id, ref) :: s.reservations }
    | (.ok (.victim victimId victim), cache) =>
      some ({ s with cache }.clean t [] [(victimId, victim)] (some (id, mediaType)))
    | (.error _, cache) => some { s with cache }
  | .publishReadyAndPin id reserved runtime =>
    if (id, reserved) ∈ s.reservations then
      some { s with
        cache := (s.cache.publishReadyAndPin id reserved runtime).2
        reservations := s.reservations.erase (id, reserved) }
    else none
  | .abortReservation id reserved =>
    if (id, reserved) ∈ s.reservations then
      some { s with
        cache := s.cache.abortReservation id reserved
        reservations := s.reservations.erase (id, reserved) }
    else none
  | .releaseLease id ref =>
    let (victims, cache) := s.cache.releaseLease limits id ref
    if s.cache.current? id = some ref then some ({ s with cache }.notifyAll.clean t [] victims none)
    else some { s with cache }
  | .markInvalid id ref => some { s with cache := s.cache.markInvalid id ref }
  | .waitForStaleEntryDrain id ref expired => some (s.look t id ref expired)

/-- A thread does its next chore. -/
def proceed (t : Tid) (raises : Bool) (s : CacheSystem ρ) : Option (CacheSystem ρ) :=
  match s.activity t with
  | .cleaning (.cleanup _ ref runtime :: chores) raised resume =>
    some { s.occupy t (.after chores (raised || raises) resume) with evicted := s.evicted ++ [(ref, runtime)] }
  | .cleaning (.retirement id ref :: chores) raised resume => match (s.cache.heap ref).runtime with
    | some runtime => some { s.occupy t (.cleaning (.removal id ref :: chores) (raised || raises) resume) with
        evicted := s.evicted ++ [(ref, runtime)] }
    | none => some (s.occupy t (.cleaning (.removal id ref :: chores) raised resume))
  | .cleaning (.removal id ref :: chores) raised resume =>
    some ({ s with cache := s.cache.finishRetirement id ref }.notifyAll.occupy t (.after chores raised resume))
  | .cleaning [] _ (some (id, mediaType)) => match s.cache.acquireRecheck limits id mediaType with
    | (.ok ref, cache) => some ({ s with cache, reservations := (id, ref) :: s.reservations }.occupy t .idle)
    | (.error _, cache) => some ({ s with cache }.occupy t .idle)
  | _ => none

/-- One step. -/
def step [DecidableEq ρ] : Event ρ → CacheSystem ρ → Option (CacheSystem ρ)
  | .call t call, s => match s.activity t with
    | .idle => s.call limits t call
    | _ => none
  | .proceed t raises, s => s.proceed limits t raises
  | .recheck t expired, s => match s.activity t with
    | .draining id ref false => some (s.look t id ref expired)
    | _ => none
  | .wakeUp t, s => match s.activity t with
    | .draining id ref true => some (s.occupy t (.draining id ref false))
    | _ => none

/-- A cache that nobody has used yet. -/
def start (ρ : Type) : CacheSystem ρ where
  cache := .empty ρ
  activity _ := .idle
  reservations := []
  evicted := []
  notified := 0
  drained := []

/-- A state that some run from the start comes to. -/
def Reachable [DecidableEq ρ] (s : CacheSystem ρ) : Prop := ∃ run, runSteps (step limits) run (start ρ) = some s

end CacheSystem

end CreativeStudio.Models
