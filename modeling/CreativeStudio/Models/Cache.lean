import CreativeStudio.Data.Dict
import Mathlib.Logic.Function.Basic

/-!
# The runtime cache

The critical sections of the metadata lock, one function each: what the section answers and
the cache it leaves. Entries are objects that callers keep references to, so they live on a
heap, and the cache is an ordered dictionary of references with the least recently used
first. Cleaning up a runtime and everything else that may take long happens between
sections.
-/

namespace CreativeStudio.Models
open Data

/-- `manifest.id`. -/
abbrev CanonicalId := String

/-- The identity of an entry object. -/
abbrev EntryRef := ℕ

/-- `RuntimeState`. -/
inductive RuntimeState
  | loading | ready | invalid | retiring
  deriving DecidableEq, Repr

def RuntimeState.value : RuntimeState → String
  | .loading => "loading"
  | .ready => "ready"
  | .invalid => "invalid"
  | .retiring => "retiring"

/-- `_EVICTABLE_STATES`. -/
def evictableStates : List RuntimeState := [.ready, .invalid]

/-- `_BUSY_FOR_UNLOAD_STATES`. -/
def busyForUnloadStates : List RuntimeState := [.loading, .retiring]

/-- `RuntimeEntry`; `ρ` is the type of runtime objects. -/
structure RuntimeEntry (ρ : Type) where
  canonicalId : CanonicalId
  mediaBucket : String
  state : RuntimeState
  runtime : Option ρ := none
  leaseCount : ℕ := 0
  generation : ℕ
  deriving DecidableEq, Repr

section Entry
variable {ρ : Type}

/-- `is_pinned`. -/
def RuntimeEntry.IsPinned (entry : RuntimeEntry ρ) : Prop := 0 < entry.leaseCount

instance (entry : RuntimeEntry ρ) : Decidable entry.IsPinned := inferInstanceAs (Decidable (0 < _))

/-- An eviction may pick the entry. -/
def RuntimeEntry.IsEvictable (entry : RuntimeEntry ρ) : Prop :=
  ¬ entry.IsPinned ∧ entry.state ∈ evictableStates

instance (entry : RuntimeEntry ρ) : Decidable entry.IsEvictable := inferInstanceAs (Decidable (_ ∧ _))

/-- Leased, loading or retiring: nothing may replace or unload the entry. -/
def RuntimeEntry.IsBusy (entry : RuntimeEntry ρ) : Prop :=
  entry.IsPinned ∨ entry.state ∈ busyForUnloadStates

instance (entry : RuntimeEntry ρ) : Decidable entry.IsBusy := inferInstanceAs (Decidable (_ ∨ _))

theorem RuntimeEntry.isEvictable_iff_not_isBusy {entry : RuntimeEntry ρ} : entry.IsEvictable ↔ ¬ entry.IsBusy := by
  unfold IsEvictable IsBusy evictableStates busyForUnloadStates
  cases entry.state <;> simp

end Entry

/-- The busy conditions, with the texts they are raised with. -/
inductive BusyError
  /-- `RuntimeBusyError`. -/
  | busy (message : String)
  /-- `_RuntimeInvalidEntryDrainingError`. -/
  | draining (message : String) (entry : EntryRef)
  deriving DecidableEq, Repr

/-- `max_entries` and `media_limits`. -/
structure Limits where
  maxEntries : ℕ
  mediaLimits : Dict ℕ
  maxEntries_pos : 1 ≤ maxEntries
  mediaLimits_pos : ∀ entry ∈ mediaLimits, 1 ≤ entry.2

/-- `_DEFAULT_BUCKET`. -/
def defaultBucket : String := "__default__"

/-- The bucket that a media type is charged to. -/
def Limits.bucketOf (limits : Limits) (mediaType : Option String) : String :=
  match mediaType with
  | some media => if (limits.mediaLimits.get? media).isSome then media else defaultBucket
  | none => defaultBucket

/-- The budget of a bucket. -/
def Limits.budget (limits : Limits) (bucket : String) : ℕ :=
  (limits.mediaLimits.get? bucket).getD limits.maxEntries

/-- `repr` of an id. -/
def quoted (id : String) : String := "'" ++ id ++ "'"

/-- `ModelRuntimeCache`: the dictionary, the entry objects, how many have been made, and the
highest generation of every id. -/
structure ModelRuntimeCache (ρ : Type) where
  entries : Dict EntryRef
  heap : EntryRef → RuntimeEntry ρ
  made : ℕ
  lastGeneration : Dict ℕ

namespace ModelRuntimeCache
variable {ρ : Type} (limits : Limits)

/-- `self._entries.get(id)`. -/
def current? (c : ModelRuntimeCache ρ) (id : CanonicalId) : Option EntryRef := c.entries.get? id

/-- Change an entry object. -/
def modify (c : ModelRuntimeCache ρ) (ref : EntryRef) (f : RuntimeEntry ρ → RuntimeEntry ρ) : ModelRuntimeCache ρ :=
  { c with heap := Function.update c.heap ref (f (c.heap ref)) }

/-- `self._entries.move_to_end(id)`. -/
def moveToEnd (c : ModelRuntimeCache ρ) (id : CanonicalId) : ModelRuntimeCache ρ :=
  match c.current? id with
  | some ref => { c with entries := c.entries.erase id ++ [(id, ref)] }
  | none => c

/-- `del self._entries[id]`. -/
def remove (c : ModelRuntimeCache ρ) (id : CanonicalId) : ModelRuntimeCache ρ :=
  { c with entries := c.entries.erase id }

/-- `_next_generation_locked`. -/
def nextGeneration (c : ModelRuntimeCache ρ) (id : CanonicalId) : ℕ :=
  match c.lastGeneration.get? id with
  | some generation => generation + 1
  | none => 0

/-- Make an entry and put it into the dictionary. -/
def install (c : ModelRuntimeCache ρ) (id : CanonicalId) (bucket : String) (state : RuntimeState)
    (runtime : Option ρ) : EntryRef × ModelRuntimeCache ρ :=
  (c.made, { c with
    entries := c.entries.set id c.made
    heap := Function.update c.heap c.made {
      canonicalId := id
      mediaBucket := bucket
      state
      runtime
      generation := c.nextGeneration id }
    made := c.made + 1
    lastGeneration := c.lastGeneration.set id (c.nextGeneration id) })

/-- The entry is marked as being retired. -/
def retire (c : ModelRuntimeCache ρ) (ref : EntryRef) : ModelRuntimeCache ρ :=
  c.modify ref fun entry => { entry with state := .retiring }

/-- The members of a bucket, the least recently used first. -/
def bucketEntries (c : ModelRuntimeCache ρ) (bucket : String) : List (CanonicalId × EntryRef) :=
  c.entries.filter fun entry => (c.heap entry.2).mediaBucket = bucket

/-- How many members of a bucket are being retired. -/
def retiringCount (c : ModelRuntimeCache ρ) (bucket : String) : ℕ :=
  (c.bucketEntries bucket).countP fun entry => (c.heap entry.2).state = .retiring

/-! ## Choosing victims -/

/-- `_select_capacity_victim_locked`: nothing when there is room, a victim, or the reason why
there is none. -/
def selectCapacityVictim (c : ModelRuntimeCache ρ) (bucket : String) (budgetFor : CanonicalId) :
    Except BusyError (Option (CanonicalId × EntryRef)) :=
  let members := c.bucketEntries bucket
  let retiring := c.retiringCount bucket
  let leased := members.countP fun entry => (c.heap entry.2).IsPinned
  let shortage := s!"No capacity available for {quoted budgetFor} in bucket {quoted bucket} " ++
    s!"(budget={limits.budget bucket}): "
  if members.length < limits.budget bucket then .ok none
  else if members.length - retiring < limits.budget bucket then
    .error (.busy (s!"Capacity for {quoted budgetFor} in bucket {quoted bucket} is already being freed by " ++
      s!"{retiring} in-flight retirement(s); retry shortly rather than evicting an unrelated entry."))
  else match members.find? fun entry => (c.heap entry.2).IsEvictable with
    | none => .error (.busy (shortage ++ s!"{leased} leased, {members.length - leased} mid-transition (loading/retiring)."))
    | some victim =>
      if limits.budget bucket ≤ members.length - retiring - 1 then
        .error (.busy (shortage ++ s!"evicting one candidate would still leave {leased} leased, " ++
          s!"{members.length - leased} mid-transition (loading/retiring) -- retry once more capacity frees."))
      else .ok (some victim)

/-- The loop of `_evict_bucket_overflow_locked`: the victims it marks. Every turn marks one
more entry, so as many turns as there are entries are enough. -/
def evictTurns (bucket : String) (excludeId : Option CanonicalId) :
    ℕ → ModelRuntimeCache ρ → List (CanonicalId × EntryRef) × ModelRuntimeCache ρ
  | 0, c => ([], c)
  | turns + 1, c =>
    if (c.bucketEntries bucket).length - c.retiringCount bucket ≤ limits.budget bucket then ([], c)
    else match (c.bucketEntries bucket).find? fun entry =>
        some entry.1 ≠ excludeId ∧ (c.heap entry.2).IsEvictable with
      | none => ([], c)
      | some victim =>
        let (victims, c) := evictTurns bucket excludeId turns (c.retire victim.2)
        (victim :: victims, c)

/-- `_evict_bucket_overflow_locked`. -/
def evictBucketOverflow (c : ModelRuntimeCache ρ) (bucket : String) (excludeId : Option CanonicalId) :
    List (CanonicalId × EntryRef) × ModelRuntimeCache ρ :=
  evictTurns limits bucket excludeId c.entries.length c

/-! ## The sections -/

/-- `get`. -/
def get (c : ModelRuntimeCache ρ) (id : CanonicalId) : Option ρ × ModelRuntimeCache ρ :=
  match c.current? id with
  | none => (none, c)
  | some ref => if (c.heap ref).state = .ready then ((c.heap ref).runtime, c.moveToEnd id) else (none, c)

/-- The message of an operation that finds an entry busy. -/
def busyMessage (c : ModelRuntimeCache ρ) (verb : String) (id : CanonicalId) (ref : EntryRef) : BusyError :=
  .busy (s!"Cannot {verb} {quoted id}: state={(c.heap ref).state.value}, " ++
    s!"lease_count={(c.heap ref).leaseCount}.")

/-- What `put` still has to clean up: the runtime that it has replaced, with the entry it was
in, and the entries that it has marked. -/
structure PutCleanup (ρ : Type) where
  replaced : Option (CanonicalId × EntryRef × ρ)
  overflow : List (CanonicalId × EntryRef)
  deriving Repr

/-- The end of the section of `put`. -/
def settlePut (c : ModelRuntimeCache ρ) (id : CanonicalId) (bucket : String)
    (replaced : Option (CanonicalId × EntryRef × ρ)) :
    Except BusyError (PutCleanup ρ) × ModelRuntimeCache ρ :=
  let (overflow, c) := c.evictBucketOverflow limits bucket (some id)
  (.ok { replaced, overflow }, c)

/-- The section of `put`. -/
def put [DecidableEq ρ] (c : ModelRuntimeCache ρ) (id : CanonicalId) (runtime : ρ) (mediaType : Option String) :
    Except BusyError (PutCleanup ρ) × ModelRuntimeCache ρ :=
  let bucket := limits.bucketOf mediaType
  match c.current? id with
  | none => (c.install id bucket .ready (some runtime)).2.settlePut limits id bucket none
  | some ref =>
    if (c.heap ref).IsBusy then (.error (c.busyMessage "replace" id ref), c)
    else if (c.heap ref).runtime = some runtime then
      if (c.heap ref).state = .invalid then
        (.error (.busy (s!"Cannot reinsert {quoted id}: the existing entry is invalid; load a fresh runtime " ++
          "instead of reusing the same object.")), c)
      else
        ((c.modify ref fun entry => { entry with mediaBucket := bucket }).moveToEnd id).settlePut limits id bucket none
    else
      ((c.remove id).install id bucket .ready (some runtime)).2.settlePut limits id bucket
        ((c.heap ref).runtime.map (id, ref, ·))

/-- The section of `unload`. -/
def unload (c : ModelRuntimeCache ρ) (id : CanonicalId) :
    Except BusyError (Option EntryRef) × ModelRuntimeCache ρ :=
  match c.current? id with
  | none => (.ok none, c)
  | some ref =>
    if (c.heap ref).IsBusy then (.error (c.busyMessage "unload" id ref), c)
    else (.ok (some ref), c.retire ref)

/-- The section of `unload_all`. -/
def unloadAll (c : ModelRuntimeCache ρ) :
    Except BusyError (List (CanonicalId × EntryRef)) × ModelRuntimeCache ρ :=
  let busy := c.entries.filter fun entry => (c.heap entry.2).IsBusy
  if busy.isEmpty then (.ok c.entries, c.entries.foldl (fun c entry => c.retire entry.2) c)
  else (.error (.busy (s!"Cannot unload all: {busy.length} runtime(s) are currently leased or mid-transition (" ++
    ", ".intercalate (busy.map Prod.fst) ++ ").")), c)

/-- What the first section of `acquire_or_reserve` comes to. -/
inductive Claim
  | pinned (ref : EntryRef)
  | reserved (ref : EntryRef)
  /-- An entry that has to be retired first. -/
  | victim (id : CanonicalId) (ref : EntryRef)
  deriving DecidableEq, Repr

/-- Take a slot for a load. -/
def reserve (c : ModelRuntimeCache ρ) (id : CanonicalId) (bucket : String) : EntryRef × ModelRuntimeCache ρ :=
  c.install id bucket .loading none

/-- The first section of `acquire_or_reserve`. -/
def acquireOrReserve (c : ModelRuntimeCache ρ) (id : CanonicalId) (mediaType : Option String) :
    Except BusyError Claim × ModelRuntimeCache ρ :=
  let bucket := limits.bucketOf mediaType
  match c.current? id with
  | some ref => match (c.heap ref).state with
    | .ready => (.ok (.pinned ref),
        (c.modify ref fun entry => { entry with leaseCount := entry.leaseCount + 1 }).moveToEnd id)
    | .loading => (.error (.busy (s!"{quoted id} is currently loading; " ++
        "try again shortly rather than waiting indefinitely.")), c)
    | .retiring => (.error (.busy (s!"{quoted id} is currently retiring; " ++
        "try again shortly rather than waiting indefinitely.")), c)
    | .invalid =>
      if (c.heap ref).IsPinned then
        (.error (.draining (s!"{quoted id} is invalid and still in use by {(c.heap ref).leaseCount} " ++
          "active lease(s); retry once those release.") ref), c)
      else (.ok (.victim id ref), c.retire ref)
  | none => match c.selectCapacityVictim limits bucket id with
    | .error e => (.error e, c)
    | .ok none =>
      let (ref, c) := c.reserve id bucket
      (.ok (.reserved ref), c)
    | .ok (some (victimId, victim)) => (.ok (.victim victimId victim), c.retire victim)

/-- The second section of `acquire_or_reserve`, when its victim has been removed. -/
def acquireRecheck (c : ModelRuntimeCache ρ) (id : CanonicalId) (mediaType : Option String) :
    Except BusyError EntryRef × ModelRuntimeCache ρ :=
  let bucket := limits.bucketOf mediaType
  if (c.current? id).isSome then
    (.error (.busy (s!"{quoted id} was concurrently republished while a previous occupant was being " ++
      "retired; retry.")), c)
  else match c.selectCapacityVictim limits bucket id with
    | .error e => (.error e, c)
    | .ok (some _) =>
      (.error (.busy (s!"Capacity for {quoted id} in bucket {quoted bucket} was claimed by another " ++
        "reservation while a previous occupant was being retired; retry.")), c)
    | .ok none =>
      let (ref, c) := c.reserve id bucket
      (.ok ref, c)

/-- `publish_ready_and_pin`. -/
def publishReadyAndPin (c : ModelRuntimeCache ρ) (id : CanonicalId) (reserved : EntryRef) (runtime : ρ) :
    Except BusyError Unit × ModelRuntimeCache ρ :=
  if c.current? id = some reserved then
    (.ok (), (c.modify reserved fun entry =>
      { entry with runtime := some runtime, state := .ready, leaseCount := 1 }).moveToEnd id)
  else
    (.error (.busy (s!"Lost the LOADING reservation for {quoted id} before the load completed; " ++
      "refusing to publish into a slot this call no longer owns.")), c)

/-- `abort_reservation`. -/
def abortReservation (c : ModelRuntimeCache ρ) (id : CanonicalId) (reserved : EntryRef) : ModelRuntimeCache ρ :=
  if c.current? id = some reserved then c.remove id else c

/-- The section of `release_lease`: the entries that it has marked. -/
def releaseLease (c : ModelRuntimeCache ρ) (id : CanonicalId) (ref : EntryRef) :
    List (CanonicalId × EntryRef) × ModelRuntimeCache ρ :=
  if c.current? id = some ref then
    let c := c.modify ref fun entry => { entry with leaseCount := entry.leaseCount - 1 }
    if (c.heap ref).leaseCount = 0 then c.evictBucketOverflow limits (c.heap ref).mediaBucket none else ([], c)
  else ([], c)

/-- `mark_invalid`. -/
def markInvalid (c : ModelRuntimeCache ρ) (id : CanonicalId) (ref : EntryRef) : ModelRuntimeCache ρ :=
  if c.current? id = some ref ∧ (c.heap ref).state = .ready then
    c.modify ref fun entry => { entry with state := .invalid }
  else c

/-- `is_current_and_ready`. -/
def isCurrentAndReady (c : ModelRuntimeCache ρ) (id : CanonicalId) (ref : EntryRef) : Bool :=
  c.current? id = some ref && (c.heap ref).state = .ready

/-- The section at the end of `_finish_retirement`. -/
def finishRetirement (c : ModelRuntimeCache ρ) (id : CanonicalId) (ref : EntryRef) : ModelRuntimeCache ρ :=
  if c.current? id = some ref then c.remove id else c

/-- `_still_blocks` of `wait_for_stale_entry_drain`. -/
def StillBlocks (c : ModelRuntimeCache ρ) (id : CanonicalId) (ref : EntryRef) : Prop :=
  c.current? id = some ref ∧ ((c.heap ref).IsPinned ∨ (c.heap ref).state = .retiring)

instance (c : ModelRuntimeCache ρ) (id : CanonicalId) (ref : EntryRef) : Decidable (c.StillBlocks id ref) :=
  inferInstanceAs (Decidable (_ ∧ _))

/-- An empty cache. -/
def empty (ρ : Type) : ModelRuntimeCache ρ where
  entries := []
  heap _ := { canonicalId := "", mediaBucket := defaultBucket, state := .loading, generation := 0 }
  made := 0
  lastGeneration := []

end ModelRuntimeCache

end CreativeStudio.Models
