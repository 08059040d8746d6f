import CreativeStudio.Assets.Repository
import CreativeStudio.Jobs.Lanes
import CreativeStudio.Jobs.Requeue

/-!
# Workers that poll the lanes

The service puts a job into the lane of its kind, and every configured lane has workers that poll it.
Both read the configuration, and they agree: no job waits where nobody looks, and what waits in a lane
is delivered by the polls of that lane alone.
-/

namespace CreativeStudio.Jobs
open Data Storage Assets

/-- `_lane_worker_slots`: each lane with the number of its workers. -/
def laneWorkerSlots : Option LaneConfig → List (Option String × ℤ)
  | none => [(none, 1)]
  | some lanes =>
    match lanes.concurrency with
    | [only] => [(none, only.2)]
    | concurrency => concurrency.map fun lane => (some lane.1, lane.2)

/-- A worker has a lane that it polls, and an index among the workers of the lane. -/
abbrev Worker := Option String × ℕ

/-- The workers that `start` starts. -/
def workers (config : Option LaneConfig) : List Worker :=
  (laneWorkerSlots config).flatMap fun slot => (List.range slot.2.toNat).map fun index => (slot.1, index)

/-- The configuration, if it has several lanes. -/
def severalLanes (config : Option LaneConfig) : Option LaneConfig := config.filter fun lanes => !lanes.isSingleLane

/-- The lane assignment that `enqueue_job` makes use of: that of a configuration with several lanes. -/
def laneAssignment (quote : String → String) (config : Option LaneConfig) :
    Option (MediaType → Option String → Except Exc String) :=
  (severalLanes config).map fun lanes mediaType taskType => assignLane quote (mediaTypeText mediaType) taskType lanes

/-- The queue that goes with a configuration has its lanes if there are several, and else a single one. -/
def Pairs (config : Option LaneConfig) (names : List String) : Prop :=
  match severalLanes config with
  | some lanes => names = lanes.laneNames
  | none => ∃ only, names = [only]

/-- What happens to the queue. -/
inductive PoolEvent
  /-- `enqueue_job`, with what `get_job` finds. -/
  | enqueueJob (id : JobId) (found : Except Exc (Option ListedJob))
  /-- A worker asks for the next id of its lane, in `run_once`. -/
  | poll (worker : Worker)

namespace PoolEvent
variable (quote : String → String) (config : Option LaneConfig)

/-- The service as it is when `get_job` answers `found`. -/
def service (found : Except Exc (Option ListedJob)) : RequeueHost where
  fresh _ := found
  again _ := found
  assignLane := laneAssignment quote config

/-- What the queue is asked for. -/
def call : PoolEvent → Option LaneQueue.Call
  | poll worker => some (.dequeue worker.1)
  | enqueueJob id (.ok (some job)) =>
    if job.status = .cancelled then none
    else ((service quote config (.ok (some job))).laneFor job).toOption.map fun lane => .enqueue id lane
  | enqueueJob _ _ => none

/-- What the event leaves of the queue. -/
def effect : PoolEvent → LaneQueue → LaneQueue
  | poll worker, queue => (queue.dequeue quote worker.1).2
  | enqueueJob id found, queue => ((service quote config found).enqueueJob quote id queue).2

/-- The kind of a job is that of its id. -/
def Fits (kinds : JobId → MediaType × Option String) : PoolEvent → Prop
  | enqueueJob id (.ok (some job)) => (job.mediaType, job.taskType) = kinds id
  | _ => True

end PoolEvent

section
variable (quote : String → String) (config : Option LaneConfig)

/-- The calls that a sequence of events makes. -/
def poolCalls (events : List PoolEvent) : List LaneQueue.Call := events.filterMap (PoolEvent.call quote config)

/-- The queue after a sequence of events. -/
def runPool (events : List PoolEvent) (queue : LaneQueue) : LaneQueue :=
  events.foldl (fun queue event => event.effect quote config queue) queue

/-- What a lane delivers in a sequence of events. -/
def poolDeliveries (events : List PoolEvent) (queue : LaneQueue) (lane : String) : List JobId :=
  LaneQueue.deliveries quote lane (queue.history quote (poolCalls quote config events))

/-- The call asks a lane of the queue for its next id. -/
def LaneQueue.asks (queue : LaneQueue) (lane : String) : LaneQueue.Call → Bool
  | .dequeue asked => decide ((queue.resolveLane quote asked).toOption = some lane)
  | .enqueue _ _ => false

/-- The number of polls that ask a lane. -/
def polls (queue : LaneQueue) (lane : String) (events : List PoolEvent) : ℕ :=
  (poolCalls quote config events).countP (queue.asks quote lane)

/-- The lane that jobs of a kind are enqueued into. -/
def kindLane (kind : MediaType × Option String) : Except Exc (Option String) :=
  match laneAssignment quote config with
  | none => .ok none
  | some assign => (assign kind.1 kind.2).map some

end

/-! ## The lanes of the queue -/

namespace LaneQueue
variable {quote : String → String} {queue queue' : LaneQueue} {lane : String} {asked : Option String}

/-- Where a call leads depends on the names of the lanes alone. -/
theorem resolveLane_congr (hqueue : queue.Valid) (hqueue' : queue'.Valid) (h : queue'.laneNames = queue.laneNames)
    (asked : Option String) : queue'.resolveLane quote asked = queue.resolveLane quote asked := by
  cases asked with
  | none => simp only [resolveLane, h]
  | some lane => simp only [resolveLane, hqueue.lanes, hqueue'.lanes, h]

theorem laneNames_step (hqueue : queue.Valid) (call : Call) :
    (queue.step quote call).2.laneNames = queue.laneNames := by
  cases call with
  | enqueue id asked =>
    rw [step]
    rcases @enqueue_cases quote queue hqueue id asked with ⟨e, he⟩ | ⟨lane, -, -, ⟨-, he⟩ | ⟨-, he⟩⟩ <;> rw [he]
    rfl
  | dequeue asked =>
    rw [step]
    rcases @dequeue_cases quote queue hqueue asked with ⟨e, he⟩ | ⟨lane, -, -, ⟨-, he⟩ | ⟨id, rest, -, he⟩⟩ <;> rw [he]
    rfl

theorem laneNames_runCalls (hqueue : queue.Valid) (calls : List Call) :
    (queue.runCalls quote calls).laneNames = queue.laneNames := by
  induction calls generalizing queue with
  | nil => rfl
  | cons call rest ih =>
    rw [runCalls, List.foldl_cons]
    have hnext := (@lawful_happen quote queue hqueue call).valid
    exact (@ih (queue.step quote call).2 hnext).trans (laneNames_step hqueue call)

/-- A lane that is asked answers. -/
theorem exists_dequeue (hqueue : queue.Valid) (h : queue.resolveLane quote asked = .ok lane) :
    ∃ reply, (queue.dequeue quote asked).1 = .ok reply := by
  rw [dequeue, h]
  simp only [exists_lookup (mem_of_resolveLane hqueue h)]
  cases queue.deque lane with
  | nil => exact ⟨none, rfl⟩
  | cons id rest => exact ⟨some id, rfl⟩

/-- A lane that is asked delivers its first id, and nothing comes into it. -/
theorem happen_of_asks (hqueue : queue.Valid) {call : Call} (h : queue.asks quote lane call) :
    (queue.happen quote call).delivered quote lane = (queue.deque lane).head? ∧
      (queue.happen quote call).arrived quote lane = none := by
  cases call with
  | enqueue id asked => cases h
  | dequeue asked =>
    have hlane : queue.resolveLane quote asked = .ok lane := ok_of_toOption (of_decide_eq_true h)
    refine ⟨?_, rfl⟩
    have hmem := mem_of_resolveLane hqueue hlane
    simp only [Happened.delivered, happen, step, dequeue, hlane, exists_lookup hmem]
    cases queue.deque lane <;> rfl

/-- A lane that is not asked delivers nothing. -/
theorem delivered_of_not_asks {call : Call} (h : ¬queue.asks quote lane call) :
    (queue.happen quote call).delivered quote lane = none := by
  cases call with
  | enqueue id asked => rfl
  | dequeue asked =>
    have hlane : queue.resolveLane quote asked ≠ .ok lane := by
      intro hlane
      exact h (decide_eq_true (by rw [hlane]; rfl))
    simp [Happened.delivered, happen, hlane]

/-- **What waits in a lane is delivered by asking that lane.** Calls that ask it for `n` ids deliver the first
`n` that wait there, whatever else is called in between. -/
theorem isPrefix_deliveries (hqueue : queue.Valid) {taken : List JobId} (h : taken <+: queue.deque lane)
    (calls : List Call) (hcount : taken.length ≤ calls.countP (queue.asks quote lane)) :
    taken <+: deliveries quote lane (queue.history quote calls) := by
  induction calls generalizing queue taken with
  | nil =>
    rw [List.countP_nil, Nat.le_zero] at hcount
    rw [List.length_eq_zero_iff.mp hcount]
    exact List.nil_prefix
  | cons call rest ih =>
    have hlawful := @lawful_happen quote queue hqueue call
    have hasks : (queue.step quote call).2.asks quote lane = queue.asks quote lane := by
      funext next
      cases next with
      | enqueue id asked => rfl
      | dequeue asked =>
        have hsame := @resolveLane_congr quote queue _ hqueue hlawful.valid (laneNames_step hqueue call) asked
        simp only [asks]
        exact congrArg (fun answer => decide (answer.toOption = some lane)) hsame
    have hstep : queue.deque lane ++ ((queue.happen quote call).arrived quote lane).toList =
        ((queue.happen quote call).delivered quote lane).toList ++ (queue.step quote call).2.deque lane :=
      hlawful.deque lane
    rw [history, deliveries_cons]
    by_cases hcall : queue.asks quote lane call
    · obtain ⟨hdelivered, harrived⟩ := happen_of_asks hqueue hcall
      cases taken with
      | nil => exact List.nil_prefix
      | cons id more =>
        obtain ⟨after, hdeque⟩ := h
        have hhead : (queue.happen quote call).delivered quote lane = some id := by
          rw [hdelivered, ← hdeque]
          rfl
        rw [hhead, harrived, ← hdeque] at hstep
        have hrest : more <+: (queue.step quote call).2.deque lane := ⟨after, by simpa using hstep⟩
        rw [List.countP_cons_of_pos hcall, List.length_cons, Nat.succ_le_succ_iff, ← hasks] at hcount
        rw [hhead]
        exact List.cons_prefix_cons.mpr ⟨rfl, @ih _ hlawful.valid _ hrest hcount⟩
    · have hdelivered := delivered_of_not_asks hcall
      rw [hdelivered] at hstep
      have hkept : taken <+: (queue.step quote call).2.deque lane := h.trans ⟨_, hstep⟩
      rw [List.countP_cons_of_neg hcall, ← hasks] at hcount
      rw [hdelivered]
      exact @ih _ hlawful.valid _ hkept hcount

end LaneQueue

/-! ## Both sides of the configuration -/

section
variable {quote : String → String} {config : Option LaneConfig} {names : List String} {queue : LaneQueue}

/-- A configuration as it is accepted: the lanes are named apart, and each has a worker. -/
structure LaneConfig.Accepted (lanes : LaneConfig) : Prop where
  nodup : lanes.laneNames.Nodup
  counts : ∀ lane ∈ lanes.concurrency, 1 ≤ lane.2

theorem accepted_of_parseJobLanes {lib : LaneLibrary} {environ rawValue : Option String} {lanes : LaneConfig}
    (h : lib.parseJobLanes environ rawValue = .ok lanes) : lanes.Accepted := by
  obtain ⟨-, hread, hnodup⟩ := parseJobLanes_eq_ok_iff.mp h
  refine ⟨hnodup, fun lane hlane => ?_⟩
  obtain ⟨segment, -, hspells⟩ := exists_spells hread hlane
  exact hspells.positive

theorem mem_workers {worker : Worker} :
    worker ∈ workers config ↔ ∃ slot ∈ laneWorkerSlots config, worker.1 = slot.1 ∧ worker.2 < slot.2.toNat := by
  obtain ⟨lane, index⟩ := worker
  simp only [workers, List.mem_flatMap, List.mem_map, List.mem_range, Prod.mk.injEq]
  constructor
  · rintro ⟨slot, hslot, i, hi, rfl, rfl⟩
    exact ⟨slot, hslot, rfl, hi⟩
  · rintro ⟨slot, hslot, rfl, hi⟩
    exact ⟨slot, hslot, index, hi, rfl, rfl⟩

/-- Either the workers ask for the only lane there is, or each lane has a slot of its own. -/
theorem laneWorkerSlots_cases (config : Option LaneConfig) (haccepted : ∀ lanes ∈ config, lanes.Accepted) :
    (severalLanes config = none ∧ ∃ count, 1 ≤ count ∧ laneWorkerSlots config = [(none, count)]) ∨
      ∃ lanes ∈ config, severalLanes config = some lanes ∧
        laneWorkerSlots config = lanes.concurrency.map fun lane => (some lane.1, lane.2) := by
  cases config with
  | none => exact .inl ⟨rfl, 1, le_rfl, rfl⟩
  | some lanes =>
    obtain ⟨concurrency⟩ := lanes
    have hcounts := (haccepted _ rfl).counts
    rcases concurrency with _ | ⟨first, _ | ⟨second, rest⟩⟩
    · exact .inr ⟨_, rfl, rfl, rfl⟩
    · exact .inl ⟨rfl, first.2, hcounts first List.mem_cons_self, rfl⟩
    · refine .inr ⟨_, rfl, ?_, rfl⟩
      simp [severalLanes, LaneConfig.isSingleLane]

/-- Every worker asks for a lane that is there. -/
theorem exists_lane_of_worker (haccepted : ∀ lanes ∈ config, lanes.Accepted) (hqueue : queue.Valid)
    (hpairs : Pairs config queue.laneNames) {worker : Worker} (h : worker ∈ workers config) :
    ∃ lane, queue.resolveLane quote worker.1 = .ok lane := by
  obtain ⟨slot, hslot, hlane, -⟩ := mem_workers.mp h
  rw [Pairs] at hpairs
  rcases laneWorkerSlots_cases config haccepted with ⟨hnone, count, -, hslots⟩ | ⟨lanes, -, hsome, hslots⟩
  · rw [hslots, List.mem_singleton] at hslot
    simp only [hnone] at hpairs
    obtain ⟨only, honly⟩ := hpairs
    refine ⟨only, ?_⟩
    rw [hlane, hslot]
    simp only [LaneQueue.resolveLane, honly]
  · rw [hslots] at hslot
    obtain ⟨lane, hmem, rfl⟩ := List.mem_map.mp hslot
    simp only [hsome] at hpairs
    refine ⟨lane.1, ?_⟩
    have hthere : lane.1 ∈ queue.queues := by
      rw [hqueue.lanes, hpairs]
      exact List.mem_map_of_mem hmem
    rw [hlane]
    simp only [LaneQueue.resolveLane, if_pos hthere]

/-- Every lane has a worker. -/
theorem exists_worker_of_lane (haccepted : ∀ lanes ∈ config, lanes.Accepted) (hqueue : queue.Valid)
    (hpairs : Pairs config queue.laneNames) {lane : String} (h : lane ∈ queue.laneNames) :
    ∃ worker ∈ workers config, queue.resolveLane quote worker.1 = .ok lane := by
  rw [Pairs] at hpairs
  rcases laneWorkerSlots_cases config haccepted with ⟨hnone, count, hcount, hslots⟩ | ⟨lanes, hlanes, hsome, hslots⟩
  · simp only [hnone] at hpairs
    obtain ⟨only, honly⟩ := hpairs
    rw [honly, List.mem_singleton] at h
    refine ⟨(none, 0), mem_workers.mpr ⟨(none, count), ?_, rfl, ?_⟩, ?_⟩
    · rw [hslots]
      exact List.mem_singleton_self _
    · simp only
      omega
    · simp only [LaneQueue.resolveLane, honly, h]
  · simp only [hsome] at hpairs
    rw [hpairs] at h
    obtain ⟨slot, hslot, rfl⟩ := List.mem_map.mp h
    have hcount := (haccepted lanes hlanes).counts slot hslot
    refine ⟨(some slot.1, 0), mem_workers.mpr ⟨(some slot.1, slot.2), ?_, rfl, ?_⟩, ?_⟩
    · rw [hslots]
      exact List.mem_map_of_mem (f := fun lane : String × ℤ => (some lane.1, lane.2)) hslot
    · simp only
      omega
    · have hthere : slot.1 ∈ queue.queues := by
        rw [hqueue.lanes, hpairs]
        exact h
      simp only [LaneQueue.resolveLane, if_pos hthere]

end

/-! ## Runs -/

/-- A job waits in the lane of its kind. -/
def Placed (quote : String → String) (config : Option LaneConfig) (kinds : JobId → MediaType × Option String)
    (queue : LaneQueue) : Prop :=
  ∀ id lane, id ∈ queue.deque lane →
    ∃ asked, kindLane quote config (kinds id) = .ok asked ∧ queue.resolveLane quote asked = .ok lane

/-- What the service and the workers can rely on. -/
structure Served (quote : String → String) (config : Option LaneConfig) (kinds : JobId → MediaType × Option String)
    (queue : LaneQueue) : Prop where
  /-- A worker that asks is answered. -/
  answered : ∀ worker ∈ workers config, ∃ reply, (queue.dequeue quote worker.1).1 = .ok reply
  /-- A job waits in the lane of its kind, and some worker asks for that lane. -/
  watched : ∀ id lane, id ∈ queue.deque lane →
    (∃ asked, kindLane quote config (kinds id) = .ok asked ∧ queue.resolveLane quote asked = .ok lane) ∧
      ∃ worker ∈ workers config, queue.resolveLane quote worker.1 = .ok lane
  /-- A job whose kind has a lane is taken into it. -/
  taken : ∀ id job asked, (job.mediaType, job.taskType) = kinds id → job.status ≠ .cancelled →
    kindLane quote config (kinds id) = .ok asked → ∃ lane, queue.resolveLane quote asked = .ok lane ∧
      ((PoolEvent.service quote config (.ok (some job))).enqueueJob quote id queue).1 = .ok () ∧
        id ∈ (PoolEvent.effect quote config (.enqueueJob id (.ok (some job))) queue).deque lane
  /-- A job with `n` others before it is delivered by `n + 1` polls of its lane, whatever else happens. -/
  delivered : ∀ lane before id after, queue.deque lane = before ++ id :: after → ∀ later,
    before.length < polls quote config queue lane later →
      before ++ [id] <+: poolDeliveries quote config later queue lane

section
variable {quote : String → String} {config : Option LaneConfig} {kinds : JobId → MediaType × Option String}
  {queue : LaneQueue}

theorem laneFor_service {found : Except Exc (Option ListedJob)} (job : ListedJob) :
    (PoolEvent.service quote config found).laneFor job = kindLane quote config (job.mediaType, job.taskType) := rfl

theorem enqueueJob_service {job : ListedJob} {id : JobId} (hstatus : job.status ≠ .cancelled)
    {asked : Option String} (hlane : kindLane quote config (job.mediaType, job.taskType) = .ok asked) :
    (PoolEvent.service quote config (.ok (some job))).enqueueJob quote id queue = queue.enqueue quote id asked := by
  rw [← @laneFor_service _ _ (.ok (some job))] at hlane
  simp only [RequeueHost.enqueueJob]
  rw [show (PoolEvent.service quote config (.ok (some job))).again id = .ok (some job) from rfl]
  simp only [hstatus, if_false, hlane]

/-- An event makes one call, or none. -/
theorem effect_eq (event : PoolEvent) (queue : LaneQueue) :
    event.effect quote config queue = queue.runCalls quote (event.call quote config).toList := by
  cases event with
  | poll worker => rfl
  | enqueueJob id found =>
    rcases found with e | _ | job
    · rfl
    · rfl
    · simp only [PoolEvent.effect, PoolEvent.call, RequeueHost.enqueueJob]
      rw [show (PoolEvent.service quote config (.ok (some job))).again id = .ok (some job) from rfl]
      by_cases hstatus : job.status = .cancelled
      · simp only [hstatus, if_true]
        rfl
      · simp only [hstatus, if_false]
        cases (PoolEvent.service quote config (.ok (some job))).laneFor job <;> rfl

theorem runPool_eq (events : List PoolEvent) (queue : LaneQueue) :
    runPool quote config events queue = queue.runCalls quote (poolCalls quote config events) := by
  induction events generalizing queue with
  | nil => rfl
  | cons event rest ih =>
    rw [runPool, List.foldl_cons, effect_eq, ← runPool, ih]
    simp only [poolCalls, List.filterMap_cons]
    cases PoolEvent.call quote config event <;> rfl

/-- The lane of a kind is one of the queue. -/
theorem exists_resolveLane (hqueue : queue.Valid) (hpairs : Pairs config queue.laneNames)
    {kind : MediaType × Option String} {asked : Option String} (h : kindLane quote config kind = .ok asked) :
    ∃ lane, queue.resolveLane quote asked = .ok lane := by
  rw [Pairs] at hpairs
  rw [kindLane, laneAssignment] at h
  cases hseveral : severalLanes config with
  | none =>
    simp only [hseveral, Option.map_none, Except.ok.injEq] at h hpairs
    obtain ⟨only, honly⟩ := hpairs
    refine ⟨only, ?_⟩
    rw [← h]
    simp only [LaneQueue.resolveLane, honly]
  | some lanes =>
    simp only [hseveral, Option.map_some] at h hpairs
    obtain ⟨lane, hlane, rfl⟩ := ok_of_map h
    have hthere : lane ∈ queue.queues := by
      rw [hqueue.lanes, hpairs]
      exact assignLane_mem hlane
    refine ⟨lane, ?_⟩
    simp only [LaneQueue.resolveLane, if_pos hthere]

/-- A job that waits already waits in the lane of its kind, so that it is not refused. -/
theorem enqueue_placed (hqueue : queue.Valid) (hplaced : Placed quote config kinds queue) {id : JobId}
    {asked : Option String} {lane : String} (hasked : kindLane quote config (kinds id) = .ok asked)
    (hlane : queue.resolveLane quote asked = .ok lane) :
    (id ∈ queue.deque lane ∧ queue.enqueue quote id asked = (.ok (), queue)) ∨
      queue.enqueue quote id asked = (.ok (), queue.pushed id lane) := by
  have hmem := LaneQueue.mem_of_resolveLane hqueue hlane
  cases hexisting : queue.jobLane.lookup id with
  | some existing =>
    have hid := (hqueue.mapped id existing).mp hexisting
    obtain ⟨asked', hasked', hlane'⟩ := hplaced id existing hid
    have hsame : existing = lane := by
      rw [hasked, Except.ok.injEq] at hasked'
      rw [← hasked', hlane, Except.ok.injEq] at hlane'
      exact hlane'.symm
    refine .inl ⟨hsame ▸ hid, ?_⟩
    simp only [LaneQueue.enqueue, hlane, hexisting, hsame, ne_eq, not_true_eq_false, if_false]
  | none =>
    refine .inr ?_
    simp only [LaneQueue.enqueue, hlane, hexisting, LaneQueue.exists_lookup hmem]
    rfl

theorem Placed.effect (hqueue : queue.Valid) (hpairs : Pairs config queue.laneNames)
    (hplaced : Placed quote config kinds queue) {event : PoolEvent} (hfits : event.Fits kinds) :
    Placed quote config kinds (event.effect quote config queue) := by
  have hvalid : (event.effect quote config queue).Valid ∧
      (event.effect quote config queue).laneNames = queue.laneNames := by
    rw [effect_eq]
    exact ⟨(LaneQueue.lawful_history hqueue _).1, LaneQueue.laneNames_runCalls hqueue _⟩
  intro id lane hid
  suffices h : ∃ asked, kindLane quote config (kinds id) = .ok asked ∧ queue.resolveLane quote asked = .ok lane by
    obtain ⟨asked, hasked, hlane⟩ := h
    exact ⟨asked, hasked, (LaneQueue.resolveLane_congr hqueue hvalid.1 hvalid.2 asked).trans hlane⟩
  cases event with
  | poll worker =>
    simp only [PoolEvent.effect] at hid
    rcases @LaneQueue.dequeue_cases quote queue hqueue worker.1 with
      ⟨e, he⟩ | ⟨polled, -, -, ⟨-, he⟩ | ⟨first, rest, hdeque, he⟩⟩
    · rw [he] at hid
      exact hplaced id lane hid
    · rw [he] at hid
      exact hplaced id lane hid
    · rw [he, LaneQueue.deque_popped] at hid
      split at hid
      next hsame =>
        refine hplaced id lane ?_
        rw [hsame, hdeque]
        exact List.mem_cons_of_mem _ hid
      next => exact hplaced id lane hid
  | enqueueJob arriving found =>
    rcases found with e | _ | job
    · exact hplaced id lane hid
    · exact hplaced id lane hid
    · have hkind : (job.mediaType, job.taskType) = kinds arriving := hfits
      by_cases hstatus : job.status = .cancelled
      · simp only [PoolEvent.effect, RequeueHost.enqueueJob] at hid
        rw [show (PoolEvent.service quote config (.ok (some job))).again arriving = .ok (some job) from rfl] at hid
        simp only [hstatus, if_true] at hid
        exact hplaced id lane hid
      · cases hasked : kindLane quote config (kinds arriving) with
        | error e =>
          have hnone : (PoolEvent.enqueueJob arriving (.ok (some job))).call quote config = none := by
            simp only [PoolEvent.call, hstatus, if_false, laneFor_service, hkind, hasked]
            rfl
          rw [effect_eq, hnone] at hid
          exact hplaced id lane hid
        | ok asked =>
          obtain ⟨target, htarget⟩ := exists_resolveLane hqueue hpairs hasked
          rw [PoolEvent.effect, enqueueJob_service hstatus (hkind ▸ hasked)] at hid
          rcases enqueue_placed hqueue hplaced hasked htarget with ⟨-, he⟩ | he
          · rw [he] at hid
            exact hplaced id lane hid
          · rw [he, LaneQueue.deque_pushed] at hid
            split at hid
            next hsame =>
              rcases List.mem_append.mp hid with hid | hid
              · rw [hsame]
                exact hplaced id target hid
              · rw [List.mem_singleton.mp hid, hsame]
                exact ⟨asked, hasked, htarget⟩
            next => exact hplaced id lane hid

theorem served_of_placed (haccepted : ∀ lanes ∈ config, lanes.Accepted) (hqueue : queue.Valid)
    (hpairs : Pairs config queue.laneNames) (hplaced : Placed quote config kinds queue) :
    Served quote config kinds queue := by
  refine ⟨?_, ?_, ?_, ?_⟩
  · intro worker hworker
    obtain ⟨lane, hlane⟩ := @exists_lane_of_worker quote config queue haccepted hqueue hpairs worker hworker
    exact LaneQueue.exists_dequeue hqueue hlane
  · intro id lane hid
    have hname := (hqueue.lanes lane).mp (LaneQueue.mem_queues_of_mem_deque hid)
    exact ⟨hplaced id lane hid, exists_worker_of_lane haccepted hqueue hpairs hname⟩
  · intro id job asked hkind hstatus hasked
    obtain ⟨lane, hlane⟩ := exists_resolveLane hqueue hpairs hasked
    refine ⟨lane, hlane, ?_⟩
    rw [PoolEvent.effect, enqueueJob_service hstatus (hkind ▸ hasked)]
    rcases enqueue_placed hqueue hplaced hasked hlane with ⟨hid, he⟩ | he
    · rw [he]
      exact ⟨rfl, hid⟩
    · rw [he, LaneQueue.deque_pushed, if_pos rfl]
      exact ⟨rfl, List.mem_append_right _ (List.mem_singleton_self id)⟩
  · intro lane before id after hdeque later hpolls
    refine LaneQueue.isPrefix_deliveries hqueue ?_ _ ?_
    · rw [hdeque]
      exact ⟨after, by simp⟩
    · rw [List.length_append, List.length_singleton]
      exact hpolls

/-- **The workers serve every lane.** After any sequence of enqueued jobs and polls, where the kind of a
job is fixed by its id, the service and the workers can rely on the queue. -/
theorem runPool_serves {lib : LaneLibrary}
    (hconfig : ∀ lanes ∈ config, ∃ environ rawValue, lib.parseJobLanes environ rawValue = .ok lanes)
    {lanes : Option (List String)} (hcreate : LaneQueue.create quote lanes = .ok queue)
    (hpairs : Pairs config queue.laneNames) (events : List PoolEvent) (hfits : ∀ event ∈ events, event.Fits kinds) :
    Served quote config kinds (runPool quote config events queue) := by
  have haccepted : ∀ lanes ∈ config, lanes.Accepted := by
    intro lanes hlanes
    obtain ⟨environ, rawValue, hparse⟩ := hconfig lanes hlanes
    exact accepted_of_parseJobLanes hparse
  obtain ⟨hqueue, hempty⟩ := LaneQueue.valid_of_create hcreate
  have hplaced : Placed quote config kinds queue := by
    intro id lane hid
    rw [hempty] at hid
    exact absurd hid List.not_mem_nil
  clear hcreate hempty
  induction events generalizing queue with
  | nil => exact served_of_placed haccepted hqueue hpairs hplaced
  | cons event rest ih =>
    have hnames : (event.effect quote config queue).laneNames = queue.laneNames := by
      rw [effect_eq]
      exact LaneQueue.laneNames_runCalls hqueue _
    have hvalid : (event.effect quote config queue).Valid := by
      rw [effect_eq]
      exact (LaneQueue.lawful_history hqueue _).1
    rw [← hnames] at hpairs
    have hnext : Placed quote config kinds (event.effect quote config queue) :=
      hplaced.effect hqueue (hnames ▸ hpairs) (hfits event List.mem_cons_self)
    exact ih hpairs (fun event hevent => hfits event (List.mem_cons_of_mem _ hevent)) hvalid hnext

/-- A single lane, however it is called and however many workers it has, leaves the queue as no
configuration does. -/
theorem runPool_of_isSingleLane {lanes : LaneConfig} (h : lanes.isSingleLane) (events : List PoolEvent)
    (queue : LaneQueue) : runPool quote (some lanes) events queue = runPool quote none events queue := by
  have hassignment : laneAssignment quote (some lanes) = laneAssignment quote none := by
    simp [laneAssignment, severalLanes, Option.filter, h]
  have heffect : PoolEvent.effect quote (some lanes) = PoolEvent.effect quote none := by
    funext event queue
    cases event with
    | poll worker => rfl
    | enqueueJob id found => simp only [PoolEvent.effect, PoolEvent.service, hassignment]
  rw [runPool, heffect, runPool]

end

/-- Two heavy workers and a light one. -/
def heavyLight : LaneConfig := ⟨[("heavy", 2), ("light", 1)]⟩

/-- The second job is a text. -/
def someKinds (id : JobId) : MediaType × Option String := if id = 2 then (.text, none) else (.image, none)

/-- Two images and a text arrive, and a heavy worker polls. -/
def someEvents : List PoolEvent :=
  [.enqueueJob 1 (.ok (some ⟨1, 10, .queued, .image, none⟩)), .enqueueJob 3 (.ok (some ⟨3, 11, .queued, .image, none⟩)),
    .enqueueJob 2 (.ok (some ⟨2, 12, .queued, .text, none⟩)), .poll (some "heavy", 1)]

/-- The text does not wait for the image that still waits. -/
theorem runPool_heavyLight : ∃ queue, LaneQueue.create id (some ["heavy", "light"]) = .ok queue ∧
    (runPool id (some heavyLight) someEvents queue).deque "heavy" = [3] ∧
    [2] <+: poolDeliveries id (some heavyLight) [.poll (some "light", 0)]
      (runPool id (some heavyLight) someEvents queue) "light" := by
  have hcreate : ∃ queue, LaneQueue.create id (some ["heavy", "light"]) = .ok queue := ⟨_, rfl⟩
  obtain ⟨queue, hqueue⟩ := hcreate
  have hconfig : ∀ lanes ∈ some heavyLight, ∃ environ rawValue,
      plainLaneLibrary.parseJobLanes environ rawValue = .ok lanes := by
    intro lanes hlanes
    obtain rfl := Option.some.inj hlanes
    exact ⟨none, some "heavy:2,light:1", by decide +kernel⟩
  have hfits : ∀ event ∈ someEvents, event.Fits someKinds := by
    intro event hevent
    simp only [someEvents, List.mem_cons, List.not_mem_nil, or_false] at hevent
    rcases hevent with rfl | rfl | rfl | rfl
    · exact (rfl : (MediaType.image, none) = someKinds 1)
    · exact (rfl : (MediaType.image, none) = someKinds 3)
    · exact (rfl : (MediaType.text, none) = someKinds 2)
    · exact trivial
  have hpairs : Pairs (some heavyLight) queue.laneNames := by
    cases hqueue
    exact (rfl : ["heavy", "light"] = heavyLight.laneNames)
  have hserved := runPool_serves hconfig hqueue hpairs someEvents hfits
  refine ⟨queue, hqueue, ?_, ?_⟩
  · cases hqueue
    decide +kernel
  · refine hserved.delivered "light" [] 2 [] ?_ _ ?_
    · cases hqueue
      decide +kernel
    · cases hqueue
      decide +kernel

end CreativeStudio.Jobs
