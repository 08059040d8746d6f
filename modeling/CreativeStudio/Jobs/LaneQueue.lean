import CreativeStudio.Storage.World

/-!
# The job queue as it is stored

A deque for each lane, and beside them the lane of each pending id. Every call goes through both, so
they have to be kept in step. A lane delivers what was enqueued into it, each id once, in the order in
which the ids came.
-/

namespace CreativeStudio.Jobs
open Data Storage

/-- The fields of a `JobQueue`. -/
structure LaneQueue where
  /-- `_lane_names`. -/
  laneNames : List String
  /-- `_queues`. -/
  queues : AList fun _ : String => List JobId
  /-- `_job_lane`. -/
  jobLane : AList fun _ : JobId => String

namespace LaneQueue
variable (quote : String → String)

/-- The text of a tuple of strings. -/
def tupleText (names : List String) : String :=
  "(" ++ ", ".intercalate (names.map quote) ++ if names.length = 1 then ",)" else ")"

/-- The lanes that a queue gets. -/
def chosenLanes (lanes : Option (List String)) : List String :=
  (lanes.filter fun names => names ≠ []).getD ["default"]

/-- `JobQueue(lanes)`. -/
def create (lanes : Option (List String)) : Except Exc LaneQueue :=
  let names := chosenLanes lanes
  if names = [] then .error (.value "JobQueue requires at least one lane.")
  else if ¬ names.Nodup then
    .error (.value s!"JobQueue lane names must be unique; got {tupleText quote names}.")
  else .ok {
    laneNames := names
    queues := names.foldl (fun queues name => queues.insert name []) ∅
    jobLane := ∅ }

/-- `_resolve_lane`. -/
def resolveLane (queue : LaneQueue) : Option String → Except Exc String
  | none => match queue.laneNames with
    | [lane] => .ok lane
    | names => .error (.value ("lane must be specified for a multi-lane JobQueue; " ++
        s!"configured lanes are {tupleText quote names}."))
  | some lane =>
    if lane ∈ queue.queues then .ok lane
    else .error (.value s!"Unknown lane {quote lane}; configured lanes are {tupleText quote queue.laneNames}.")

/-- `self._queues[target]` of a lane that is not there. -/
def missingLane (target : String) : Exc := .other target

/-- `enqueue`, and the queue that it leaves behind. -/
def enqueue (id : JobId) (lane : Option String) (queue : LaneQueue) : Except Exc Unit × LaneQueue :=
  match queue.resolveLane quote lane with
  | .error e => (.error e, queue)
  | .ok target =>
    match queue.jobLane.lookup id with
    | some existing =>
      if existing ≠ target then
        (.error (.value (s!"Job {id} is already queued in lane {quote existing}; " ++
          s!"refusing to also enqueue it into lane {quote target}.")), queue)
      else (.ok (), queue)
    | none =>
      -- the id has its lane before the deque is looked up
      let queue := { queue with jobLane := queue.jobLane.insert id target }
      match queue.queues.lookup target with
      | none => (.error (missingLane target), queue)
      | some pending => (.ok (), { queue with queues := queue.queues.insert target (pending ++ [id]) })

/-- `dequeue`, and the queue that it leaves behind. -/
def dequeue (lane : Option String) (queue : LaneQueue) : Except Exc (Option JobId) × LaneQueue :=
  match queue.resolveLane quote lane with
  | .error e => (.error e, queue)
  | .ok target =>
    match queue.queues.lookup target with
    | none => (.error (missingLane target), queue)
    | some [] => (.ok none, queue)
    | some (id :: rest) => (.ok (some id), { queue with
        queues := queue.queues.insert target rest
        jobLane := queue.jobLane.erase id })

/-- The ids that wait in a lane. -/
def deque (queue : LaneQueue) (lane : String) : List JobId := (queue.queues.lookup lane).getD []

/-- The ids that wait in any lane. -/
def pending (queue : LaneQueue) : List JobId := queue.laneNames.flatMap queue.deque

/-! ## Calls, one after the other -/

/-- A call that holds the lock. -/
inductive Call
  | enqueue (id : JobId) (lane : Option String)
  | dequeue (lane : Option String)
  deriving DecidableEq, Repr

/-- What a call answers, and the queue after it. -/
def step : Call → LaneQueue → Except Exc (Option JobId) × LaneQueue
  | .enqueue id lane, queue => ((queue.enqueue quote id lane).1.map fun _ => none, (queue.enqueue quote id lane).2)
  | .dequeue lane, queue => queue.dequeue quote lane

/-- A call as it happened. -/
structure Happened where
  before : LaneQueue
  call : Call
  reply : Except Exc (Option JobId)
  after : LaneQueue

/-- A call on a queue. -/
def happen (call : Call) (queue : LaneQueue) : Happened where
  before := queue
  call := call
  reply := (queue.step quote call).1
  after := (queue.step quote call).2

/-- A sequence of calls as it happened. -/
def history : List Call → LaneQueue → List Happened
  | [], _ => []
  | call :: rest, queue => queue.happen quote call :: history rest (queue.step quote call).2

/-- The queue after a sequence of calls. -/
def runCalls (calls : List Call) (queue : LaneQueue) : LaneQueue :=
  calls.foldl (fun queue call => (queue.step quote call).2) queue

/-- The id that a call has brought into a lane, which an id that waits already has not been. -/
def Happened.arrived (entry : Happened) (lane : String) : Option JobId :=
  match entry.call with
  | .dequeue _ => none
  | .enqueue id target =>
    if entry.reply = .ok none ∧ id ∉ entry.before.pending ∧ entry.before.resolveLane quote target = .ok lane
    then some id else none

/-- The id that a call has delivered from a lane. -/
def Happened.delivered (entry : Happened) (lane : String) : Option JobId :=
  match entry.call with
  | .enqueue _ _ => none
  | .dequeue target =>
    if entry.before.resolveLane quote target = .ok lane then entry.reply.toOption.join else none

/-- The ids that came into a lane, in their order. -/
def arrivals (lane : String) (entries : List Happened) : List JobId :=
  entries.filterMap fun entry => entry.arrived quote lane

/-- The ids that a lane delivered, in their order. -/
def deliveries (lane : String) (entries : List Happened) : List JobId :=
  entries.filterMap fun entry => entry.delivered quote lane

/-! ## The two structures are kept in step -/

/-- What holds between the deques and the lanes of the ids. -/
structure Valid (queue : LaneQueue) : Prop where
  names : queue.laneNames.Nodup
  lanes : ∀ lane, lane ∈ queue.queues ↔ lane ∈ queue.laneNames
  nodup : ∀ lane, (queue.deque lane).Nodup
  mapped : ∀ id lane, queue.jobLane.lookup id = some lane ↔ id ∈ queue.deque lane

section
variable {quote} {queue queue' : LaneQueue} {id : JobId} {lane : String}

theorem mem_pending : id ∈ queue.pending ↔ ∃ lane ∈ queue.laneNames, id ∈ queue.deque lane := List.mem_flatMap

theorem mem_queues_of_mem_deque (h : id ∈ queue.deque lane) : lane ∈ queue.queues := by
  unfold deque at h
  cases hlookup : queue.queues.lookup lane with
  | none =>
    rw [hlookup] at h
    cases h
  | some ids => exact AList.lookup_isSome.mp (by rw [hlookup]; rfl)

theorem exists_lookup (h : lane ∈ queue.queues) : queue.queues.lookup lane = some (queue.deque lane) := by
  obtain ⟨ids, hids⟩ := Option.isSome_iff_exists.mp (AList.lookup_isSome.mpr h)
  rw [deque, hids]
  rfl

/-- A lane that a call resolves is there. -/
theorem mem_of_resolveLane (hqueue : queue.Valid) {asked : Option String}
    (h : queue.resolveLane quote asked = .ok lane) : lane ∈ queue.queues := by
  cases asked with
  | none =>
    simp only [resolveLane] at h
    split at h
    next name hnames =>
      obtain rfl := Except.ok.inj h
      rw [hqueue.lanes, hnames]
      exact List.mem_singleton_self name
    next => cases h
  | some name =>
    simp only [resolveLane] at h
    split at h
    next hmem =>
      obtain rfl := Except.ok.inj h
      exact hmem
    next => cases h

/-- **No id waits twice.** -/
theorem Valid.nodup_pending (h : queue.Valid) : queue.pending.Nodup := by
  refine List.nodup_flatMap.mpr ⟨fun lane _ => h.nodup lane, ?_⟩
  refine h.names.imp fun {lane lane'} hne id hid hid' => hne ?_
  have hlane := (h.mapped id lane).mpr hid
  rw [(h.mapped id lane').mpr hid'] at hlane
  exact (Option.some.inj hlane).symm

theorem Valid.mem_pending_iff (h : queue.Valid) : id ∈ queue.pending ↔ (queue.jobLane.lookup id).isSome := by
  rw [mem_pending, Option.isSome_iff_exists]
  constructor
  · rintro ⟨lane, -, hid⟩
    exact ⟨lane, (h.mapped id lane).mpr hid⟩
  · rintro ⟨lane, hlane⟩
    have hid := (h.mapped id lane).mp hlane
    exact ⟨lane, (h.lanes lane).mp (mem_queues_of_mem_deque hid), hid⟩

/-! ### The empty queue -/

theorem lookup_emptyLanes (names : List String) (queues : AList fun _ : String => List JobId) (lane : String) :
    (names.foldl (fun queues name => queues.insert name []) queues).lookup lane =
      if lane ∈ names then some [] else queues.lookup lane := by
  induction names generalizing queues with
  | nil => simp
  | cons name rest ih =>
    rw [List.foldl_cons, ih]
    by_cases hrest : lane ∈ rest
    · simp [hrest]
    · by_cases hname : lane = name
      · subst hname
        simp [hrest]
      · simp [hrest, hname, AList.lookup_insert_ne hname]

/-- A new queue is valid, and empty. -/
theorem valid_of_create {lanes : Option (List String)} (h : create quote lanes = .ok queue) :
    queue.Valid ∧ ∀ lane, queue.deque lane = [] := by
  unfold create at h
  simp only at h
  split at h
  · cases h
  split at h
  · cases h
  next hnames =>
    cases h
    have hlookup := lookup_emptyLanes (chosenLanes lanes) ∅
    have hdeque (lane : String) : deque ⟨chosenLanes lanes, (chosenLanes lanes).foldl
        (fun queues name => queues.insert name []) ∅, ∅⟩ lane = [] := by
      rw [deque, hlookup]
      split <;> simp
    refine ⟨⟨not_not.mp hnames, fun lane => ?_, fun lane => ?_, fun id lane => ?_⟩, hdeque⟩
    · rw [← AList.lookup_isSome, hlookup]
      split <;> simp_all
    · rw [hdeque]
      exact List.nodup_nil
    · rw [hdeque]
      simp

/-! ### A call -/

/-- An id comes into a lane. -/
def pushed (queue : LaneQueue) (id : JobId) (lane : String) : LaneQueue :=
  { queue with
    queues := queue.queues.insert lane (queue.deque lane ++ [id])
    jobLane := queue.jobLane.insert id lane }

/-- The first id of a lane leaves it. -/
def popped (queue : LaneQueue) (id : JobId) (lane : String) (rest : List JobId) : LaneQueue :=
  { queue with
    queues := queue.queues.insert lane rest
    jobLane := queue.jobLane.erase id }

theorem deque_pushed (queue : LaneQueue) (id : JobId) (lane lane' : String) :
    (queue.pushed id lane).deque lane' = if lane' = lane then queue.deque lane ++ [id] else queue.deque lane' := by
  unfold pushed deque
  split
  next h =>
    subst h
    rw [AList.lookup_insert]
    rfl
  next h => rw [AList.lookup_insert_ne h]

theorem deque_popped (queue : LaneQueue) (id : JobId) (lane lane' : String) (rest : List JobId) :
    (queue.popped id lane rest).deque lane' = if lane' = lane then rest else queue.deque lane' := by
  unfold popped deque
  split
  next h =>
    subst h
    rw [AList.lookup_insert]
    rfl
  next h => rw [AList.lookup_insert_ne h]

/-- What `enqueue` can do: it raises, finds the id in the lane, or appends it. -/
theorem enqueue_cases (hqueue : queue.Valid) (id : JobId) (asked : Option String) :
    (∃ e, queue.enqueue quote id asked = (.error e, queue)) ∨
      ∃ lane, queue.resolveLane quote asked = .ok lane ∧ lane ∈ queue.queues ∧
        ((id ∈ queue.deque lane ∧ queue.enqueue quote id asked = (.ok (), queue)) ∨
          (id ∉ queue.pending ∧ queue.enqueue quote id asked = (.ok (), queue.pushed id lane))) := by
  unfold enqueue
  cases hlane : queue.resolveLane quote asked with
  | error e => exact .inl ⟨e, rfl⟩
  | ok lane =>
    have hmem := mem_of_resolveLane hqueue hlane
    simp only
    cases hexisting : queue.jobLane.lookup id with
    | some existing =>
      simp only
      split
      next => exact .inl ⟨_, rfl⟩
      next hsame =>
        obtain rfl := not_not.mp hsame
        exact .inr ⟨existing, rfl, hmem, .inl ⟨(hqueue.mapped id existing).mp hexisting, rfl⟩⟩
    | none =>
      refine .inr ⟨lane, rfl, hmem, .inr ⟨?_, ?_⟩⟩
      · rw [hqueue.mem_pending_iff, hexisting]
        exact Bool.false_ne_true
      · simp only [exists_lookup hmem]
        rfl

/-- What `dequeue` can do: it raises, finds the lane empty, or takes its first id. -/
theorem dequeue_cases (hqueue : queue.Valid) (asked : Option String) :
    (∃ e, queue.dequeue quote asked = (.error e, queue)) ∨
      ∃ lane, queue.resolveLane quote asked = .ok lane ∧ lane ∈ queue.queues ∧
        ((queue.deque lane = [] ∧ queue.dequeue quote asked = (.ok none, queue)) ∨
          ∃ id rest, queue.deque lane = id :: rest ∧
            queue.dequeue quote asked = (.ok (some id), queue.popped id lane rest)) := by
  unfold dequeue
  cases hlane : queue.resolveLane quote asked with
  | error e => exact .inl ⟨e, rfl⟩
  | ok lane =>
    have hmem := mem_of_resolveLane hqueue hlane
    refine .inr ⟨lane, rfl, hmem, ?_⟩
    simp only [exists_lookup hmem]
    cases hdeque : queue.deque lane with
    | nil => exact .inl ⟨rfl, rfl⟩
    | cons id rest => exact .inr ⟨id, rest, rfl, rfl⟩

theorem Valid.pushed (h : queue.Valid) (hlane : lane ∈ queue.queues) (hnew : id ∉ queue.pending) :
    (queue.pushed id lane).Valid := by
  have hnowhere (lane' : String) : id ∉ queue.deque lane' := fun hid =>
    hnew (mem_pending.mpr ⟨lane', (h.lanes lane').mp (mem_queues_of_mem_deque hid), hid⟩)
  refine ⟨h.names, fun lane' => ?_, fun lane' => ?_, fun id' lane' => ?_⟩
  · change lane' ∈ queue.queues.insert lane _ ↔ lane' ∈ queue.laneNames
    rw [AList.mem_insert, ← h.lanes]
    constructor
    · rintro (rfl | hmem)
      · exact hlane
      · exact hmem
    · exact .inr
  · rw [deque_pushed]
    split
    · exact List.nodup_append.mpr ⟨h.nodup lane, List.nodup_singleton id, fun a ha b hb => by
        rw [List.mem_singleton.mp hb]
        exact fun hab => hnowhere lane (hab ▸ ha)⟩
    · exact h.nodup lane'
  · change (queue.jobLane.insert id lane).lookup id' = some lane' ↔ _
    rw [deque_pushed]
    by_cases hid : id' = id
    · subst hid
      rw [AList.lookup_insert]
      split
      next hsame => simp [hsame]
      next hother =>
        simp only [Option.some.injEq, hnowhere lane', iff_false]
        exact fun heq => hother heq.symm
    · rw [AList.lookup_insert_ne hid, h.mapped]
      split
      next hsame => simp [hsame, hid]
      next => rfl

theorem Valid.popped (h : queue.Valid) {rest : List JobId} (hlane : lane ∈ queue.queues)
    (hdeque : queue.deque lane = id :: rest) : (queue.popped id lane rest).Valid := by
  have hnodup := h.nodup lane
  rw [hdeque, List.nodup_cons] at hnodup
  have hmapped : queue.jobLane.lookup id = some lane := by
    rw [h.mapped, hdeque]
    exact List.mem_cons_self
  refine ⟨h.names, fun lane' => ?_, fun lane' => ?_, fun id' lane' => ?_⟩
  · change lane' ∈ queue.queues.insert lane _ ↔ lane' ∈ queue.laneNames
    rw [AList.mem_insert, ← h.lanes]
    constructor
    · rintro (rfl | hmem)
      · exact hlane
      · exact hmem
    · exact .inr
  · rw [deque_popped]
    split
    · exact hnodup.2
    · exact h.nodup lane'
  · change (queue.jobLane.erase id).lookup id' = some lane' ↔ _
    rw [deque_popped]
    by_cases hid : id' = id
    · subst hid
      rw [AList.lookup_erase]
      split
      next => simp [hnodup.1]
      next hother =>
        rw [← h.mapped, hmapped, Option.some.injEq]
        simp [Ne.symm hother]
    · rw [AList.lookup_erase_ne hid, h.mapped]
      split
      next hsame => simp [hsame, hdeque, hid]
      next => rfl

/-- What one call does: it leaves the queue valid, and unchanged when it raises, and every lane holds
what it held and what has come, without what has left. -/
structure Happened.Lawful (quote : String → String) (entry : Happened) : Prop where
  valid : entry.after.Valid
  kept : ∀ id lane reply, entry.call = .enqueue id lane → entry.reply = .ok reply → id ∈ entry.after.pending
  raised : ∀ e, entry.reply = .error e → entry.after = entry.before
  deque : ∀ lane, entry.before.deque lane ++ (entry.arrived quote lane).toList =
    (entry.delivered quote lane).toList ++ entry.after.deque lane

theorem lawful_happen (hqueue : queue.Valid) (call : Call) : (queue.happen quote call).Lawful quote := by
  cases call with
  | enqueue id asked =>
    rcases @enqueue_cases quote queue hqueue id asked with ⟨e, he⟩ | ⟨lane, hlane, hmem, ⟨hid, he⟩ | ⟨hid, he⟩⟩
    · refine ⟨?_, ?_, ?_, ?_⟩ <;> simp [happen, step, he, hqueue, Happened.arrived, Happened.delivered, Except.map]
    · have hpending : id ∈ queue.pending := mem_pending.mpr ⟨lane, (hqueue.lanes lane).mp hmem, hid⟩
      refine ⟨?_, ?_, ?_, ?_⟩ <;>
        simp [happen, step, he, hqueue, Happened.arrived, Happened.delivered, Except.map, hpending]
    · have hvalid := hqueue.pushed hmem hid
      refine ⟨?_, ?_, ?_, fun lane' => ?_⟩
      · simpa only [happen, step, he] using hvalid
      · simp only [happen, step, he, Call.enqueue.injEq]
        rintro id' lane' reply ⟨rfl, rfl⟩ -
        rw [hvalid.mem_pending_iff, LaneQueue.pushed, AList.lookup_insert]
        rfl
      · simp [happen, step, he, Except.map]
      · simp only [happen, step, he, Happened.arrived, Happened.delivered, Except.map, hid, hlane, deque_pushed,
          not_false_eq_true, true_and, Except.ok.injEq]
        by_cases hsame : lane' = lane
        · simp [hsame]
        · simp [hsame, Ne.symm hsame]
  | dequeue asked =>
    rcases @dequeue_cases quote queue hqueue asked with ⟨e, he⟩ | ⟨lane, hlane, hmem, ⟨hempty, he⟩ | ⟨id, rest, hid, he⟩⟩
    · refine ⟨?_, ?_, ?_, ?_⟩ <;>
        simp [happen, step, he, hqueue, Happened.arrived, Happened.delivered, Except.toOption]
    · refine ⟨?_, ?_, ?_, ?_⟩ <;>
        simp [happen, step, he, hqueue, Happened.arrived, Happened.delivered, Except.toOption]
    · refine ⟨?_, ?_, ?_, fun lane' => ?_⟩
      · simpa only [happen, step, he] using hqueue.popped hmem hid
      · simp [happen]
      · simp [happen, step, he]
      · simp only [happen, step, he, Happened.arrived, Happened.delivered, hlane, deque_popped, Except.ok.injEq,
          Except.toOption]
        by_cases hsame : lane' = lane
        · simp [hsame, hid]
        · simp [hsame, Ne.symm hsame]

/-! ## A sequence of calls -/

theorem arrivals_cons (entry : Happened) (entries : List Happened) :
    arrivals quote lane (entry :: entries) = (entry.arrived quote lane).toList ++ arrivals quote lane entries := by
  rw [arrivals, List.filterMap_cons]
  cases entry.arrived quote lane <;> rfl

theorem deliveries_cons (entry : Happened) (entries : List Happened) :
    deliveries quote lane (entry :: entries) =
      (entry.delivered quote lane).toList ++ deliveries quote lane entries := by
  rw [deliveries, List.filterMap_cons]
  cases entry.delivered quote lane <;> rfl

/-- What a sequence of calls does to a valid queue. -/
theorem lawful_history (hqueue : queue.Valid) (calls : List Call) :
    (queue.runCalls quote calls).Valid ∧ (∀ entry ∈ queue.history quote calls, entry.Lawful quote) ∧
      ∀ lane, queue.deque lane ++ arrivals quote lane (queue.history quote calls) =
        deliveries quote lane (queue.history quote calls) ++ (queue.runCalls quote calls).deque lane := by
  induction calls generalizing queue with
  | nil =>
    refine ⟨hqueue, fun entry hentry => absurd hentry List.not_mem_nil, fun lane => ?_⟩
    exact List.append_nil _
  | cons call rest ih =>
    have hfirst := @lawful_happen quote queue hqueue call
    obtain ⟨hvalid, hall, hdeque⟩ := @ih (queue.step quote call).2 hfirst.valid
    refine ⟨hvalid, List.forall_mem_cons.mpr ⟨hfirst, hall⟩, fun lane => ?_⟩
    have hone := hfirst.deque lane
    have hrest := hdeque lane
    rw [history, arrivals_cons, deliveries_cons, ← List.append_assoc]
    rw [show queue.deque lane ++ _ = _ from hone, List.append_assoc, List.append_assoc]
    exact congrArg _ hrest

end

/-- An id that comes twice, one that is refused, and two deliveries. -/
def someCalls : List Call :=
  [.enqueue 1 (some "heavy"), .enqueue 2 (some "light"), .enqueue 1 (some "heavy"), .enqueue 1 (some "light"),
    .enqueue 3 (some "heavy"), .dequeue (some "heavy"), .dequeue none, .dequeue (some "heavy")]

/-- The list has the lanes of the queue, and in each of them the ids that wait there. -/
structure Represents (queue : LaneQueue) (list : JobQueue) : Prop where
  lanes : queue.laneNames = list.lanes
  deque : ∀ lane, queue.deque lane = (list.pending.filter fun entry => entry.2 == lane).map Prod.fst

section
variable {quote} {queue : LaneQueue} {list : JobQueue}

theorem Represents.mem_iff (h : queue.Represents list) {id : JobId} {lane : String} :
    (id, lane) ∈ list.pending ↔ id ∈ queue.deque lane := by
  rw [h.deque]
  simp

theorem Represents.resolveLane (hqueue : queue.Valid) (h : queue.Represents list) (asked : Option String) :
    (queue.resolveLane quote asked).toOption = (list.resolveLane asked).toOption := by
  cases asked with
  | none =>
    simp only [LaneQueue.resolveLane, JobQueue.resolveLane, h.lanes]
    rcases list.lanes with _ | ⟨first, _ | ⟨second, rest⟩⟩ <;> rfl
  | some lane =>
    simp only [LaneQueue.resolveLane, JobQueue.resolveLane, hqueue.lanes, h.lanes]
    split <;> rfl

theorem Represents.lookup (hqueue : queue.Valid) (h : queue.Represents list) (id : JobId) :
    list.pending.lookup id = queue.jobLane.lookup id := by
  cases hlookup : list.pending.lookup id with
  | some lane =>
    have hmem : (id, lane) ∈ list.pending := by
      obtain ⟨before, after, hsplit, -⟩ := List.lookup_eq_some_iff.mp hlookup
      rw [hsplit]
      simp
    rw [eq_comm, hqueue.mapped, ← h.mem_iff]
    exact hmem
  | none =>
    cases hlane : queue.jobLane.lookup id with
    | none => rfl
    | some lane =>
      rw [hqueue.mapped, ← h.mem_iff] at hlane
      have hne := List.lookup_eq_none_iff.mp hlookup _ hlane
      simp at hne

/-- Both raise, or both return. -/
theorem Represents.enqueue (hqueue : queue.Valid) (h : queue.Represents list) (id : JobId) (asked : Option String) :
    ((∃ e, (queue.enqueue quote id asked).1 = .error e) ∧ ∃ e, list.enqueue id asked = .error e) ∨
      ((queue.enqueue quote id asked).1 = .ok () ∧
        ∃ list', list.enqueue id asked = .ok list' ∧ (queue.enqueue quote id asked).2.Represents list') := by
  have hresolve := @Represents.resolveLane quote queue list hqueue h asked
  have hlookup := h.lookup hqueue id
  unfold LaneQueue.enqueue JobQueue.enqueue
  cases hlane : queue.resolveLane quote asked with
  | error e =>
    rw [hlane] at hresolve
    cases hlane' : list.resolveLane asked with
    | error e' => exact .inl ⟨⟨e, rfl⟩, e', rfl⟩
    | ok lane =>
      rw [hlane'] at hresolve
      cases hresolve
  | ok lane =>
    rw [hlane] at hresolve
    have hmem := mem_of_resolveLane hqueue hlane
    have hlane' : list.resolveLane asked = .ok lane := ok_of_toOption hresolve.symm
    simp only [hlane', hlookup, bind, Except.bind]
    cases hexisting : queue.jobLane.lookup id with
    | some existing =>
      by_cases hsame : existing = lane
      · refine .inr ?_
        simp only [hsame, ne_eq, not_true_eq_false, if_false, if_true]
        exact ⟨trivial, list, rfl, h⟩
      · refine .inl ?_
        simp only [hsame, ne_eq, not_false_eq_true, if_true, if_false]
        exact ⟨⟨_, rfl⟩, _, rfl⟩
    | none =>
      refine .inr ?_
      simp only [exists_lookup hmem]
      refine ⟨trivial, _, rfl, h.lanes, fun lane' => ?_⟩
      have hpushed := queue.deque_pushed id lane lane'
      refine hpushed.trans ?_
      rw [List.filter_append, List.map_append, ← h.deque]
      by_cases hother : lane' = lane
      · simp [hother]
      · simp [hother, Ne.symm hother]

/-- The entry that a lane's first id has is the one that leaves. -/
theorem filter_erase_find? {pending : List (JobId × String)} {lane : String} {entry : JobId × String}
    (h : (pending.find? fun entry => entry.2 == lane) = some entry) (lane' : String) :
    (pending.erase entry).filter (fun entry => entry.2 == lane') =
      if lane' = lane then (pending.filter fun entry => entry.2 == lane).tail
      else pending.filter fun entry => entry.2 == lane' := by
  induction pending with
  | nil => cases h
  | cons first rest ih =>
    rw [List.find?_cons] at h
    split at h
    next hfirst =>
      obtain rfl := Option.some.inj h
      have hlane := eq_of_beq hfirst
      rw [List.erase_cons_head]
      by_cases hsame : lane' = lane
      · simp [hsame, hlane]
      · simp [hsame, hlane, Ne.symm hsame]
    next hfirst =>
      have hentry : entry.2 = lane := by simpa using List.find?_some h
      have hlane : first.2 ≠ lane := fun heq => by simp [heq] at hfirst
      have hne : first ≠ entry := fun heq => hlane (heq ▸ hentry)
      rw [List.erase_cons_tail (by simpa using hne), List.filter_cons, ih h]
      by_cases hsame : lane' = lane
      · simp [hsame, hlane]
      · simp [hsame, List.filter_cons]

/-- Both raise, or both return the same. -/
theorem Represents.dequeue (hqueue : queue.Valid) (h : queue.Represents list) (asked : Option String) :
    ((∃ e, (queue.dequeue quote asked).1 = .error e) ∧ ∃ e, list.dequeue asked = .error e) ∨
      ∃ reply list', (queue.dequeue quote asked).1 = .ok reply ∧ list.dequeue asked = .ok (reply, list') ∧
        (queue.dequeue quote asked).2.Represents list' := by
  have hresolve := @Represents.resolveLane quote queue list hqueue h asked
  unfold LaneQueue.dequeue JobQueue.dequeue
  cases hlane : queue.resolveLane quote asked with
  | error e =>
    rw [hlane] at hresolve
    cases hlane' : list.resolveLane asked with
    | error e' => exact .inl ⟨⟨e, rfl⟩, e', rfl⟩
    | ok lane =>
      rw [hlane'] at hresolve
      cases hresolve
  | ok lane =>
    rw [hlane] at hresolve
    have hmem := mem_of_resolveLane hqueue hlane
    have hlane' : list.resolveLane asked = .ok lane := ok_of_toOption hresolve.symm
    have hdeque := h.deque lane
    refine .inr ?_
    simp only [hlane', exists_lookup hmem, bind, Except.bind]
    cases hfind : list.pending.find? fun entry => entry.2 == lane with
    | none =>
      have hnil : (list.pending.filter fun entry => entry.2 == lane) = [] :=
        List.filter_eq_nil_iff.mpr (List.find?_eq_none.mp hfind)
      rw [hnil] at hdeque
      rw [hdeque]
      exact ⟨none, list, rfl, rfl, h⟩
    | some entry =>
      have herase := filter_erase_find? hfind
      have hhead : (list.pending.filter fun entry => entry.2 == lane).head? = some entry := by
        rw [List.head?_filter, hfind]
      cases hfilter : list.pending.filter fun entry => entry.2 == lane with
      | nil =>
        rw [hfilter] at hhead
        cases hhead
      | cons first rest =>
        rw [hfilter] at hhead hdeque
        obtain rfl := Option.some.inj hhead
        rw [hdeque]
        refine ⟨some first.1, _, rfl, rfl, h.lanes, fun lane' => ?_⟩
        have hpopped := queue.deque_popped first.1 lane lane' (rest.map Prod.fst)
        refine hpopped.trans ?_
        rw [herase, hfilter]
        split
        · rfl
        · exact h.deque lane'

end

end LaneQueue

end CreativeStudio.Jobs
