import Mathlib.Data.List.Infix
import Mathlib.Data.List.Pairwise
import CreativeStudio.Jobs.LaneQueue

/-!
# The order in which a restart enqueues

The last step of startup recovery lists the jobs as they are listed for display, the newest first, and
hands those that are queued to the queue one after the other. The queue delivers a lane in the order in
which its ids came: after a restart the newest job of a lane runs first.
-/

namespace CreativeStudio.Jobs
open Data Storage

/-- The fields of a job that the step reads. -/
structure ListedJob where
  id : JobId
  createdAt : ℕ
  status : GenerationStatus
  mediaType : MediaType
  taskType : Option String
  deriving DecidableEq, Repr

/-- What the step finds outside: its reads of single jobs, and the lane configuration. -/
structure RequeueHost where
  /-- `job_repository.get`, in the loop. -/
  fresh : JobId → Except Exc (Option ListedJob)
  /-- `get_job`, in `enqueue_job`. -/
  again : JobId → Except Exc (Option ListedJob)
  /-- `assign_lane` of a multi-lane configuration. -/
  assignLane : Option (MediaType → Option String → Except Exc String)

/-- The rows are listed with `ORDER BY created_at DESC`. -/
def NewestFirst (rows : List ListedJob) : Prop := rows.Pairwise fun a b => b.createdAt ≤ a.createdAt

namespace RequeueHost
variable (host : RequeueHost) (quote : String → String)

/-- The lane that a job is enqueued into. -/
def laneFor (job : ListedJob) : Except Exc (Option String) :=
  match host.assignLane with
  | none => .ok none
  | some assignLane => (assignLane job.mediaType job.taskType).map some

/-- `enqueue_job`, and the queue that it leaves behind. -/
def enqueueJob (id : JobId) (queue : LaneQueue) : Except Exc Unit × LaneQueue :=
  match host.again id with
  | .error e => (.error e, queue)
  | .ok none => (.ok (), queue)
  | .ok (some job) =>
    if job.status = .cancelled then (.ok (), queue)
    else
      match host.laneFor job with
      | .error e => (.error e, queue)
      | .ok lane => queue.enqueue quote id lane

/-- One turn of the loop of step 6. -/
def requeueJob (job : ListedJob) (queue : LaneQueue) : Except Exc Unit × LaneQueue :=
  if job.status ≠ .queued then (.ok (), queue)
  else
    match host.fresh job.id with
    | .ok (some fresh) => if fresh.status ≠ .queued then (.ok (), queue) else host.enqueueJob quote job.id queue
    | _ => (.ok (), queue)

/-- The loop of step 6. -/
def requeue : List ListedJob → LaneQueue → Except Exc Unit × LaneQueue
  | [], queue => (.ok (), queue)
  | job :: rest, queue =>
    match (host.requeueJob quote job queue).1 with
    | .error e => (.error e, (host.requeueJob quote job queue).2)
    | .ok _ => requeue rest (host.requeueJob quote job queue).2

/-- The lane that a listed job is handed to, of those that the queue has. -/
def handedTo (queue : LaneQueue) (job : ListedJob) : Option String :=
  if job.status ≠ .queued then none
  else
    match host.fresh job.id, host.again job.id with
    | .ok (some fresh), .ok (some again) =>
      if fresh.status ≠ .queued || again.status = .cancelled then none
      else ((host.laneFor again).toOption.map (queue.resolveLane quote)).bind Except.toOption
    | _, _ => none

/-! ## What one job does to the queue -/

section
variable {host} {quote} {queue : LaneQueue} {job : ListedJob} {lane : String}

/-- A job that is not handed over leaves the queue as it is; another one waits in its lane already, or
comes into it. -/
theorem requeueJob_cases (hqueue : queue.Valid) (hok : (host.requeueJob quote job queue).1 = .ok ()) :
    (host.handedTo quote queue job = none ∧ (host.requeueJob quote job queue).2 = queue) ∨
      ∃ lane, host.handedTo quote queue job = some lane ∧ lane ∈ queue.queues ∧
        ((job.id ∈ queue.pending ∧ (host.requeueJob quote job queue).2 = queue) ∨
          (job.id ∉ queue.pending ∧ (host.requeueJob quote job queue).2 = queue.pushed job.id lane)) := by
  unfold requeueJob handedTo at *
  split
  next hstatus => exact .inl ⟨rfl, rfl⟩
  next hstatus =>
    rw [if_neg hstatus] at hok
    cases hfresh : host.fresh job.id with
    | error e => exact .inl ⟨rfl, rfl⟩
    | ok fresh =>
      cases fresh with
      | none => exact .inl ⟨rfl, rfl⟩
      | some fresh =>
        simp only [hfresh] at hok ⊢
        by_cases hqueued : fresh.status ≠ .queued
        · rw [if_pos hqueued]
          refine .inl ⟨?_, rfl⟩
          cases host.again job.id with
          | error e => rfl
          | ok again => cases again <;> simp [hqueued]
        · rw [if_neg hqueued] at hok ⊢
          unfold enqueueJob at *
          cases hagain : host.again job.id with
          | error e =>
            rw [hagain] at hok
            cases hok
          | ok again =>
            cases again with
            | none => exact .inl ⟨rfl, rfl⟩
            | some again =>
              simp only [hagain] at hok ⊢
              by_cases hcancelled : again.status = .cancelled
              · exact .inl ⟨by simp [hcancelled], by simp [hcancelled]⟩
              · simp only [hcancelled, if_false] at hok ⊢
                cases hlane : host.laneFor again with
                | error e =>
                  rw [hlane] at hok
                  cases hok
                | ok asked =>
                  simp only [hlane] at hok ⊢
                  rcases @LaneQueue.enqueue_cases quote queue hqueue job.id asked with
                    ⟨e, he⟩ | ⟨lane, hresolve, hmem, ⟨hid, he⟩ | ⟨hid, he⟩⟩
                  · rw [he] at hok
                    cases hok
                  · refine .inr ⟨lane, by simp [hqueued, hresolve, Except.toOption], hmem, .inl ⟨?_, by rw [he]⟩⟩
                    exact LaneQueue.mem_pending.mpr ⟨lane, (hqueue.lanes lane).mp hmem, hid⟩
                  · exact .inr ⟨lane, by simp [hqueued, hresolve, Except.toOption], hmem, .inr ⟨hid, by rw [he]⟩⟩

/-! ## What all of them do -/

theorem resolveLane_pushed (hmem : lane ∈ queue.queues) (id : JobId) (asked : Option String) :
    (queue.pushed id lane).resolveLane quote asked = queue.resolveLane quote asked := by
  cases asked with
  | none => rfl
  | some name =>
    have hsame : name ∈ (queue.pushed id lane).queues ↔ name ∈ queue.queues := by
      rw [LaneQueue.pushed, AList.mem_insert, or_iff_right_of_imp]
      rintro rfl
      exact hmem
    simp only [LaneQueue.resolveLane, hsame]
    rfl

theorem handedTo_pushed (hmem : lane ∈ queue.queues) (id : JobId) (job : ListedJob) :
    host.handedTo quote (queue.pushed id lane) job = host.handedTo quote queue job := by
  have hresolve : (queue.pushed id lane).resolveLane quote = queue.resolveLane quote :=
    funext fun asked => resolveLane_pushed hmem id asked
  rw [handedTo, handedTo, hresolve]

theorem mem_pending_pushed (hqueue : queue.Valid) (hmem : lane ∈ queue.queues) {id : JobId} (hnew : id ∉ queue.pending)
    (id' : JobId) : id' ∈ (queue.pushed id lane).pending ↔ id' = id ∨ id' ∈ queue.pending := by
  rw [(hqueue.pushed hmem hnew).mem_pending_iff, hqueue.mem_pending_iff, LaneQueue.pushed]
  by_cases hid : id' = id
  · subst hid
    rw [AList.lookup_insert]
    simp
  · rw [AList.lookup_insert_ne hid]
    simp [hid]

/-- The jobs that step 6 adds to a lane, in their order. -/
def added (host : RequeueHost) (quote : String → String) (queue : LaneQueue) (rows : List ListedJob) (lane : String) :
    List ListedJob :=
  rows.filter fun job => job.id ∉ queue.pending ∧ host.handedTo quote queue job = some lane

/-- A lane keeps its ids and gets those that are handed to it. -/
theorem deque_requeue {rows : List ListedJob} (hqueue : queue.Valid) (hids : (rows.map ListedJob.id).Nodup)
    (hok : (host.requeue quote rows queue).1 = .ok ()) :
    (host.requeue quote rows queue).2.Valid ∧ ∀ lane, (host.requeue quote rows queue).2.deque lane =
      queue.deque lane ++ (host.added quote queue rows lane).map ListedJob.id := by
  induction rows generalizing queue with
  | nil => exact ⟨hqueue, fun lane => by simp [requeue, added]⟩
  | cons job rest ih =>
    obtain ⟨hother, hrest⟩ := List.nodup_cons.mp hids
    rw [requeue] at hok ⊢
    cases hreply : (host.requeueJob quote job queue).1 with
    | error e =>
      rw [hreply] at hok
      cases hok
    | ok =>
      simp only [hreply] at hok ⊢
      rcases requeueJob_cases hqueue hreply with ⟨hnone, hsame⟩ | ⟨lane, hlane, hmem, ⟨hid, hsame⟩ | ⟨hid, hsame⟩⟩
      · rw [hsame] at hok ⊢
        have hadded (lane : String) : host.added quote queue (job :: rest) lane = host.added quote queue rest lane :=
          List.filter_cons_of_neg (by simp [hnone])
        simpa only [hadded] using ih hqueue hrest hok
      · rw [hsame] at hok ⊢
        have hadded (lane : String) : host.added quote queue (job :: rest) lane = host.added quote queue rest lane :=
          List.filter_cons_of_neg (by simp [hid])
        simpa only [hadded] using ih hqueue hrest hok
      · rw [hsame] at hok ⊢
        obtain ⟨hvalid, hdeque⟩ := ih (hqueue.pushed hmem hid) hrest hok
        -- the rest has other ids, so what it adds is what it adds to the queue before
        have hadded (lane' : String) : host.added quote (queue.pushed job.id lane) rest lane' =
            host.added quote queue rest lane' := by
          refine List.filter_congr fun later hlater => ?_
          have hne : later.id ≠ job.id := fun heq => hother (heq ▸ List.mem_map_of_mem hlater)
          have hpending : later.id ∈ (queue.pushed job.id lane).pending ↔ later.id ∈ queue.pending := by
            rw [mem_pending_pushed hqueue hmem hid]
            exact or_iff_right hne
          simp only [hpending, handedTo_pushed hmem]
        refine ⟨hvalid, fun lane' => ?_⟩
        rw [hdeque, hadded, LaneQueue.deque_pushed]
        by_cases hsame' : lane' = lane
        · have hfirst : host.added quote queue (job :: rest) lane' = job :: host.added quote queue rest lane' :=
            List.filter_cons_of_pos (by simp [hid, hlane, hsame'])
          rw [if_pos hsame', hfirst, hsame', List.map_cons, List.append_assoc]
          rfl
        · have hfirst : host.added quote queue (job :: rest) lane' = host.added quote queue rest lane' :=
            List.filter_cons_of_neg (by simp [hlane, Ne.symm hsame'])
          rw [if_neg hsame', hfirst]

/-! ## What is delivered afterwards -/

theorem deliveries_isPrefix (hqueue : queue.Valid) (calls : List LaneQueue.Call) (lane : String) :
    LaneQueue.deliveries quote lane (queue.history quote calls) <+:
      queue.deque lane ++ LaneQueue.arrivals quote lane (queue.history quote calls) :=
  ⟨_, ((LaneQueue.lawful_history hqueue calls).2.2 lane).symm⟩

theorem dequeue_cons (hmem : lane ∈ queue.queues) {id : JobId} {rest : List JobId}
    (hdeque : queue.deque lane = id :: rest) :
    queue.dequeue quote (some lane) = (.ok (some id), queue.popped id lane rest) := by
  have hresolve : queue.resolveLane quote (some lane) = .ok lane := if_pos hmem
  have hlookup := LaneQueue.exists_lookup hmem
  rw [hdeque] at hlookup
  simp only [LaneQueue.dequeue, hresolve, hlookup]
  rfl

/-- Some calls deliver all that a lane has. -/
theorem exists_deliveries (hqueue : queue.Valid) (lane : String) :
    ∃ calls, LaneQueue.deliveries quote lane (queue.history quote calls) = queue.deque lane := by
  generalize hids : queue.deque lane = ids
  induction ids generalizing queue with
  | nil => exact ⟨[], rfl⟩
  | cons id rest ih =>
    have hmem : lane ∈ queue.queues := LaneQueue.mem_queues_of_mem_deque (hids ▸ List.mem_cons_self)
    have hdequeue := @dequeue_cons quote queue lane hmem id rest hids
    obtain ⟨calls, hcalls⟩ := ih (hqueue.popped hmem hids) (by rw [LaneQueue.deque_popped, if_pos rfl])
    have hresolve : queue.resolveLane quote (some lane) = .ok lane := if_pos hmem
    refine ⟨.dequeue (some lane) :: calls, ?_⟩
    rw [LaneQueue.history, LaneQueue.deliveries_cons]
    simp only [LaneQueue.step, LaneQueue.happen, LaneQueue.Happened.delivered, hdequeue, hresolve, if_true,
      Except.toOption, Option.join_some]
    rw [hcalls]
    rfl

/-- The ids that step 6 added to a lane, as far as later calls have delivered them. -/
def deliveredAfter (host : RequeueHost) (quote : String → String) (queue : LaneQueue) (rows : List ListedJob)
    (lane : String) (later : List LaneQueue.Call) : List JobId :=
  ((LaneQueue.deliveries quote lane ((host.requeue quote rows queue).2.history quote later)).drop
    (queue.deque lane).length).take (host.added quote queue rows lane).length

/-- No id comes before one of an older job. -/
def OldestFirst (rows : List ListedJob) (ids : List JobId) : Prop :=
  ids.Pairwise fun id id' => ∀ a ∈ rows, ∀ b ∈ rows, a.id = id → b.id = id' → a.createdAt ≤ b.createdAt

/-- What is delivered of the added ids is a beginning of them, and all of them sometimes are. -/
theorem deliveredAfter_spec {rows : List ListedJob} (hqueue : queue.Valid) (hids : (rows.map ListedJob.id).Nodup)
    (hok : (host.requeue quote rows queue).1 = .ok ()) (lane : String) :
    (∀ later, host.deliveredAfter quote queue rows lane later <+:
        (host.added quote queue rows lane).map ListedJob.id) ∧
      ∃ later, host.deliveredAfter quote queue rows lane later =
        (host.added quote queue rows lane).map ListedJob.id := by
  obtain ⟨hvalid, hdeque⟩ := deque_requeue hqueue hids hok
  refine ⟨fun later => ?_, ?_⟩
  · have hdrop := (@deliveries_isPrefix quote _ hvalid later lane).drop (queue.deque lane).length
    rw [hdeque lane, List.append_assoc, List.drop_left] at hdrop
    have htake := hdrop.take (host.added quote queue rows lane).length
    rw [← List.length_map ListedJob.id, List.take_left] at htake
    rw [deliveredAfter, ← List.length_map ListedJob.id]
    exact htake
  · obtain ⟨later, hlater⟩ := @exists_deliveries quote _ hvalid lane
    refine ⟨later, ?_⟩
    rw [deliveredAfter, hlater, hdeque lane, List.drop_left, ← List.length_map ListedJob.id, List.take_length]

theorem mem_added {rows : List ListedJob} : job ∈ host.added quote queue rows lane ↔
    job ∈ rows ∧ job.id ∉ queue.pending ∧ host.handedTo quote queue job = some lane := by
  simp [added, List.mem_filter]

/-- **After a restart** a lane delivers the jobs that were enqueued again in the order of their creation exactly
when they were all created at the same time. -/
theorem oldestFirst_iff {rows : List ListedJob} (hqueue : queue.Valid) (hids : (rows.map ListedJob.id).Nodup)
    (hrows : NewestFirst rows) (hok : (host.requeue quote rows queue).1 = .ok ()) :
    (∀ lane later, OldestFirst rows (host.deliveredAfter quote queue rows lane later)) ↔
      ∀ lane, ∀ a ∈ rows, ∀ b ∈ rows, a.id ∉ queue.pending → b.id ∉ queue.pending →
        host.handedTo quote queue a = some lane → host.handedTo quote queue b = some lane →
          a.createdAt = b.createdAt := by
  have hunique : ∀ a ∈ rows, ∀ b ∈ rows, a.id = b.id → a = b := fun a ha b hb =>
    List.inj_on_of_nodup_map hids ha hb
  constructor
  · intro h lane a ha b hb hnew hnew' hlane hlane'
    obtain ⟨later, hlater⟩ := (deliveredAfter_spec hqueue hids hok lane).2
    have holdest := h lane later
    rw [hlater, OldestFirst, List.pairwise_map] at holdest
    have hnewest : (host.added quote queue rows lane).Pairwise fun a b => b.createdAt ≤ a.createdAt :=
      hrows.sublist List.filter_sublist
    have hsame : (host.added quote queue rows lane).Pairwise fun a b => a.createdAt = b.createdAt := by
      refine (holdest.and hnewest).imp_of_mem fun {c d} hc hd hboth => ?_
      exact Nat.le_antisymm (hboth.1 c (mem_added.mp hc).1 d (mem_added.mp hd).1 rfl rfl) hboth.2
    have hflip : (host.added quote queue rows lane).Pairwise fun a b => b.createdAt = a.createdAt :=
      hsame.imp fun {_ _} heq => heq.symm
    have hpairs : ∀ ⦃c⦄, c ∈ host.added quote queue rows lane → ∀ ⦃d⦄, d ∈ host.added quote queue rows lane →
        c.createdAt = d.createdAt := hsame.forall_of_forall_of_flip (fun _ _ => rfl) hflip
    exact hpairs (mem_added.mpr ⟨ha, hnew, hlane⟩) (mem_added.mpr ⟨hb, hnew', hlane'⟩)
  · intro h lane later
    have hall : OldestFirst rows ((host.added quote queue rows lane).map ListedJob.id) := by
      rw [OldestFirst, List.pairwise_map]
      refine List.pairwise_of_forall_mem_list fun c hc d hd a ha b hb hca hdb => ?_
      obtain ⟨hcrows, hcnew, hclane⟩ := mem_added.mp hc
      obtain ⟨hdrows, hdnew, hdlane⟩ := mem_added.mp hd
      rw [hunique a ha c hcrows hca, hunique b hb d hdrows hdb]
      exact (h lane c hcrows d hdrows hcnew hdnew hclane hdlane).le
    exact hall.sublist ((deliveredAfter_spec hqueue hids hok lane).1 later).sublist

end

/-! ## Two attempts for one scene -/

/-- Two queued images, the older of them listed last. -/
def twoAttempts : List ListedJob :=
  [⟨2, 20, .queued, .image, none⟩, ⟨1, 10, .queued, .image, none⟩]

/-- Every read succeeds, and there is one lane. -/
def steadyHost : RequeueHost where
  fresh id := .ok (twoAttempts.find? fun job => job.id = id)
  again id := .ok (twoAttempts.find? fun job => job.id = id)
  assignLane := none

theorem twoAttempts_requeued : ∃ queue, LaneQueue.create id none = .ok queue ∧ queue.Valid ∧
    (steadyHost.requeue id twoAttempts queue).1 = .ok () ∧
    steadyHost.deliveredAfter id queue twoAttempts "default" [.dequeue none, .dequeue none] = [2, 1] ∧
    (∀ job ∈ twoAttempts, job.id ∉ queue.pending ∧ steadyHost.handedTo id queue job = some "default") := by
  have hcreate : ∃ queue, LaneQueue.create id none = .ok queue := ⟨_, rfl⟩
  obtain ⟨queue, hqueue⟩ := hcreate
  refine ⟨queue, hqueue, (LaneQueue.valid_of_create hqueue).1, ?_⟩
  cases hqueue
  decide

/-- The newer attempt is delivered first. -/
theorem not_oldestFirst_twoAttempts : ∃ queue, LaneQueue.create id none = .ok queue ∧ NewestFirst twoAttempts ∧
    (steadyHost.requeue id twoAttempts queue).1 = .ok () ∧
    ¬∀ lane later, OldestFirst twoAttempts (steadyHost.deliveredAfter id queue twoAttempts lane later) := by
  obtain ⟨queue, hcreate, -, hok, hdelivered, -⟩ := twoAttempts_requeued
  refine ⟨queue, hcreate, by unfold NewestFirst; decide, hok, fun h => ?_⟩
  have hfirst := h "default" [.dequeue none, .dequeue none]
  rw [hdelivered, OldestFirst, List.pairwise_pair] at hfirst
  have hle := hfirst ⟨2, 20, .queued, .image, none⟩ (by decide) ⟨1, 10, .queued, .image, none⟩ (by decide) rfl rfl
  exact absurd hle (by decide)

theorem oldestFirst_iff_twoAttempts : ∃ queue, LaneQueue.create id none = .ok queue ∧
    ((∀ lane later, OldestFirst twoAttempts (steadyHost.deliveredAfter id queue twoAttempts lane later)) ↔
      ∀ lane, ∀ a ∈ twoAttempts, ∀ b ∈ twoAttempts, a.id ∉ queue.pending → b.id ∉ queue.pending →
        steadyHost.handedTo id queue a = some lane → steadyHost.handedTo id queue b = some lane →
          a.createdAt = b.createdAt) := by
  obtain ⟨queue, hcreate, hqueue, hok, -⟩ := twoAttempts_requeued
  exact ⟨queue, hcreate, oldestFirst_iff hqueue (by decide) (by unfold NewestFirst; decide) hok⟩

end RequeueHost

end CreativeStudio.Jobs
