import CreativeStudio.Story.ContinuityBuilder

/-!
# Two chapters in either order

Two completions that have nothing to do with each other are merged in either order. The
entries that result are the same but for their numbers: what is new is numbered behind
the list as it stands, and the other chapter may have made it longer, or shorter by
paying off its last threads. `mergesCommute_iff` says when the numbers agree too.
-/

namespace CreativeStudio.Story

/-! ## Entries numbered from two starts -/

section Numbered
variable {α π : Type} [MemoryEntry α] {rules rules' : MergeRules α π}

theorem numbered_eq_iff (hrules : rules.Lawful) {i i' : ℕ} {proposals : List π} :
    numbered rules i proposals = numbered rules i' proposals ↔ proposals = [] ∨ i = i' := by
  constructor
  · intro h
    cases proposals with
    | nil => exact .inl rfl
    | cons p rest =>
      rw [numbered, numbered, List.cons.injEq] at h
      have horder := congrArg MemoryEntry.order h.1
      rw [hrules.order_make, hrules.order_make] at horder
      exact .inr horder
  · rintro (rfl | rfl) <;> rfl

/-- An entry of the first list whose number is another one in the second. -/
theorem eq_of_ordered_eq (hrules : rules.Lawful) {i i' : ℕ} {proposals : List π} {a b : List α}
    (hunique : (b.map MemoryEntry.id).Nodup) (h : ordered a = ordered b)
    (ha : numbered rules i proposals ⊆ a) (hb : numbered rules i' proposals ⊆ b) :
    proposals = [] ∨ i = i' := by
  cases proposals with
  | nil => exact .inl rfl
  | cons p rest =>
    rw [numbered, List.cons_subset] at ha hb
    have hmem : rules.make p i ∈ b := mem_ordered.mp (h ▸ mem_ordered.mpr ha.1)
    have hsame := eq_of_id hunique hmem hb.1 (by rw [hrules.id_make, hrules.id_make])
    have horder := congrArg MemoryEntry.order hsame
    rw [hrules.order_make, hrules.order_make] at horder
    exact .inr horder

/-- Two groups of new entries in either order: they must get the same numbers. -/
theorem ordered_append_iff (hrules : rules.Lawful) (hrules' : rules'.Lawful) {items : List α}
    {proposals proposals' : List π} {i i' j j' : ℕ}
    (hunique : ((items ++ numbered rules i proposals ++ numbered rules' j proposals').map MemoryEntry.id).Nodup) :
    ordered (items ++ numbered rules i proposals ++ numbered rules' j proposals') =
        ordered (items ++ numbered rules' j' proposals' ++ numbered rules i' proposals) ↔
      (proposals = [] ∨ i = i') ∧ (proposals' = [] ∨ j = j') := by
  have hswap : ∀ x y : List α, (items ++ x ++ y).Perm (items ++ y ++ x) := fun x y => by
    rw [List.append_assoc, List.append_assoc]
    exact List.Perm.append_left _ List.perm_append_comm
  constructor
  · intro h
    have hunique' : ((items ++ numbered rules' j' proposals' ++ numbered rules i' proposals).map MemoryEntry.id).Nodup := by
      refine List.Perm.nodup (.trans (hswap _ _ |>.map MemoryEntry.id) (.of_eq ?_)) hunique
      simp only [List.map_append, ids_numbered hrules, ids_numbered hrules']
    exact ⟨eq_of_ordered_eq hrules hunique' h (by simp) (by simp), eq_of_ordered_eq hrules' hunique' h (by simp) (by simp)⟩
  · rintro ⟨h, h'⟩
    rw [(numbered_eq_iff hrules).mpr h, (numbered_eq_iff hrules').mpr h'] at hunique ⊢
    exact ordered_eq_of_perm (hswap _ _) hunique

end Numbered

/-! ## Two merges into one list -/

section Merges
variable {α π : Type} [MemoryEntry α] {rules rules' : MergeRules α π} {items : List α} {proposals proposals' : List π}

theorem nextOrder_merged (hrules : rules.Lawful) (items : List α) (proposals : List π) :
    nextOrder (items ++ numbered rules (nextOrder items) proposals) = nextOrder items + proposals.length := by
  rw [nextOrder_append, nextOrder_numbered hrules]

theorem unique_ordered (h : (items.map MemoryEntry.id).Nodup) : ((ordered items).map MemoryEntry.id).Nodup :=
  ((perm_ordered items).map MemoryEntry.id).nodup_iff.mpr h

/-- What one completion adds does not depend on another that shares no id with it. -/
theorem added_ordered (hrules : rules.Lawful) (start : ℕ)
    (hshare : ∀ p ∈ proposals, ∀ q ∈ proposals', rules.idOf p ≠ rules'.idOf q) :
    added rules' (ordered (items ++ numbered rules start (added rules items proposals))) proposals' =
      added rules' items proposals' := by
  refine freshOnes_congr rfl fun q hq => ?_
  have hnot : rules'.idOf q ∉ (added rules items proposals).map rules.idOf := by
    intro hmem
    obtain ⟨p, hp, heq⟩ := List.mem_map.mp hmem
    exact hshare p (mem_freshOnes hp).1 q hq heq
  rw [((perm_ordered _).map MemoryEntry.id).mem_iff, List.map_append, ids_numbered hrules, List.mem_append]
  tauto

/-- The list after both merges. -/
theorem ordered_merged (hrules : rules.Lawful) (hrules' : rules'.Lawful) (hunique : (items.map MemoryEntry.id).Nodup)
    (hshare : ∀ p ∈ proposals, ∀ q ∈ proposals', rules.idOf p ≠ rules'.idOf q) :
    let first := ordered (items ++ numbered rules (nextOrder items) (added rules items proposals))
    ordered (first ++ numbered rules' (nextOrder first) (added rules' first proposals')) =
      ordered (items ++ numbered rules (nextOrder items) (added rules items proposals) ++
        numbered rules' (nextOrder items + (added rules items proposals).length) (added rules' items proposals')) := by
  intro first
  have hnext : nextOrder first = nextOrder items + (added rules items proposals).length := by
    rw [nextOrder_ordered, nextOrder_merged hrules]
  have hadded : added rules' first proposals' = added rules' items proposals' := added_ordered hrules _ hshare
  have hnodup := nodup_merged hrules' (unique_ordered (nodup_merged hrules hunique (nextOrder items) proposals))
    (nextOrder first) proposals'
  refine ordered_eq_of_perm ?_ hnodup
  rw [hadded, hnext]
  exact (perm_ordered _).append_right _

/-- Two merges into one list commute when one of them adds nothing. -/
theorem merges_comm_iff (hrules : rules.Lawful) (hrules' : rules'.Lawful) (hunique : (items.map MemoryEntry.id).Nodup)
    (hshare : ∀ p ∈ proposals, ∀ q ∈ proposals', rules.idOf p ≠ rules'.idOf q) :
    let first := ordered (items ++ numbered rules (nextOrder items) (added rules items proposals))
    let first' := ordered (items ++ numbered rules' (nextOrder items) (added rules' items proposals'))
    ordered (first ++ numbered rules' (nextOrder first) (added rules' first proposals')) =
        ordered (first' ++ numbered rules (nextOrder first') (added rules first' proposals)) ↔
      ¬ (added rules items proposals ≠ [] ∧ added rules' items proposals' ≠ []) := by
  intro first first'
  have hunique' : ((items ++ numbered rules (nextOrder items) (added rules items proposals) ++
      numbered rules' (nextOrder items + (added rules items proposals).length)
        (added rules' items proposals')).map MemoryEntry.id).Nodup := by
    have hnodup := nodup_merged hrules' (unique_ordered (nodup_merged hrules hunique (nextOrder items) proposals))
      (nextOrder items + (added rules items proposals).length) proposals'
    rw [added_ordered hrules _ hshare] at hnodup
    exact (((perm_ordered _).append_right _).map MemoryEntry.id).nodup_iff.mp hnodup
  rw [ordered_merged hrules hrules' hunique hshare,
    ordered_merged hrules' hrules hunique fun q hq p hp => (hshare p hp q hq).symm, ordered_append_iff hrules hrules' hunique']
  simp only [ne_eq, ← List.length_eq_zero_iff]
  omega

end Merges

/-! ## Completions that have nothing in common -/

/-- What a memory holds; a story without one holds nothing. -/
def contents (memory : Option ContinuityMemory) : ContinuityRecord :=
  memory.elim { id := "", storyId := "", createdAt := 0, updatedAt := 0 } (·.toContinuityRecord)

/-- The ids of the threads that a completion introduces or resolves. -/
def ChapterCompletion.threadIds (completion : ChapterCompletion) : List String :=
  completion.threadsIntroduced.map ProposedThread.id ++ completion.threadsResolved

/-- Two completions of different chapters that share no id, and resolve only threads that
are open before either. -/
structure Independent (held : ContinuityRecord) (a b : ChapterCompletion) : Prop where
  chapters : a.chapterId ≠ b.chapterId
  facts : ∀ p ∈ a.canonFacts, ∀ q ∈ b.canonFacts, p.id ≠ q.id
  events : ∀ p ∈ a.timelineFacts, ∀ q ∈ b.timelineFacts, p.id ≠ q.id
  threads : ∀ id ∈ a.threadIds, id ∉ b.threadIds
  resolves : ∀ id ∈ a.threadsResolved, id ∈ held.unresolvedThreads.map UnresolvedThread.id
  resolves' : ∀ id ∈ b.threadsResolved, id ∈ held.unresolvedThreads.map UnresolvedThread.id

theorem Independent.symm {held : ContinuityRecord} {a b : ChapterCompletion} (h : Independent held a b) :
    Independent held b a where
  chapters := h.chapters.symm
  facts p hp q hq := (h.facts q hq p hp).symm
  events p hp q hq := (h.events q hq p hp).symm
  threads id hb ha := h.threads id ha hb
  resolves := h.resolves'
  resolves' := h.resolves

/-- Merge one completion, and then another. -/
def updateBoth (memory : Option ContinuityMemory) (first second : ChapterCompletion)
    (storyId memoryId : Option String) (now : ℕ) : Except Exc ContinuityMemory := do
  let result ← updateContinuityMemory memory first storyId memoryId now
  let result' ← updateContinuityMemory (some result.memory) second storyId memoryId now
  return result'.memory

/-! ## When the order does not matter -/

/-- A completion has a canon fact with a new id. -/
def AddsFact (held : ContinuityRecord) (completion : ChapterCompletion) : Prop :=
  ∃ p ∈ completion.canonFacts, p.id ∉ held.canonFacts.map CanonFact.id

def AddsEvent (held : ContinuityRecord) (completion : ChapterCompletion) : Prop :=
  ∃ p ∈ completion.timelineFacts, p.id ∉ held.timelineFacts.map TimelineFact.id

/-- A completion introduces a thread that is neither open nor resolved. -/
def AddsThread (held : ContinuityRecord) (completion : ChapterCompletion) : Prop :=
  ∃ p ∈ completion.threadsIntroduced, p.id ∉ held.unresolvedThreads.map UnresolvedThread.id ∧
    p.id ∉ held.resolvedThreads.map ResolvedThread.id

/-- The threads that a completion leaves open. -/
def stillOpen (held : ContinuityRecord) (completion : ChapterCompletion) : List UnresolvedThread :=
  held.unresolvedThreads.filter fun thread => thread.id ∉ completion.threadsResolved

/-- In no list do both completions add entries, and where one introduces threads, the other
does not pay off the last of those there are. -/
structure Commutes (held : ContinuityRecord) (a b : ChapterCompletion) : Prop where
  facts : ¬ (AddsFact held a ∧ AddsFact held b)
  events : ¬ (AddsEvent held a ∧ AddsEvent held b)
  threads : ¬ (AddsThread held a ∧ AddsThread held b)
  last : AddsThread held a → nextOrder (stillOpen held b) = nextOrder held.unresolvedThreads
  last' : AddsThread held b → nextOrder (stillOpen held a) = nextOrder held.unresolvedThreads

theorem addsFact_iff (held : ContinuityRecord) (completion : ChapterCompletion) :
    AddsFact held completion ↔ newFacts held completion ≠ [] := by
  unfold AddsFact newFacts added
  rw [freshOnes_ne_nil]
  simp only [canonRules, Option.isSome_none, Bool.false_eq_true, false_or]
  rfl

theorem addsEvent_iff (held : ContinuityRecord) (completion : ChapterCompletion) :
    AddsEvent held completion ↔ newEvents held completion ≠ [] := by
  unfold AddsEvent newEvents added
  rw [freshOnes_ne_nil]
  simp only [timelineRules, Option.isSome_none, Bool.false_eq_true, false_or]
  rfl

/-- Threads that were resolved block their id. -/
theorem isSome_blocked (resolved : List ResolvedThread) (completion : ChapterCompletion) (p : ProposedThread) :
    ((threadRules resolved completion).blocked p).isSome ↔ p.id ∈ resolved.map ResolvedThread.id := by
  simp only [threadRules, Option.isSome_map, List.find?_isSome, List.mem_map, beq_iff_eq]

theorem addsThread_iff (held : ContinuityRecord) (completion : ChapterCompletion) :
    AddsThread held completion ↔ newThreads held completion ≠ [] := by
  unfold AddsThread newThreads added
  rw [freshOnes_ne_nil]
  simp only [isSome_blocked, not_or]
  exact ⟨fun ⟨p, hp, hopen, hresolved⟩ => ⟨p, hp, hresolved, hopen⟩,
    fun ⟨p, hp, hresolved, hopen⟩ => ⟨p, hp, hopen, hresolved⟩⟩

/-! ## Threads after one update, and after two -/

/-- The records of the threads that a completion pays off. -/
def paidOff (held : ContinuityRecord) (completion : ChapterCompletion) : List ResolvedThread :=
  (held.unresolvedThreads.filter fun thread => thread.id ∈ completion.threadsResolved).map
    (·.resolve completion.chapterId)

/-- The threads that a completion introduces, numbered from a start. -/
def introducedFrom (start : ℕ) (held : ContinuityRecord) (completion : ChapterCompletion) : List UnresolvedThread :=
  numbered (threadRules held.resolvedThreads completion) start (newThreads held completion)

/-- What is numbered does not depend on the threads that are resolved. -/
theorem numbered_threadRules (resolved resolved' : List ResolvedThread) (completion : ChapterCompletion) (start : ℕ)
    (proposals : List ProposedThread) :
    numbered (threadRules resolved completion) start proposals =
      numbered (threadRules resolved' completion) start proposals := by
  induction proposals generalizing start with
  | nil => rfl
  | cons p rest ih =>
    rw [numbered, numbered, ih]
    rfl

section Threads
variable {held : ContinuityRecord} {a b : ChapterCompletion} {memory : ContinuityMemory} {now : ℕ}

theorem mem_introducedFrom {start : ℕ} {thread : UnresolvedThread} (h : thread ∈ introducedFrom start held a) :
    thread.id ∈ a.threadsIntroduced.map ProposedThread.id ∧
      thread.id ∉ held.unresolvedThreads.map UnresolvedThread.id := by
  have hmem : thread.id ∈ (introducedFrom start held a).map MemoryEntry.id := List.mem_map.mpr ⟨thread, h, rfl⟩
  rw [introducedFrom, ids_numbered (lawful_threadRules _ _)] at hmem
  obtain ⟨p, hp, heq⟩ := List.mem_map.mp hmem
  have hfresh := mem_freshOnes hp
  exact ⟨List.mem_map.mpr ⟨p, hfresh.1, heq⟩, heq ▸ hfresh.2⟩

/-- The threads after a completion that resolves only threads that were open. -/
theorem threads_of_updated (h : Updated held a now memory)
    (hunique : (held.unresolvedThreads.map UnresolvedThread.id).Nodup)
    (hresolves : ∀ id ∈ a.threadsResolved, id ∈ held.unresolvedThreads.map UnresolvedThread.id) :
    memory.unresolvedThreads =
        ordered (stillOpen held a ++ introducedFrom (nextOrder held.unresolvedThreads) held a) ∧
      memory.resolvedThreads.Perm (held.resolvedThreads ++ paidOff held a) := by
  have hopen : ((openThreads held a).map UnresolvedThread.id).Nodup :=
    nodup_merged (lawful_threadRules _ _) hunique _ _
  obtain ⟨hremaining, hnewly⟩ := @foldl_resolveOne a a.threadsResolved
    { remaining := openThreads held a, newlyResolved := held.resolvedThreads, conflicts := [] } hopen
  have hnot : ∀ thread ∈ introducedFrom (nextOrder held.unresolvedThreads) held a, thread.id ∉ a.threadsResolved :=
    fun thread hthread hmem => (mem_introducedFrom hthread).2 (hresolves _ hmem)
  have hout : (openThreads held a).filter (fun item => item.id ∉ a.threadsResolved) =
      stillOpen held a ++ introducedFrom (nextOrder held.unresolvedThreads) held a := by
    rw [openThreads, List.filter_append]
    refine congrArg (stillOpen held a ++ ·) (List.filter_eq_self.mpr fun thread hthread => ?_)
    simpa using hnot thread hthread
  have hin : (openThreads held a).filter (fun item => item.id ∈ a.threadsResolved) =
      held.unresolvedThreads.filter fun item => item.id ∈ a.threadsResolved := by
    have hnone : (introducedFrom (nextOrder held.unresolvedThreads) held a).filter
        (fun item => item.id ∈ a.threadsResolved) = [] :=
      List.filter_eq_nil_iff.mpr fun thread hthread => by simpa using hnot thread hthread
    rw [openThreads, List.filter_append]
    exact (congrArg (_ ++ ·) hnone).trans (List.append_nil _)
  rw [hin] at hnewly
  refine ⟨h.unresolvedThreads.trans (congrArg ordered (hremaining.trans hout)), ?_⟩
  rw [h.resolvedThreads]
  exact (perm_ordered _).trans hnewly

/-- What is still open after both. -/
def openAfterBoth (held : ContinuityRecord) (a b : ChapterCompletion) : List UnresolvedThread :=
  held.unresolvedThreads.filter fun thread => thread.id ∉ a.threadsResolved ∧ thread.id ∉ b.threadsResolved

theorem openAfterBoth_comm (held : ContinuityRecord) (a b : ChapterCompletion) :
    openAfterBoth held a b = openAfterBoth held b a :=
  List.filter_congr fun _ _ => decide_eq_decide.mpr and_comm

theorem mem_threadIds_of_introduced {start : ℕ} {thread : UnresolvedThread}
    (h : thread ∈ introducedFrom start held a) : thread.id ∈ a.threadIds :=
  List.mem_append_left _ (mem_introducedFrom h).1

variable (hindependent : Independent held a b)
  (hunique : (held.unresolvedThreads.map UnresolvedThread.id).Nodup)
include hindependent

theorem not_resolved_by_other {id : String} (h : id ∈ a.threadIds) : id ∉ b.threadsResolved := fun hmem =>
  hindependent.threads id h (List.mem_append_right _ hmem)

include hunique

/-- The other completion still resolves only threads that are open. -/
theorem resolves_after (h : Updated held a now memory) :
    ∀ id ∈ b.threadsResolved, id ∈ memory.unresolvedThreads.map UnresolvedThread.id := by
  intro id hid
  obtain ⟨thread, hthread, rfl⟩ := List.mem_map.mp (hindependent.resolves' id hid)
  rw [(threads_of_updated h hunique hindependent.resolves).1]
  refine List.mem_map.mpr ⟨thread, mem_ordered.mpr (List.mem_append_left _ (List.mem_filter.mpr ⟨hthread, ?_⟩)), rfl⟩
  have hother : thread.id ∉ a.threadsResolved := fun hmem =>
    hindependent.threads thread.id (List.mem_append_right _ hmem) (List.mem_append_right _ hid)
  simpa using hother

/-- The other completion introduces the threads it would have introduced first. -/
theorem newThreads_after (h : Updated held a now memory) :
    newThreads memory.toContinuityRecord b = newThreads held b := by
  obtain ⟨hopen, hresolved⟩ := threads_of_updated h hunique hindependent.resolves
  have hid : (threadRules memory.resolvedThreads b).idOf = (threadRules held.resolvedThreads b).idOf := rfl
  refine freshOnes_congr hid fun p hp => ?_
  have hnot : p.id ∉ a.threadIds := fun hmem =>
    hindependent.threads p.id hmem (List.mem_append_left _ (List.mem_map.mpr ⟨p, hp, rfl⟩))
  have hpaid : p.id ∉ a.threadsResolved := fun hmem => hnot (List.mem_append_right _ hmem)
  -- no thread of this id is moved by the first completion
  have hunresolved : p.id ∈ memory.unresolvedThreads.map UnresolvedThread.id ↔
      p.id ∈ held.unresolvedThreads.map UnresolvedThread.id := by
    rw [hopen]
    simp only [List.mem_map, mem_ordered, List.mem_append, stillOpen, List.mem_filter, decide_eq_true_eq]
    constructor
    · rintro ⟨thread, ⟨hthread, -⟩ | hthread, heq⟩
      · exact ⟨thread, hthread, heq⟩
      · exact absurd (heq ▸ mem_threadIds_of_introduced hthread) hnot
    · rintro ⟨thread, hthread, heq⟩
      exact ⟨thread, .inl ⟨hthread, heq ▸ hpaid⟩, heq⟩
  have hblocked : p.id ∈ memory.resolvedThreads.map ResolvedThread.id ↔
      p.id ∈ held.resolvedThreads.map ResolvedThread.id := by
    rw [(hresolved.map ResolvedThread.id).mem_iff, List.map_append, List.mem_append]
    refine or_iff_left fun hmem => ?_
    obtain ⟨thread, hthread, heq⟩ := List.mem_map.mp hmem
    obtain ⟨thread', hthread', rfl⟩ := List.mem_map.mp hthread
    exact hpaid (heq ▸ of_decide_eq_true (List.mem_filter.mp hthread').2)
  rw [isSome_blocked, isSome_blocked]
  exact or_congr hblocked hunresolved

/-- The open threads after both completions. -/
theorem unresolved_of_both {result : ContinuityMemory} (h : Updated held a now memory)
    (h' : Updated memory.toContinuityRecord b now result) :
    result.unresolvedThreads = ordered (openAfterBoth held a b ++
      introducedFrom (nextOrder held.unresolvedThreads) held a ++
      introducedFrom (nextOrder (stillOpen held a ++ introducedFrom (nextOrder held.unresolvedThreads) held a)) held b) := by
  have hfirst := (threads_of_updated h hunique hindependent.resolves).1
  have hsecond := (threads_of_updated h' memory.valid.unresolvedThreads.unique
    (resolves_after hindependent hunique h)).1
  have hnext : nextOrder memory.unresolvedThreads =
      nextOrder (stillOpen held a ++ introducedFrom (nextOrder held.unresolvedThreads) held a) := by
    rw [hfirst, nextOrder_ordered]
  have hnew : introducedFrom (nextOrder memory.unresolvedThreads) memory.toContinuityRecord b =
      introducedFrom (nextOrder memory.unresolvedThreads) held b := by
    rw [introducedFrom, newThreads_after hindependent hunique h]
    exact numbered_threadRules _ _ _ _ _
  have hleft : (stillOpen memory.toContinuityRecord b).Perm
      (openAfterBoth held a b ++ introducedFrom (nextOrder held.unresolvedThreads) held a) := by
    have hkept : (introducedFrom (nextOrder held.unresolvedThreads) held a).filter
        (fun thread => thread.id ∉ b.threadsResolved) = introducedFrom (nextOrder held.unresolvedThreads) held a := by
      refine List.filter_eq_self.mpr fun thread hthread => ?_
      simpa using not_resolved_by_other hindependent (mem_threadIds_of_introduced hthread)
    have hboth : (stillOpen held a).filter (fun thread => thread.id ∉ b.threadsResolved) = openAfterBoth held a b := by
      rw [stillOpen, openAfterBoth, List.filter_filter]
      exact List.filter_congr fun thread _ => by simp [Bool.and_comm]
    have hperm := (perm_ordered (stillOpen held a ++ introducedFrom (nextOrder held.unresolvedThreads) held a)).filter
      fun thread => thread.id ∉ b.threadsResolved
    rw [stillOpen, hfirst]
    refine hperm.trans (.of_eq ?_)
    rw [List.filter_append, hkept, hboth]
  have hresult : ((stillOpen memory.toContinuityRecord b ++
      introducedFrom (nextOrder memory.unresolvedThreads) memory.toContinuityRecord b).map MemoryEntry.id).Nodup := by
    have hvalid := result.valid.unresolvedThreads.unique
    rw [hsecond] at hvalid
    exact ((perm_ordered _).map MemoryEntry.id).nodup_iff.mp hvalid
  rw [hsecond]
  refine ordered_eq_of_perm ?_ hresult
  rw [hnew, hnext]
  exact hleft.append_right _

/-- The resolved threads after both completions. -/
theorem resolved_of_both {result : ContinuityMemory} (h : Updated held a now memory)
    (h' : Updated memory.toContinuityRecord b now result) :
    result.resolvedThreads.Perm (held.resolvedThreads ++ paidOff held a ++ paidOff held b) := by
  obtain ⟨hfirst, hresolved⟩ := threads_of_updated h hunique hindependent.resolves
  have hsecond := (threads_of_updated h' memory.valid.unresolvedThreads.unique
    (resolves_after hindependent hunique h)).2
  refine hsecond.trans (hresolved.append ?_)
  refine List.Perm.map _ ?_
  rw [hfirst]
  refine ((perm_ordered _).filter _).trans (.of_eq ?_)
  have hnone : (introducedFrom (nextOrder held.unresolvedThreads) held a).filter
      (fun thread => thread.id ∈ b.threadsResolved) = [] := by
    refine List.filter_eq_nil_iff.mpr fun thread hthread => ?_
    simpa using not_resolved_by_other hindependent (mem_threadIds_of_introduced hthread)
  rw [List.filter_append, hnone, List.append_nil, stillOpen, List.filter_filter]
  refine List.filter_congr fun thread _ => ?_
  have hother : thread.id ∈ b.threadsResolved → thread.id ∉ a.threadsResolved := fun hb ha =>
    hindependent.threads thread.id (List.mem_append_right _ ha) (List.mem_append_right _ hb)
  by_cases hb : thread.id ∈ b.threadsResolved <;> simp [hb, hother]

end Threads

/-! ## Both orders -/

/-- The first number of a thread that is introduced after a completion. -/
theorem nextOrder_introduced (held : ContinuityRecord) (a : ChapterCompletion) :
    nextOrder (stillOpen held a ++ introducedFrom (nextOrder held.unresolvedThreads) held a) =
      if newThreads held a = [] then nextOrder (stillOpen held a)
      else nextOrder held.unresolvedThreads + (newThreads held a).length := by
  have hle : nextOrder (stillOpen held a) ≤ nextOrder held.unresolvedThreads := nextOrder_filter_le _ _
  have hlast := nextOrder_numbered (lawful_threadRules held.resolvedThreads a) (nextOrder held.unresolvedThreads)
    (newThreads held a)
  rw [nextOrder_append, introducedFrom]
  split
  next hnil => simp [hnil, numbered, nextOrder]
  next hne =>
    have hpos := List.length_pos_iff.mpr hne
    omega

/-- The threads agree in both orders when their numbers do. -/
theorem threads_comm_iff (held : ContinuityRecord) (a b : ChapterCompletion) :
    (newThreads held a = [] ∨ nextOrder held.unresolvedThreads =
        nextOrder (stillOpen held b ++ introducedFrom (nextOrder held.unresolvedThreads) held b)) ∧
      (newThreads held b = [] ∨
        nextOrder (stillOpen held a ++ introducedFrom (nextOrder held.unresolvedThreads) held a) =
          nextOrder held.unresolvedThreads) ↔
    ¬ (newThreads held a ≠ [] ∧ newThreads held b ≠ []) ∧
      (newThreads held a ≠ [] → nextOrder (stillOpen held b) = nextOrder held.unresolvedThreads) ∧
      (newThreads held b ≠ [] → nextOrder (stillOpen held a) = nextOrder held.unresolvedThreads) := by
  rw [nextOrder_introduced, nextOrder_introduced]
  by_cases ha : newThreads held a = [] <;> by_cases hb : newThreads held b = []
  · simp [ha, hb]
  · simp [ha, hb]
  · simp [ha, hb, eq_comm]
  · have hpos := List.length_pos_iff.mpr hb
    simp only [ha, hb, if_false, false_or, ne_eq, not_false_eq_true, and_self, not_true_eq_false, false_and, iff_false]
    omega

theorem startingRecord_eq_ok {memory : Option ContinuityMemory} {storyId memoryId : Option String} {now : ℕ}
    {start : ContinuityRecord} (h : startingRecord memory storyId memoryId now = .ok start) :
    start.chapterSummaries = (contents memory).chapterSummaries ∧ start.canonFacts = (contents memory).canonFacts ∧
      start.timelineFacts = (contents memory).timelineFacts ∧
      start.unresolvedThreads = (contents memory).unresolvedThreads ∧
      start.resolvedThreads = (contents memory).resolvedThreads := by
  unfold startingRecord at h
  cases memory with
  | none =>
    simp only [] at h
    split at h
    · cases h
    · cases h
    · obtain rfl := Except.ok.inj h
      exact ⟨rfl, rfl, rfl, rfl, rfl⟩
  | some memory =>
    simp only [] at h
    split at h
    · cases h
    · obtain rfl := Except.ok.inj h
      exact ⟨rfl, rfl, rfl, rfl, rfl⟩

theorem startingRecord_some {memory : ContinuityMemory} {storyId memoryId : Option String} {now : ℕ}
    {start : ContinuityRecord} (h : startingRecord (some memory) storyId memoryId now = .ok start) :
    start = memory.toContinuityRecord := by
  unfold startingRecord at h
  simp only [] at h
  split at h
  · cases h
  · exact (Except.ok.inj h).symm

/-- The ids of each list of a memory are unique. -/
theorem unique_contents (memory : Option ContinuityMemory) :
    ((contents memory).canonFacts.map CanonFact.id).Nodup ∧
      ((contents memory).timelineFacts.map TimelineFact.id).Nodup ∧
      ((contents memory).unresolvedThreads.map UnresolvedThread.id).Nodup := by
  cases memory with
  | none => exact ⟨List.nodup_nil, List.nodup_nil, List.nodup_nil⟩
  | some memory =>
    exact ⟨memory.valid.canonFacts.unique, memory.valid.timelineFacts.unique, memory.valid.unresolvedThreads.unique⟩

theorem updateBoth_eq_ok {memory : Option ContinuityMemory} {a b : ChapterCompletion} {storyId memoryId : Option String}
    {now : ℕ} {result : ContinuityMemory} (h : updateBoth memory a b storyId memoryId now = .ok result) :
    ∃ start between, startingRecord memory storyId memoryId now = .ok start ∧ Updated start a now between ∧
      Updated between.toContinuityRecord b now result := by
  unfold updateBoth at h
  obtain ⟨first, hfirst, h⟩ := ok_of_bind h
  obtain ⟨second, hsecond, h⟩ := ok_of_bind h
  obtain rfl := Except.ok.inj h
  obtain ⟨start, hstart, hupdated⟩ := update_eq_ok hfirst
  obtain ⟨start', hstart', hupdated'⟩ := update_eq_ok hsecond
  exact ⟨start, first.memory, hstart, hupdated, startingRecord_some hstart' ▸ hupdated'⟩

/-- The summaries after both completions. -/
theorem summaries_of_both {held : ContinuityRecord} {a b : ChapterCompletion} {now : ℕ} {memory result : ContinuityMemory}
    (hchapters : a.chapterId ≠ b.chapterId) (h : Updated held a now memory)
    (h' : Updated memory.toContinuityRecord b now result) :
    result.chapterSummaries.Perm (held.chapterSummaries.filter (fun kept =>
      kept.chapterId != a.chapterId && kept.chapterId != b.chapterId) ++ [a.toSummary, b.toSummary]) := by
  have hkept : [a.toSummary].filter (fun kept => kept.chapterId != b.chapterId) = [a.toSummary] := by
    simpa [ChapterCompletion.toSummary] using hchapters
  rw [h'.chapterSummaries, h.chapterSummaries]
  refine (perm_ordered _).trans ((((perm_ordered _).filter _).append_right _).trans (.of_eq ?_))
  rw [List.filter_append, List.filter_filter, hkept, List.append_assoc]
  congr 1
  exact List.filter_congr fun kept _ => Bool.and_comm _ _

section BothOrders
variable {held : ContinuityRecord} {a b : ChapterCompletion} {now : ℕ} {between between' result result' : ContinuityMemory}

theorem facts_comm_iff (hindependent : Independent held a b) (hunique : (held.canonFacts.map CanonFact.id).Nodup)
    (h : Updated held a now between) (hnext : Updated between.toContinuityRecord b now result)
    (h' : Updated held b now between') (hnext' : Updated between'.toContinuityRecord a now result') :
    result.canonFacts = result'.canonFacts ↔ ¬ (AddsFact held a ∧ AddsFact held b) := by
  rw [addsFact_iff, addsFact_iff, hnext.canonFacts, hnext'.canonFacts]
  unfold newFacts
  rw [h.canonFacts, h'.canonFacts]
  exact merges_comm_iff (lawful_canonRules a) (lawful_canonRules b) hunique hindependent.facts

theorem events_comm_iff (hindependent : Independent held a b) (hunique : (held.timelineFacts.map TimelineFact.id).Nodup)
    (h : Updated held a now between) (hnext : Updated between.toContinuityRecord b now result)
    (h' : Updated held b now between') (hnext' : Updated between'.toContinuityRecord a now result') :
    result.timelineFacts = result'.timelineFacts ↔ ¬ (AddsEvent held a ∧ AddsEvent held b) := by
  rw [addsEvent_iff, addsEvent_iff, hnext.timelineFacts, hnext'.timelineFacts]
  unfold newEvents
  rw [h.timelineFacts, h'.timelineFacts]
  exact merges_comm_iff (lawful_timelineRules a) (lawful_timelineRules b) hunique hindependent.events

theorem open_comm_iff (hindependent : Independent held a b)
    (hunique : (held.unresolvedThreads.map UnresolvedThread.id).Nodup)
    (h : Updated held a now between) (hnext : Updated between.toContinuityRecord b now result)
    (h' : Updated held b now between') (hnext' : Updated between'.toContinuityRecord a now result') :
    result.unresolvedThreads = result'.unresolvedThreads ↔ ¬ (AddsThread held a ∧ AddsThread held b) ∧
      (AddsThread held a → nextOrder (stillOpen held b) = nextOrder held.unresolvedThreads) ∧
      (AddsThread held b → nextOrder (stillOpen held a) = nextOrder held.unresolvedThreads) := by
  have hleft := unresolved_of_both hindependent hunique h hnext
  have hright := unresolved_of_both hindependent.symm hunique h' hnext'
  have hvalid := result.valid.unresolvedThreads.unique
  rw [hleft] at hvalid
  rw [addsThread_iff, addsThread_iff, hleft, hright, openAfterBoth_comm held b a, ← threads_comm_iff]
  exact ordered_append_iff (lawful_threadRules _ a) (lawful_threadRules _ b)
    (((perm_ordered _).map MemoryEntry.id).nodup_iff.mp hvalid)

/-- Summaries and resolved threads keep the orders they were given. -/
theorem summaries_comm (hchapters : a.chapterId ≠ b.chapterId) (h : Updated held a now between)
    (hnext : Updated between.toContinuityRecord b now result) (h' : Updated held b now between')
    (hnext' : Updated between'.toContinuityRecord a now result') :
    result.chapterSummaries = result'.chapterSummaries := by
  have hperm : result.chapterSummaries.Perm result'.chapterSummaries := by
    refine (summaries_of_both hchapters h hnext).trans (.trans ?_ (summaries_of_both hchapters.symm h' hnext').symm)
    refine List.Perm.append (.of_eq (List.filter_congr fun kept _ => Bool.and_comm _ _)) (.swap ..)
  have hunique := result.valid.chapterSummaries.unique
  rw [hnext.chapterSummaries, hnext'.chapterSummaries] at hperm ⊢
  rw [hnext.chapterSummaries] at hunique
  exact ordered_eq_of_perm ((perm_ordered _).symm.trans (hperm.trans (perm_ordered _)))
    (((perm_ordered _).map MemoryEntry.id).nodup_iff.mp hunique)

theorem resolved_comm (hindependent : Independent held a b)
    (hunique : (held.unresolvedThreads.map UnresolvedThread.id).Nodup)
    (h : Updated held a now between) (hnext : Updated between.toContinuityRecord b now result)
    (h' : Updated held b now between') (hnext' : Updated between'.toContinuityRecord a now result') :
    result.resolvedThreads = result'.resolvedThreads := by
  have hperm : result.resolvedThreads.Perm result'.resolvedThreads := by
    refine (resolved_of_both hindependent hunique h hnext).trans
      (.trans ?_ (resolved_of_both hindependent.symm hunique h' hnext').symm)
    rw [List.append_assoc, List.append_assoc]
    exact List.perm_append_comm.append_left _
  have hids := result.valid.resolvedThreads.unique
  rw [hnext.resolvedThreads, hnext'.resolvedThreads] at hperm ⊢
  rw [hnext.resolvedThreads] at hids
  exact ordered_eq_of_perm ((perm_ordered _).symm.trans (hperm.trans (perm_ordered _)))
    (((perm_ordered _).map MemoryEntry.id).nodup_iff.mp hids)

end BothOrders

/-- Two completions that have nothing in common leave the same memory in both orders just
when the numbers they give agree. -/
theorem mergesCommute_iff {memory : Option ContinuityMemory} {a b : ChapterCompletion}
    {storyId memoryId : Option String} {now : ℕ} {result result' : ContinuityMemory}
    (hindependent : Independent (contents memory) a b)
    (h : updateBoth memory a b storyId memoryId now = .ok result)
    (h' : updateBoth memory b a storyId memoryId now = .ok result') :
    result = result' ↔ Commutes (contents memory) a b := by
  obtain ⟨start, between, hstart, hfirst, hsecond⟩ := updateBoth_eq_ok h
  obtain ⟨start', between', hstart', hfirst', hsecond'⟩ := updateBoth_eq_ok h'
  obtain rfl := Except.ok.inj (hstart.symm.trans hstart')
  obtain ⟨-, hcanon, htimeline, hopen, hresolved⟩ := startingRecord_eq_ok hstart
  obtain ⟨hfacts, hevents, hthreads⟩ := unique_contents memory
  have hstarts : Independent start a b := { hindependent with
    resolves := hopen ▸ hindependent.resolves
    resolves' := hopen ▸ hindependent.resolves' }
  rw [← hcanon] at hfacts
  rw [← htimeline] at hevents
  rw [← hopen] at hthreads
  have hfacts' := facts_comm_iff hstarts hfacts hfirst hsecond hfirst' hsecond'
  have hevents' := events_comm_iff hstarts hevents hfirst hsecond hfirst' hsecond'
  have hopen' := open_comm_iff hstarts hthreads hfirst hsecond hfirst' hsecond'
  have hsummaries := summaries_comm hstarts.chapters hfirst hsecond hfirst' hsecond'
  unfold AddsFact at hfacts'
  unfold AddsEvent at hevents'
  unfold AddsThread stillOpen at hopen'
  rw [hcanon] at hfacts'
  rw [htimeline] at hevents'
  rw [hopen, hresolved] at hopen'
  constructor
  · rintro rfl
    obtain ⟨hboth, hlast, hlast'⟩ := hopen'.mp rfl
    exact ⟨hfacts'.mp rfl, hevents'.mp rfl, hboth, hlast, hlast'⟩
  · intro hcommutes
    refine ContinuityMemory.ext_iff.mpr (ContinuityRecord.ext ?_ ?_ ?_ hsummaries (hfacts'.mpr hcommutes.facts)
      (hevents'.mpr hcommutes.events) (hopen'.mpr ⟨hcommutes.threads, hcommutes.last, hcommutes.last'⟩)
      (resolved_comm hstarts hthreads hfirst hsecond hfirst' hsecond') ?_ ?_)
    · rw [hsecond.id, hfirst.id, hsecond'.id, hfirst'.id]
    · rw [hsecond.storyId, hfirst.storyId, hsecond'.storyId, hfirst'.storyId]
    · rw [hsecond.asOf, hsecond'.asOf, hsummaries]
    · rw [hsecond.createdAt, hfirst.createdAt, hsecond'.createdAt, hfirst'.createdAt]
    · rw [hsecond.updatedAt, hsecond'.updatedAt]

/-- Two chapters that each establish a fact. -/
def keeperChapter : ChapterCompletion where
  chapterId := "chapter_01"
  order := 0
  summary := "The keeper arrives."
  canonFacts := [{ id := "keeper", subject := "the keeper", fact := "is left-handed" }]

def towerChapter : ChapterCompletion where
  chapterId := "chapter_02"
  order := 1
  summary := "The tower is shut."
  canonFacts := [{ id := "tower", subject := "the tower", fact := "has no door" }]

theorem independent_keeperTower : Independent (contents none) keeperChapter towerChapter where
  chapters := by decide
  facts := by decide
  events := by decide
  threads := by decide
  resolves := by decide
  resolves' := by decide

/-- Both orders of the two chapters, and whether their canon facts differ. -/
theorem exists_keeperTower : ∃ result result',
    updateBoth none keeperChapter towerChapter (some "lantern") none 0 = .ok result ∧
      updateBoth none towerChapter keeperChapter (some "lantern") none 0 = .ok result' ∧
      result.canonFacts ≠ result'.canonFacts := by
  have hruns : ((updateBoth none keeperChapter towerChapter (some "lantern") none 0).toOption.bind fun result =>
      (updateBoth none towerChapter keeperChapter (some "lantern") none 0).toOption.map fun result' =>
        decide (result.canonFacts ≠ result'.canonFacts)) = some true := by decide +kernel
  obtain ⟨result, hresult, hrest⟩ := Option.bind_eq_some_iff.mp hruns
  obtain ⟨result', hresult', hdiffer⟩ := Option.map_eq_some_iff.mp hrest
  exact ⟨result, result', ok_of_toOption hresult, ok_of_toOption hresult', of_decide_eq_true hdiffer⟩

/-- The first fact that is merged gets the number 0. -/
theorem not_mergesCommute_keeperTower : Independent (contents none) keeperChapter towerChapter ∧
    ∃ result result', updateBoth none keeperChapter towerChapter (some "lantern") none 0 = .ok result ∧
      updateBoth none towerChapter keeperChapter (some "lantern") none 0 = .ok result' ∧ result ≠ result' := by
  obtain ⟨result, result', h, h', hdiffer⟩ := exists_keeperTower
  exact ⟨independent_keeperTower, result, result', h, h', fun heq => hdiffer (heq ▸ rfl)⟩

theorem mergesCommute_iff_keeperTower : ∃ result result',
    updateBoth none keeperChapter towerChapter (some "lantern") none 0 = .ok result ∧
      updateBoth none towerChapter keeperChapter (some "lantern") none 0 = .ok result' ∧
      (result = result' ↔ Commutes (contents none) keeperChapter towerChapter) := by
  obtain ⟨result, result', h, h', -⟩ := exists_keeperTower
  exact ⟨result, result', h, h', mergesCommute_iff independent_keeperTower h h'⟩

end CreativeStudio.Story
