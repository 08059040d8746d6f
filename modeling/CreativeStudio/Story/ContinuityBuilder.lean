import CreativeStudio.Story.Continuity

/-!
# Merging a completed chapter

`updateContinuityMemory` folds a chapter's contribution into the memory. The merges of
facts and of threads run one loop over the proposals: an id that is known is compared
with its entry, a new one is numbered behind the list. `merge_eq_ok` says what the loop
returns, `resolve_spec` what paying off threads does.
-/

namespace CreativeStudio.Story

/-- `_next_order`: one more than the largest order, or 0. -/
def nextOrder {α : Type} [MemoryEntry α] (items : List α) : ℕ :=
  (items.map fun item => MemoryEntry.order item + 1).foldr max 0

/-- `!r` of a text without quotes and control characters. -/
def quote (text : String) : String := "'" ++ text ++ "'"

/-- A field that may be `None`, as a message shows it. -/
def quoteOptional : Option String → String
  | none => "None"
  | some text => quote text

/-! ## The loop over proposals -/

section Merge
variable {α π : Type} [MemoryEntry α]

/-- What one merge does with a proposal. -/
structure MergeRules (α π : Type) where
  /-- `proposed.id`. -/
  idOf : π → String
  /-- A proposal that is passed over, with the conflict it leaves, if any. -/
  blocked : π → Option (Option String)
  /-- The entry that a new id is given, under its order. -/
  make : π → ℕ → α
  /-- The conflict between an entry and a proposal of its id. -/
  conflict : α → π → Option String

/-- The loop's variables: `result`, `order`, and `conflicts`. -/
structure Merging (α : Type) where
  result : List α
  order : ℕ
  conflicts : List String

/-- One turn of the loop. `by_id` holds the entries of `result`. -/
def mergeOne (rules : MergeRules α π) (state : Merging α) (proposed : π) : Except Exc (Merging α) :=
  match rules.blocked proposed with
  | some found => .ok { state with conflicts := state.conflicts ++ found.toList }
  | none =>
    match state.result.find? fun item => MemoryEntry.id item == rules.idOf proposed with
    | none => (construct (rules.make proposed state.order)).map fun item =>
        { state with result := state.result ++ [item], order := state.order + 1 }
    | some current =>
      .ok { state with conflicts := state.conflicts ++ (rules.conflict current proposed).toList }

/-- The merge of a list of proposals into the entries there are. -/
def merge (rules : MergeRules α π) (existing : List α) (proposals : List π) :
    Except Exc (List α × List String) :=
  (proposals.foldlM (mergeOne rules)
    { result := existing, order := nextOrder existing, conflicts := [] }).map fun state =>
      (state.result, state.conflicts)

end Merge

/-- `_upsert_chapter_summary`. -/
def upsertChapterSummary (existing : List ChapterSummary) (completion : ChapterCompletion) :
    Except Exc (List ChapterSummary) :=
  (construct ({
    chapterId := completion.chapterId
    order := completion.order
    summary := completion.summary } : ChapterSummary)).map fun item =>
      existing.filter (fun kept => kept.chapterId != completion.chapterId) ++ [item]

def canonRules (completion : ChapterCompletion) : MergeRules CanonFact ProposedCanonFact where
  idOf := ProposedCanonFact.id
  blocked _ := none
  make proposed order := {
    id := proposed.id
    subject := proposed.subject
    fact := proposed.fact
    order
    sourceChapterId := some completion.chapterId }
  conflict current proposed :=
    if current.subject = proposed.subject ∧ current.fact = proposed.fact then none
    else some (s!"canon_fact {quote proposed.id} from chapter {quote completion.chapterId} " ++
      s!"({quote proposed.fact}) conflicts with the existing fact ({quote current.fact}, established in " ++
      s!"chapter {quoteOptional current.sourceChapterId}); kept the existing fact")

/-- `_merge_canon_facts`. -/
def mergeCanonFacts (existing : List CanonFact) (completion : ChapterCompletion) :
    Except Exc (List CanonFact × List String) :=
  merge (canonRules completion) existing completion.canonFacts

def timelineRules (completion : ChapterCompletion) : MergeRules TimelineFact ProposedTimelineFact where
  idOf := ProposedTimelineFact.id
  blocked _ := none
  make proposed order := {
    id := proposed.id
    description := proposed.description
    order
    sourceChapterId := some completion.chapterId }
  conflict current proposed :=
    if current.description = proposed.description then none
    else some (s!"timeline_fact {quote proposed.id} from chapter {quote completion.chapterId} " ++
      s!"({quote proposed.description}) conflicts with the existing fact ({quote current.description}, " ++
      s!"established in chapter {quoteOptional current.sourceChapterId}); kept the existing fact")

/-- `_merge_timeline_facts`. -/
def mergeTimelineFacts (existing : List TimelineFact) (completion : ChapterCompletion) :
    Except Exc (List TimelineFact × List String) :=
  merge (timelineRules completion) existing completion.timelineFacts

/-- A thread that was resolved is not reopened. -/
def threadRules (resolved : List ResolvedThread) (completion : ChapterCompletion) :
    MergeRules UnresolvedThread ProposedThread where
  idOf := ProposedThread.id
  blocked proposed := (resolved.find? fun item => item.id == proposed.id).map fun alreadyResolved =>
    if alreadyResolved.description = proposed.description then none
    else some (s!"thread {quote proposed.id} from chapter {quote completion.chapterId} conflicts with an " ++
      s!"already-resolved thread of the same id (resolved in chapter " ++
      s!"{quoteOptional alreadyResolved.resolvedChapterId}); not reopened")
  make proposed order := {
    id := proposed.id
    description := proposed.description
    order
    introducedChapterId := some completion.chapterId }
  conflict current proposed :=
    if current.description = proposed.description then none
    else some (s!"thread {quote proposed.id} from chapter {quote completion.chapterId} " ++
      s!"({quote proposed.description}) conflicts with the existing open thread " ++
      s!"({quote current.description}, introduced in chapter " ++
      s!"{quoteOptional current.introducedChapterId}); kept the existing thread")

/-- `_merge_threads_introduced`. -/
def mergeThreadsIntroduced (existing : List UnresolvedThread) (resolved : List ResolvedThread)
    (completion : ChapterCompletion) : Except Exc (List UnresolvedThread × List String) :=
  merge (threadRules resolved completion) existing completion.threadsIntroduced

/-! ## Paying off threads -/

/-- The record of a thread that a chapter pays off. -/
def UnresolvedThread.resolve (thread : UnresolvedThread) (chapterId : String) : ResolvedThread where
  id := thread.id
  description := thread.description
  order := thread.order
  introducedChapterId := thread.introducedChapterId
  resolvedChapterId := some chapterId

/-- The loop's variables: `remaining`, `newly_resolved`, and `conflicts`. -/
structure Resolving where
  remaining : List UnresolvedThread
  newlyResolved : List ResolvedThread
  conflicts : List String

/-- One turn of the loop. `resolved_ids` holds the ids of `newly_resolved`. -/
def resolveOne (completion : ChapterCompletion) (state : Resolving) (threadId : String) : Resolving :=
  match state.remaining.find? fun item => item.id == threadId with
  | some thread => { state with
      remaining := state.remaining.filter fun item => item.id != threadId
      newlyResolved := state.newlyResolved ++ [thread.resolve completion.chapterId] }
  | none =>
    if threadId ∈ state.newlyResolved.map ResolvedThread.id then state
    else { state with conflicts := state.conflicts ++
      [s!"chapter {quote completion.chapterId} resolves thread {quote threadId}, " ++
        "which is not an open or previously resolved thread"] }

/-- `_apply_thread_resolutions`. -/
def applyThreadResolutions (unresolved : List UnresolvedThread) (resolved : List ResolvedThread)
    (completion : ChapterCompletion) : Resolving :=
  completion.threadsResolved.foldl (resolveOne completion)
    { remaining := unresolved, newlyResolved := resolved, conflicts := [] }

/-! ## The update -/

/-- The key a list is stored by: `(item.order, item.id)`. -/
def Precedes {α : Type} [MemoryEntry α] (a b : α) : Prop :=
  MemoryEntry.order a < MemoryEntry.order b ∨ (MemoryEntry.order a = MemoryEntry.order b ∧ MemoryEntry.id a ≤ MemoryEntry.id b)

instance {α : Type} [MemoryEntry α] : DecidableRel (Precedes (α := α)) := fun a b =>
  inferInstanceAs (Decidable (MemoryEntry.order a < MemoryEntry.order b ∨ (MemoryEntry.order a = MemoryEntry.order b ∧ MemoryEntry.id a ≤ MemoryEntry.id b)))

/-- A list in its stored order. -/
def ordered {α : Type} [MemoryEntry α] (items : List α) : List α := items.insertionSort Precedes

/-- The record that a completion is merged into. -/
def startingRecord (memory : Option ContinuityMemory) (storyId memoryId : Option String) (now : ℕ) :
    Except Exc ContinuityRecord :=
  match memory with
  | none =>
    match storyId with
    | none | some "" => .error (.value ("story_id is required to start continuity memory for a story " ++
        "with no existing ContinuityMemory record"))
    | some storyId => .ok {
        id := match memoryId with
          | none | some "" => "continuity_" ++ storyId
          | some memoryId => memoryId
        storyId
        createdAt := now
        updatedAt := now }
  | some memory =>
    if storyId.isSome ∧ storyId ≠ some memory.storyId then
      .error (.value (s!"completion targets story_id {quoteOptional storyId} but memory " ++
        s!"{quote memory.id} belongs to story_id {quote memory.storyId}"))
    else .ok memory.toContinuityRecord

/-- `update_continuity_memory`. -/
def updateContinuityMemory (memory : Option ContinuityMemory) (completion : ChapterCompletion)
    (storyId memoryId : Option String) (now : ℕ) : Except Exc ContinuityUpdateResult := do
  let start ← startingRecord memory storyId memoryId now
  let chapterSummaries ← upsertChapterSummary start.chapterSummaries completion
  let (canonFacts, factConflicts) ← mergeCanonFacts start.canonFacts completion
  let (timelineFacts, timelineConflicts) ← mergeTimelineFacts start.timelineFacts completion
  let (introduced, introduceConflicts) ←
    mergeThreadsIntroduced start.unresolvedThreads start.resolvedThreads completion
  let resolving := applyThreadResolutions introduced start.resolvedThreads completion
  let chapterSummaries := ordered chapterSummaries
  let updatedMemory ← ContinuityRecord.build {
    id := start.id
    storyId := start.storyId
    -- the chapter of the highest order that has a summary
    asOfChapterId := chapterSummaries.getLast?.map ChapterSummary.chapterId
    chapterSummaries
    canonFacts := ordered canonFacts
    timelineFacts := ordered timelineFacts
    unresolvedThreads := ordered resolving.remaining
    resolvedThreads := ordered resolving.newlyResolved
    createdAt := start.createdAt
    updatedAt := now }
  return {
    memory := updatedMemory
    conflicts := factConflicts ++ timelineConflicts ++ introduceConflicts ++ resolving.conflicts }

/-! ## The stored order -/

section Ordered
variable {α : Type} [MemoryEntry α] {a b : List α}

instance : Std.Total (Precedes (α := α)) where
  total a b := by
    unfold Precedes
    rcases lt_trichotomy (MemoryEntry.order a) (MemoryEntry.order b) with h | h | h
    · exact .inl (.inl h)
    · rcases le_total (MemoryEntry.id a) (MemoryEntry.id b) with hid | hid
      · exact .inl (.inr ⟨h, hid⟩)
      · exact .inr (.inr ⟨h.symm, hid⟩)
    · exact .inr (.inl h)

instance : IsTrans α Precedes where
  trans a b c := by
    rintro (hab | ⟨hab, hid⟩) (hbc | ⟨hbc, hid'⟩)
    · exact .inl (hab.trans hbc)
    · exact .inl (hbc ▸ hab)
    · exact .inl (hab ▸ hbc)
    · exact .inr ⟨hab.trans hbc, hid.trans hid'⟩

theorem id_eq_of_precedes {x y : α} (h : Precedes x y) (h' : Precedes y x) : MemoryEntry.id x = MemoryEntry.id y := by
  rcases h with h | ⟨h, hid⟩
  · rcases h' with h' | ⟨h', -⟩
    · exact absurd h (lt_asymm h')
    · exact absurd h (by omega)
  · rcases h' with h' | ⟨-, hid'⟩
    · exact absurd h' (by omega)
    · exact le_antisymm hid hid'

theorem perm_ordered (items : List α) : (ordered items).Perm items := List.perm_insertionSort _ _

theorem pairwise_ordered (items : List α) : (ordered items).Pairwise Precedes :=
  List.pairwise_insertionSort _ _

@[simp] theorem mem_ordered {items : List α} {item : α} : item ∈ ordered items ↔ item ∈ items :=
  (perm_ordered items).mem_iff

/-- An entry is determined by its id where ids are unique. -/
theorem eq_of_id {items : List α} (hunique : (items.map MemoryEntry.id).Nodup) {x y : α} (hx : x ∈ items)
    (hy : y ∈ items) (h : MemoryEntry.id x = MemoryEntry.id y) : x = y :=
  List.inj_on_of_nodup_map hunique hx hy h

/-- The one entry of an id. -/
theorem filter_eq_singleton {items : List α} (hunique : (items.map MemoryEntry.id).Nodup) {item : α} (h : item ∈ items)
    {id : String} (hid : MemoryEntry.id item = id) : items.filter (fun other => MemoryEntry.id other == id) = [item] := by
  have hnodup := (List.Nodup.of_map _ hunique).filter fun other => MemoryEntry.id other == id
  refine List.perm_singleton.mp ((List.perm_ext_iff_of_nodup hnodup (List.nodup_singleton item)).mpr fun x => ?_)
  rw [List.mem_filter, List.mem_singleton, beq_iff_eq]
  constructor
  · rintro ⟨hx, hsame⟩
    exact eq_of_id hunique hx h (hsame.trans hid.symm)
  · rintro rfl
    exact ⟨h, hid⟩

/-- Entries with unique ids have one stored order. -/
theorem ordered_eq_of_perm (h : a.Perm b) (hunique : (a.map MemoryEntry.id).Nodup) : ordered a = ordered b := by
  have hperm : (ordered a).Perm (ordered b) := (perm_ordered a).trans (h.trans (perm_ordered b).symm)
  refine hperm.eq_of_pairwise (fun x y hx hy hxy hyx => ?_) (pairwise_ordered a) (pairwise_ordered b)
  exact eq_of_id hunique (mem_ordered.mp hx) (h.mem_iff.mpr (mem_ordered.mp hy)) (id_eq_of_precedes hxy hyx)

theorem nextOrder_of_perm (h : a.Perm b) : nextOrder a = nextOrder b := by
  have hmap := h.map fun item => MemoryEntry.order item + 1
  exact hmap.foldr_eq' (fun x _ y _ z => max_left_comm y x z) 0

@[simp] theorem nextOrder_append (a b : List α) : nextOrder (a ++ b) = max (nextOrder a) (nextOrder b) := by
  induction a with
  | nil => simp [nextOrder]
  | cons x rest ih =>
    unfold nextOrder at ih ⊢
    rw [List.cons_append, List.map_cons, List.foldr_cons, ih, List.map_cons, List.foldr_cons, max_assoc]

theorem nextOrder_filter_le (keep : α → Bool) (items : List α) : nextOrder (items.filter keep) ≤ nextOrder items := by
  have hsplit := nextOrder_of_perm (List.filter_append_perm keep items)
  rw [nextOrder_append] at hsplit
  omega

@[simp] theorem nextOrder_ordered (items : List α) : nextOrder (ordered items) = nextOrder items :=
  nextOrder_of_perm (perm_ordered items)

end Ordered

/-! ## What a merge returns -/

section Fresh
variable {α π : Type} {rules : MergeRules α π}

/-- The proposals that a merge adds: the first of each new id. -/
def freshOnes (rules : MergeRules α π) (known : List String) : List π → List π
  | [] => []
  | proposed :: rest =>
    if (rules.blocked proposed).isSome ∨ rules.idOf proposed ∈ known then freshOnes rules known rest
    else proposed :: freshOnes rules (rules.idOf proposed :: known) rest

/-- Entries for proposals, numbered from a start. -/
def numbered (rules : MergeRules α π) (start : ℕ) : List π → List α
  | [] => []
  | proposed :: rest => rules.make proposed start :: numbered rules (start + 1) rest

/-- Only whether a proposal's id is known counts. -/
theorem freshOnes_congr {rules' : MergeRules α π} (hid : rules.idOf = rules'.idOf) {known known' : List String}
    {proposals : List π} (h : ∀ p ∈ proposals, ((rules.blocked p).isSome ∨ rules.idOf p ∈ known) ↔
      ((rules'.blocked p).isSome ∨ rules'.idOf p ∈ known')) :
    freshOnes rules known proposals = freshOnes rules' known' proposals := by
  induction proposals generalizing known known' with
  | nil => rfl
  | cons p rest ih =>
    have hrest := fun q hq => h q (List.mem_cons_of_mem p hq)
    rw [freshOnes, freshOnes]
    by_cases hp : (rules.blocked p).isSome ∨ rules.idOf p ∈ known
    · rw [if_pos hp, if_pos ((h p List.mem_cons_self).mp hp), ih hrest]
    · rw [if_neg hp, if_neg fun hp' => hp ((h p List.mem_cons_self).mpr hp')]
      refine congrArg (p :: ·) (ih fun q hq => ?_)
      have hq' := hrest q hq
      simp only [List.mem_cons, hid] at hq' ⊢
      tauto

theorem mem_freshOnes {known : List String} {proposals : List π} {p : π} (h : p ∈ freshOnes rules known proposals) :
    p ∈ proposals ∧ rules.idOf p ∉ known := by
  induction proposals generalizing known with
  | nil => cases h
  | cons q rest ih =>
    rw [freshOnes] at h
    split at h
    · exact ⟨List.mem_cons_of_mem q (ih h).1, (ih h).2⟩
    next hq =>
      rcases List.mem_cons.mp h with rfl | h
      · exact ⟨List.mem_cons_self, fun hmem => hq (.inr hmem)⟩
      · exact ⟨List.mem_cons_of_mem q (ih h).1, fun hmem => (ih h).2 (List.mem_cons_of_mem _ hmem)⟩

theorem nodup_freshOnes (known : List String) (proposals : List π) :
    ((freshOnes rules known proposals).map rules.idOf).Nodup := by
  induction proposals generalizing known with
  | nil => exact List.nodup_nil
  | cons q rest ih =>
    rw [freshOnes]
    split
    · exact ih known
    · rw [List.map_cons, List.nodup_cons]
      refine ⟨fun hmem => ?_, ih _⟩
      obtain ⟨p, hp, heq⟩ := List.mem_map.mp hmem
      exact (mem_freshOnes hp).2 (heq ▸ List.mem_cons_self)

/-- Nothing is added when every id is known. -/
theorem freshOnes_ne_nil {known : List String} {proposals : List π} :
    freshOnes rules known proposals ≠ [] ↔
      ∃ p ∈ proposals, ¬ ((rules.blocked p).isSome ∨ rules.idOf p ∈ known) := by
  induction proposals with
  | nil => simp [freshOnes]
  | cons q rest ih =>
    rw [freshOnes]
    split
    next hq => rw [ih, List.exists_mem_cons_iff, not_not.mpr hq |> eq_false, false_or]
    next hq => exact iff_of_true (by simp) ⟨q, List.mem_cons_self, hq⟩

variable [MemoryEntry α]

/-- An entry has the id of its proposal and the order it is given. -/
structure MergeRules.Lawful (rules : MergeRules α π) : Prop where
  id_make : ∀ proposed order, MemoryEntry.id (rules.make proposed order) = rules.idOf proposed
  order_make : ∀ proposed order, MemoryEntry.order (rules.make proposed order) = order

theorem lawful_canonRules (completion : ChapterCompletion) : (canonRules completion).Lawful :=
  ⟨fun _ _ => rfl, fun _ _ => rfl⟩

theorem lawful_timelineRules (completion : ChapterCompletion) : (timelineRules completion).Lawful :=
  ⟨fun _ _ => rfl, fun _ _ => rfl⟩

theorem lawful_threadRules (resolved : List ResolvedThread) (completion : ChapterCompletion) :
    (threadRules resolved completion).Lawful := ⟨fun _ _ => rfl, fun _ _ => rfl⟩

theorem ids_numbered (hrules : rules.Lawful) (start : ℕ) (proposals : List π) :
    (numbered rules start proposals).map MemoryEntry.id = proposals.map rules.idOf := by
  induction proposals generalizing start with
  | nil => rfl
  | cons p rest ih => rw [numbered, List.map_cons, hrules.id_make, ih, List.map_cons]

/-- New entries end right behind the list they are numbered for. -/
theorem nextOrder_numbered (hrules : rules.Lawful) (start : ℕ) (proposals : List π) :
    max start (nextOrder (numbered rules start proposals)) = start + proposals.length := by
  induction proposals generalizing start with
  | nil => simp [numbered, nextOrder]
  | cons p rest ih =>
    have hrest := ih (start + 1)
    have hcons : nextOrder (numbered rules start (p :: rest)) =
        max (start + 1) (nextOrder (numbered rules (start + 1) rest)) := by
      rw [numbered, nextOrder, List.map_cons, List.foldr_cons, hrules.order_make, nextOrder]
    rw [hcons, hrest, List.length_cons]
    omega

/-- The loop adds the first proposal of each new id, in order. -/
theorem foldlM_mergeOne (hrules : rules.Lawful) {proposals : List π} {state state' : Merging α}
    (h : proposals.foldlM (mergeOne rules) state = .ok state') :
    state'.result = state.result ++
      numbered rules state.order (freshOnes rules (state.result.map MemoryEntry.id) proposals) := by
  induction proposals generalizing state with
  | nil =>
    obtain rfl := Except.ok.inj h
    simp [freshOnes, numbered]
  | cons p rest ih =>
    rw [List.foldlM_cons] at h
    obtain ⟨next, hnext, hrest⟩ := ok_of_bind h
    rw [ih hrest, freshOnes]
    unfold mergeOne at hnext
    cases hblocked : rules.blocked p with
    | some found =>
      rw [hblocked] at hnext
      obtain rfl := Except.ok.inj hnext
      simp
    | none =>
      rw [hblocked] at hnext
      cases hfind : state.result.find? fun item => MemoryEntry.id item == rules.idOf p with
      | some current =>
        rw [hfind] at hnext
        obtain rfl := Except.ok.inj hnext
        have hknown : rules.idOf p ∈ state.result.map MemoryEntry.id := by
          have hid : MemoryEntry.id current = rules.idOf p := by simpa using List.find?_some hfind
          exact List.mem_map.mpr ⟨current, List.mem_of_find?_eq_some hfind, hid⟩
        rw [if_pos (.inr hknown)]
      | none =>
        rw [hfind] at hnext
        obtain ⟨item, hitem, rfl⟩ := ok_of_map hnext
        have hmade : item = rules.make p state.order := by
          unfold construct at hitem
          split at hitem
          · exact (Except.ok.inj hitem).symm
          · cases hitem
        subst hmade
        have hnew : rules.idOf p ∉ state.result.map MemoryEntry.id := by
          intro hmem
          obtain ⟨item, hitem, hid⟩ := List.mem_map.mp hmem
          exact List.find?_eq_none.mp hfind item hitem (by simpa using hid)
        rw [if_neg (by simp [hnew]), numbered, List.append_assoc]
        have hknown : freshOnes rules ((state.result ++ [rules.make p state.order]).map MemoryEntry.id) rest =
            freshOnes rules (rules.idOf p :: state.result.map MemoryEntry.id) rest :=
          freshOnes_congr rfl fun q _ => by simp [hrules.id_make, or_comm]
        rw [hknown]
        rfl

/-- What a merge adds to the entries there are. -/
def added (rules : MergeRules α π) (existing : List α) (proposals : List π) : List π :=
  freshOnes rules (existing.map MemoryEntry.id) proposals

theorem merge_eq_ok (hrules : rules.Lawful) {existing : List α} {proposals : List π}
    {result : List α × List String} (h : merge rules existing proposals = .ok result) :
    result.1 = existing ++ numbered rules (nextOrder existing) (added rules existing proposals) := by
  obtain ⟨state, hstate, rfl⟩ := ok_of_map h
  exact foldlM_mergeOne hrules hstate

theorem nodup_merged (hrules : rules.Lawful) {existing : List α} (hunique : (existing.map MemoryEntry.id).Nodup)
    (start : ℕ) (proposals : List π) :
    ((existing ++ numbered rules start (added rules existing proposals)).map MemoryEntry.id).Nodup := by
  rw [List.map_append, ids_numbered hrules, List.nodup_append]
  refine ⟨hunique, nodup_freshOnes _ _, fun x hx y hy heq => ?_⟩
  obtain ⟨p, hp, rfl⟩ := List.mem_map.mp hy
  exact (mem_freshOnes hp).2 (heq ▸ hx)

end Fresh

/-! ## What paying off threads does -/

/-- The threads that are open and paid off, and what becomes of the lists. -/
theorem foldl_resolveOne (completion : ChapterCompletion) (threadIds : List String) {state : Resolving}
    (hunique : (state.remaining.map UnresolvedThread.id).Nodup) :
    (threadIds.foldl (resolveOne completion) state).remaining =
        state.remaining.filter (fun item => item.id ∉ threadIds) ∧
      (threadIds.foldl (resolveOne completion) state).newlyResolved.Perm (state.newlyResolved ++
        (state.remaining.filter fun item => item.id ∈ threadIds).map (·.resolve completion.chapterId)) := by
  induction threadIds generalizing state with
  | nil => simp
  | cons threadId rest ih =>
    rw [List.foldl_cons]
    cases hfind : state.remaining.find? fun item => item.id == threadId with
    | none =>
      -- no open thread of that id: the lists stay as they are
      have hnot : ∀ item ∈ state.remaining, item.id ≠ threadId := fun item hitem => by
        simpa using List.find?_eq_none.mp hfind item hitem
      have hsame : (resolveOne completion state threadId).remaining = state.remaining ∧
          (resolveOne completion state threadId).newlyResolved = state.newlyResolved := by
        unfold resolveOne
        rw [hfind]
        simp only []
        split <;> exact ⟨rfl, rfl⟩
      have hrest := @ih (resolveOne completion state threadId) (hsame.1 ▸ hunique)
      rw [hsame.1, hsame.2] at hrest
      have hin : (state.remaining.filter fun item => item.id ∈ threadId :: rest) =
          state.remaining.filter fun item => item.id ∈ rest :=
        List.filter_congr fun item hitem => by simp [hnot item hitem]
      have hout : (state.remaining.filter fun item => item.id ∉ threadId :: rest) =
          state.remaining.filter fun item => item.id ∉ rest :=
        List.filter_congr fun item hitem => by simp [hnot item hitem]
      rw [hin, hout]
      exact hrest
    | some thread =>
      have hid : thread.id = threadId := by simpa using List.find?_some hfind
      have hmem := List.mem_of_find?_eq_some hfind
      have hstep : resolveOne completion state threadId = { state with
          remaining := state.remaining.filter fun item => item.id != threadId
          newlyResolved := state.newlyResolved ++ [thread.resolve completion.chapterId] } := by
        unfold resolveOne
        rw [hfind]
      have hrest := @ih (resolveOne completion state threadId) (by
        rw [hstep]
        exact hunique.sublist (List.filter_sublist.map _))
      rw [hstep] at hrest ⊢
      simp only [List.filter_filter] at hrest ⊢
      refine ⟨hrest.1.trans (List.filter_congr fun item _ => ?_), hrest.2.trans ?_⟩
      · by_cases heq : item.id = threadId <;> simp [heq]
      rw [List.append_assoc]
      refine List.Perm.append_left _ ?_
      rw [← List.map_singleton (f := fun t : UnresolvedThread => t.resolve completion.chapterId), ← List.map_append]
      refine List.Perm.map _ ?_
      have hsingle : state.remaining.filter (fun item => item.id == threadId) = [thread] :=
        filter_eq_singleton hunique hmem hid
      have hsplit := List.filter_append_perm (fun item : UnresolvedThread => item.id == threadId)
        (state.remaining.filter fun item => item.id ∈ threadId :: rest)
      simp only [List.filter_filter] at hsplit
      refine .trans (.of_eq ?_) hsplit
      congr 1
      · rw [← hsingle]
        exact List.filter_congr fun item _ => by by_cases heq : item.id = threadId <;> simp [heq]
      · exact List.filter_congr fun item _ => by by_cases heq : item.id = threadId <;> simp [heq, bne, Bool.and_comm]

/-! ## What an update returns -/

/-- The summary that a chapter contributes. -/
def ChapterCompletion.toSummary (completion : ChapterCompletion) : ChapterSummary where
  chapterId := completion.chapterId
  order := completion.order
  summary := completion.summary

/-- The facts that a completion adds to a record. -/
def newFacts (start : ContinuityRecord) (completion : ChapterCompletion) : List ProposedCanonFact :=
  added (canonRules completion) start.canonFacts completion.canonFacts

def newEvents (start : ContinuityRecord) (completion : ChapterCompletion) : List ProposedTimelineFact :=
  added (timelineRules completion) start.timelineFacts completion.timelineFacts

def newThreads (start : ContinuityRecord) (completion : ChapterCompletion) : List ProposedThread :=
  added (threadRules start.resolvedThreads completion) start.unresolvedThreads completion.threadsIntroduced

/-- The open threads with those that a completion introduces. -/
def openThreads (start : ContinuityRecord) (completion : ChapterCompletion) : List UnresolvedThread :=
  start.unresolvedThreads ++ numbered (threadRules start.resolvedThreads completion)
    (nextOrder start.unresolvedThreads) (newThreads start completion)

/-- The memory is the record with a completion merged into it. -/
structure Updated (start : ContinuityRecord) (completion : ChapterCompletion) (now : ℕ)
    (memory : ContinuityMemory) : Prop where
  id : memory.id = start.id
  storyId : memory.storyId = start.storyId
  createdAt : memory.createdAt = start.createdAt
  updatedAt : memory.updatedAt = now
  asOf : memory.asOfChapterId = memory.chapterSummaries.getLast?.map ChapterSummary.chapterId
  chapterSummaries : memory.chapterSummaries = ordered (start.chapterSummaries.filter
    (fun kept => kept.chapterId != completion.chapterId) ++ [completion.toSummary])
  canonFacts : memory.canonFacts = ordered (start.canonFacts ++ numbered (canonRules completion)
    (nextOrder start.canonFacts) (newFacts start completion))
  timelineFacts : memory.timelineFacts = ordered (start.timelineFacts ++ numbered (timelineRules completion)
    (nextOrder start.timelineFacts) (newEvents start completion))
  unresolvedThreads : memory.unresolvedThreads = ordered (applyThreadResolutions (openThreads start completion)
    start.resolvedThreads completion).remaining
  resolvedThreads : memory.resolvedThreads = ordered (applyThreadResolutions (openThreads start completion)
    start.resolvedThreads completion).newlyResolved

theorem construct_eq_ok {α : Type} [MemoryEntry α] {item item' : α} (h : construct item = .ok item') : item' = item := by
  unfold construct at h
  split at h
  · exact (Except.ok.inj h).symm
  · cases h

theorem build_eq_ok {record : ContinuityRecord} {memory : ContinuityMemory} (h : record.build = .ok memory) :
    memory.toContinuityRecord = record := by
  unfold ContinuityRecord.build at h
  split at h
  · rw [← Except.ok.inj h]
  · cases h

theorem update_eq_ok {memory : Option ContinuityMemory} {completion : ChapterCompletion}
    {storyId memoryId : Option String} {now : ℕ} {result : ContinuityUpdateResult}
    (h : updateContinuityMemory memory completion storyId memoryId now = .ok result) :
    ∃ start, startingRecord memory storyId memoryId now = .ok start ∧ Updated start completion now result.memory := by
  unfold updateContinuityMemory at h
  obtain ⟨start, hstart, h⟩ := ok_of_bind h
  obtain ⟨chapterSummaries, hsummaries, h⟩ := ok_of_bind h
  obtain ⟨canon, hcanon, h⟩ := ok_of_bind h
  obtain ⟨timeline, htimeline, h⟩ := ok_of_bind h
  obtain ⟨introduced, hintroduced, h⟩ := ok_of_bind h
  obtain ⟨updated, hbuild, h⟩ := ok_of_bind h
  obtain rfl := Except.ok.inj h
  obtain ⟨summary, hsummary, rfl⟩ := ok_of_map hsummaries
  have hrecord := build_eq_ok hbuild
  have hopen := merge_eq_ok (lawful_threadRules _ _) hintroduced
  refine ⟨start, hstart, ?_, ?_, ?_, ?_, ?_, ?_, ?_, ?_, ?_, ?_⟩ <;> rw [hrecord]
  · rw [construct_eq_ok hsummary]
    rfl
  · exact congrArg ordered (merge_eq_ok (lawful_canonRules _) hcanon)
  · exact congrArg ordered (merge_eq_ok (lawful_timelineRules _) htimeline)
  · simp only [hopen]
    rfl
  · simp only [hopen]
    rfl

end CreativeStudio.Story
