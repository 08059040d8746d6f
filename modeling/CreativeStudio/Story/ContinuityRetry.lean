import CreativeStudio.Story.ContinuityOrder

/-!
# A chapter merged again

A memory has absorbed a completion when every fact, thread and payoff of it is there.
Whatever was merged without a conflict is absorbed, no other chapter undoes that, and
merging what is absorbed changes nothing.
-/

namespace CreativeStudio.Story

/-! ## Merging what is known -/

section Known
variable {α π : Type} [MemoryEntry α] {rules : MergeRules α π}

/-- A proposal that is passed over, or that agrees with the entry of its id. -/
def Agrees (rules : MergeRules α π) (items : List α) (proposed : π) : Prop :=
  rules.blocked proposed = some none ∨ rules.blocked proposed = none ∧
    ∃ item ∈ items, MemoryEntry.id item = rules.idOf proposed ∧ rules.conflict item proposed = none

theorem Agrees.mono {a b : List α} {proposed : π} (h : Agrees rules a proposed) (hsub : a ⊆ b) :
    Agrees rules b proposed := by
  refine h.imp_right fun ⟨hblocked, item, hitem, hagrees⟩ => ⟨hblocked, item, hsub hitem, hagrees⟩

/-- The one entry of an id is the one that is found. -/
theorem find?_of_unique {items : List α} (hunique : (items.map MemoryEntry.id).Nodup) {item : α} (h : item ∈ items)
    {id : String} (hid : MemoryEntry.id item = id) :
    items.find? (fun other => MemoryEntry.id other == id) = some item := by
  cases hfind : items.find? fun other => MemoryEntry.id other == id with
  | none => exact absurd (by simpa using hid) (List.find?_eq_none.mp hfind item h)
  | some found =>
    have hfound : MemoryEntry.id found = id := by simpa using List.find?_some hfind
    rw [eq_of_id hunique (List.mem_of_find?_eq_some hfind) h (hfound.trans hid.symm)]

/-- A turn of the loop that leaves no conflict has its proposal in the list. -/
theorem agrees_of_mergeOne (hrules : rules.Lawful) (hself : ∀ p order, rules.conflict (rules.make p order) p = none)
    {state state' : Merging α} {proposed : π} (h : mergeOne rules state proposed = .ok state') :
    state.result ⊆ state'.result ∧ ∃ found, state'.conflicts = state.conflicts ++ found ∧
      (found = [] → Agrees rules state'.result proposed) := by
  unfold mergeOne at h
  cases hblocked : rules.blocked proposed with
  | some found =>
    rw [hblocked] at h
    cases h
    refine ⟨List.Subset.refl _, found.toList, rfl, fun hnone => .inl ?_⟩
    rw [hblocked, Option.toList_eq_nil_iff.mp hnone]
  | none =>
    rw [hblocked] at h
    cases hfind : state.result.find? fun item => MemoryEntry.id item == rules.idOf proposed with
    | none =>
      rw [hfind] at h
      obtain ⟨item, hitem, rfl⟩ := ok_of_map h
      obtain rfl := construct_eq_ok hitem
      refine ⟨List.subset_append_left _ _, [], (List.append_nil _).symm, fun _ => .inr ⟨hblocked,
        rules.make proposed state.order, ?_, hrules.id_make _ _, hself _ _⟩⟩
      exact List.mem_append_right _ (List.mem_singleton_self _)
    | some current =>
      rw [hfind] at h
      cases h
      refine ⟨List.Subset.refl _, _, rfl, fun hnone => .inr ⟨hblocked, current, List.mem_of_find?_eq_some hfind, ?_, ?_⟩⟩
      · simpa using List.find?_some hfind
      · exact Option.toList_eq_nil_iff.mp hnone

/-- A merge without conflicts has every proposal in the list. -/
theorem agrees_of_merge (hrules : rules.Lawful) (hself : ∀ p order, rules.conflict (rules.make p order) p = none)
    {existing : List α} {proposals : List π} {result : List α} (h : merge rules existing proposals = .ok (result, [])) :
    ∀ p ∈ proposals, Agrees rules result p := by
  obtain ⟨last, hlast, heq⟩ := ok_of_map h
  obtain ⟨hresult, hconflicts⟩ := Prod.mk.inj heq
  subst hresult
  generalize ({ result := existing, order := nextOrder existing, conflicts := [] } : Merging α) = state at hlast
  suffices key : state.result ⊆ last.result ∧ ∃ found, last.conflicts = state.conflicts ++ found ∧
      (found = [] → ∀ p ∈ proposals, Agrees rules last.result p) by
    obtain ⟨-, found, hfound, hall⟩ := key
    refine hall (List.append_eq_nil_iff.mp (hfound.symm.trans hconflicts)).2
  clear h heq hconflicts
  induction proposals generalizing state with
  | nil =>
    cases hlast
    exact ⟨List.Subset.refl _, [], (List.append_nil _).symm, nofun⟩
  | cons p rest ih =>
    rw [List.foldlM_cons] at hlast
    obtain ⟨next, hnext, hrest⟩ := ok_of_bind hlast
    obtain ⟨hsub, found, hfound, hagrees⟩ := agrees_of_mergeOne hrules hself hnext
    obtain ⟨hsub', found', hfound', hall⟩ := ih next hrest
    refine ⟨List.Subset.trans hsub hsub', found ++ found', by rw [hfound', hfound, List.append_assoc], fun hnone => ?_⟩
    obtain ⟨hnil, hnil'⟩ := List.append_eq_nil_iff.mp hnone
    exact List.forall_mem_cons.mpr ⟨(hagrees hnil).mono hsub', hall hnil'⟩

/-- Merging what agrees changes nothing. -/
theorem merge_of_agrees {existing : List α} (hunique : (existing.map MemoryEntry.id).Nodup) {proposals : List π}
    (h : ∀ p ∈ proposals, Agrees rules existing p) : merge rules existing proposals = .ok (existing, []) := by
  have hfold : proposals.foldlM (mergeOne rules)
      { result := existing, order := nextOrder existing, conflicts := [] } =
        .ok { result := existing, order := nextOrder existing, conflicts := [] } := by
    induction proposals with
    | nil => rfl
    | cons p rest ih =>
      have hturn : mergeOne rules { result := existing, order := nextOrder existing, conflicts := [] } p =
          .ok { result := existing, order := nextOrder existing, conflicts := [] } := by
        unfold mergeOne
        rcases h p List.mem_cons_self with hblocked | ⟨hblocked, item, hitem, hid, hagrees⟩
        · rw [hblocked]
          rfl
        · simp only [hblocked, find?_of_unique hunique hitem hid, hagrees]
          rfl
      rw [List.foldlM_cons, hturn]
      exact ih fun q hq => h q (List.mem_cons_of_mem p hq)
  rw [merge, hfold]
  rfl

end Known

/-! ## Paying off threads again -/

/-- Paying off threads without a conflict leaves each of them paid off. -/
theorem resolved_of_no_conflict (completion : ChapterCompletion) (threadIds : List String) (state : Resolving) :
    ∃ found, (threadIds.foldl (resolveOne completion) state).conflicts = state.conflicts ++ found ∧
      (found = [] → ∀ id ∈ threadIds,
        id ∈ (threadIds.foldl (resolveOne completion) state).newlyResolved.map ResolvedThread.id) ∧
      state.newlyResolved ⊆ (threadIds.foldl (resolveOne completion) state).newlyResolved := by
  induction threadIds generalizing state with
  | nil => exact ⟨[], (List.append_nil _).symm, nofun, List.Subset.refl _⟩
  | cons threadId rest ih =>
    rw [List.foldl_cons]
    obtain ⟨found, hfound, hall, hsub⟩ := ih (resolveOne completion state threadId)
    obtain ⟨first, hfirst, hpaid, hkept⟩ : ∃ first,
        (resolveOne completion state threadId).conflicts = state.conflicts ++ first ∧
        (first = [] → threadId ∈ (resolveOne completion state threadId).newlyResolved.map ResolvedThread.id) ∧
        state.newlyResolved ⊆ (resolveOne completion state threadId).newlyResolved := by
      unfold resolveOne
      cases hfind : state.remaining.find? fun item => item.id == threadId with
      | some thread =>
        have hid : thread.id = threadId := by simpa using List.find?_some hfind
        refine ⟨[], (List.append_nil _).symm, fun _ => ?_, List.subset_append_left _ _⟩
        rw [List.map_append, ← hid]
        exact List.mem_append_right _ (List.mem_singleton_self _)
      | none =>
        simp only []
        split
        next hmem => exact ⟨[], (List.append_nil _).symm, fun _ => hmem, List.Subset.refl _⟩
        next => exact ⟨[_], rfl, nofun, List.Subset.refl _⟩
    refine ⟨first ++ found, by rw [hfound, hfirst, List.append_assoc], fun hnone => ?_, List.Subset.trans hkept hsub⟩
    obtain ⟨hnil, hnil'⟩ := List.append_eq_nil_iff.mp hnone
    exact List.forall_mem_cons.mpr ⟨List.map_subset _ hsub (hpaid hnil), hall hnil'⟩

/-- Paying off what is paid off changes nothing. -/
theorem applyThreadResolutions_of_resolved {unresolved : List UnresolvedThread} {resolved : List ResolvedThread}
    {completion : ChapterCompletion} (hids : ∀ id ∈ completion.threadsResolved, id ∈ resolved.map ResolvedThread.id)
    (hdisjoint : ∀ thread ∈ unresolved, thread.id ∉ resolved.map ResolvedThread.id) :
    applyThreadResolutions unresolved resolved completion =
      { remaining := unresolved, newlyResolved := resolved, conflicts := [] } := by
  unfold applyThreadResolutions
  revert hids
  generalize completion.threadsResolved = threadIds
  intro hids
  induction threadIds with
  | nil => rfl
  | cons threadId rest ih =>
    have hpaid := hids threadId List.mem_cons_self
    have hnone : unresolved.find? (fun item => item.id == threadId) = none := by
      refine List.find?_eq_none.mpr fun thread hthread heq => ?_
      exact hdisjoint thread hthread (beq_iff_eq.mp heq ▸ hpaid)
    have hturn : resolveOne completion { remaining := unresolved, newlyResolved := resolved, conflicts := [] } threadId =
        { remaining := unresolved, newlyResolved := resolved, conflicts := [] } := by
      unfold resolveOne
      simp only [hnone, if_pos hpaid]
    rw [List.foldl_cons, hturn]
    exact ih fun id hid => hids id (List.mem_cons_of_mem threadId hid)

/-! ## What has been absorbed -/

/-- Everything that a completion contributes is in the record. -/
structure Absorbed (record : ContinuityRecord) (completion : ChapterCompletion) : Prop where
  summary : completion.toSummary ∈ record.chapterSummaries
  canonFacts : ∀ p ∈ completion.canonFacts, Agrees (canonRules completion) record.canonFacts p
  timelineFacts : ∀ p ∈ completion.timelineFacts, Agrees (timelineRules completion) record.timelineFacts p
  threads : ∀ p ∈ completion.threadsIntroduced,
    (∃ thread ∈ record.unresolvedThreads, thread.id = p.id ∧ thread.description = p.description) ∨
      ∃ thread ∈ record.resolvedThreads, thread.id = p.id ∧ thread.description = p.description
  payoffs : ∀ id ∈ completion.threadsResolved, id ∈ record.resolvedThreads.map ResolvedThread.id

/-- A memory as an update leaves it: its lists are in their stored order, no thread is both
open and paid off, and it is as of its last chapter. -/
structure Kept (record : ContinuityRecord) : Prop where
  chapterSummaries : ordered record.chapterSummaries = record.chapterSummaries
  canonFacts : ordered record.canonFacts = record.canonFacts
  timelineFacts : ordered record.timelineFacts = record.timelineFacts
  unresolvedThreads : ordered record.unresolvedThreads = record.unresolvedThreads
  resolvedThreads : ordered record.resolvedThreads = record.resolvedThreads
  disjoint : ∀ thread ∈ record.unresolvedThreads, thread.id ∉ record.resolvedThreads.map ResolvedThread.id
  asOf : record.asOfChapterId = record.chapterSummaries.getLast?.map ChapterSummary.chapterId

section Updates
variable {start : ContinuityRecord} {completion other : ChapterCompletion} {now : ℕ} {memory : ContinuityMemory}

/-- The threads of an update are open or paid off, and what was paid off stays so. -/
theorem threads_of_update (h : Updated start completion now memory)
    (hunique : (start.unresolvedThreads.map UnresolvedThread.id).Nodup) :
    memory.unresolvedThreads.Perm ((openThreads start completion).filter fun item => item.id ∉ completion.threadsResolved) ∧
      memory.resolvedThreads.Perm (start.resolvedThreads ++
        ((openThreads start completion).filter fun item => item.id ∈ completion.threadsResolved).map
          (·.resolve completion.chapterId)) := by
  have hopen : ((openThreads start completion).map UnresolvedThread.id).Nodup :=
    nodup_merged (lawful_threadRules _ _) hunique _ _
  obtain ⟨hremaining, hnewly⟩ := @foldl_resolveOne completion completion.threadsResolved
    { remaining := openThreads start completion, newlyResolved := start.resolvedThreads, conflicts := [] } hopen
  rw [h.unresolvedThreads, h.resolvedThreads]
  exact ⟨(perm_ordered _).trans (.of_eq hremaining), (perm_ordered _).trans hnewly⟩

/-- What was paid off stays as it is. -/
theorem resolvedThreads_subset (h : Updated start completion now memory)
    (hunique : (start.unresolvedThreads.map UnresolvedThread.id).Nodup) :
    start.resolvedThreads ⊆ memory.resolvedThreads := fun _ hthread =>
  (threads_of_update h hunique).2.mem_iff.mpr (List.mem_append_left _ hthread)

/-- A thread that is open is still open, or paid off under its description. -/
theorem thread_of_open (h : Updated start completion now memory)
    (hunique : (start.unresolvedThreads.map UnresolvedThread.id).Nodup) {thread : UnresolvedThread}
    (hthread : thread ∈ openThreads start completion) :
    (∃ kept ∈ memory.unresolvedThreads, kept.id = thread.id ∧ kept.description = thread.description) ∨
      ∃ kept ∈ memory.resolvedThreads, kept.id = thread.id ∧ kept.description = thread.description := by
  obtain ⟨hunresolved, hresolved⟩ := threads_of_update h hunique
  by_cases hpaid : thread.id ∈ completion.threadsResolved
  · refine .inr ⟨thread.resolve completion.chapterId, hresolved.mem_iff.mpr (List.mem_append_right _ ?_), rfl, rfl⟩
    exact List.mem_map_of_mem (List.mem_filter.mpr ⟨hthread, by simpa using hpaid⟩)
  · exact .inl ⟨thread, hunresolved.mem_iff.mpr (List.mem_filter.mpr ⟨hthread, by simpa using hpaid⟩), rfl, rfl⟩

theorem canonFacts_subset (h : Updated start completion now memory) : start.canonFacts ⊆ memory.canonFacts := by
  rw [h.canonFacts]
  exact fun fact hfact => mem_ordered.mpr (List.mem_append_left _ hfact)

theorem timelineFacts_subset (h : Updated start completion now memory) :
    start.timelineFacts ⊆ memory.timelineFacts := by
  rw [h.timelineFacts]
  exact fun fact hfact => mem_ordered.mpr (List.mem_append_left _ hfact)

/-- Another chapter leaves absorbed what was. -/
theorem Absorbed.of_update (habsorbed : Absorbed start other) (h : Updated start completion now memory)
    (hchapter : completion.chapterId ≠ other.chapterId)
    (hunique : (start.unresolvedThreads.map UnresolvedThread.id).Nodup) :
    Absorbed memory.toContinuityRecord other where
  summary := by
    rw [h.chapterSummaries]
    refine mem_ordered.mpr (List.mem_append_left _ (List.mem_filter.mpr ⟨habsorbed.summary, ?_⟩))
    simpa [ChapterCompletion.toSummary] using hchapter.symm
  canonFacts p hp := (habsorbed.canonFacts p hp).mono (canonFacts_subset h)
  timelineFacts p hp := (habsorbed.timelineFacts p hp).mono (timelineFacts_subset h)
  threads p hp := by
    rcases habsorbed.threads p hp with ⟨thread, hthread, hid, hdescription⟩ | ⟨thread, hthread, hsame⟩
    · have hkept := thread_of_open h hunique (List.mem_append_left _ hthread)
      rwa [hid, hdescription] at hkept
    · exact .inr ⟨thread, resolvedThreads_subset h hunique hthread, hsame⟩
  payoffs id hid := List.map_subset _ (resolvedThreads_subset h hunique) (habsorbed.payoffs id hid)

theorem blocked_of_mem_freshOnes {α π : Type} {rules : MergeRules α π} {known : List String} {proposals : List π} {p : π}
    (h : p ∈ freshOnes rules known proposals) : rules.blocked p = none := by
  induction proposals generalizing known with
  | nil => cases h
  | cons q rest ih =>
    rw [freshOnes] at h
    split at h
    · exact ih h
    next hq =>
      rcases List.mem_cons.mp h with rfl | h
      · exact Option.not_isSome_iff_eq_none.mp fun hsome => hq (.inl hsome)
      · exact ih h

/-- An open thread is not one that was paid off before. -/
theorem not_resolved_of_open (hunique : ∀ thread ∈ start.unresolvedThreads,
      thread.id ∉ start.resolvedThreads.map ResolvedThread.id) {thread : UnresolvedThread}
    (h : thread ∈ openThreads start completion) : thread.id ∉ start.resolvedThreads.map ResolvedThread.id := by
  rcases List.mem_append.mp h with hold | hnew
  · exact hunique thread hold
  · have hid : thread.id ∈ (newThreads start completion).map ProposedThread.id := by
      have hmem := List.mem_map_of_mem (f := UnresolvedThread.id) hnew
      exact (ids_numbered (lawful_threadRules _ _) _ _) ▸ hmem
    obtain ⟨p, hp, heq⟩ := List.mem_map.mp hid
    intro hmem
    obtain ⟨resolved, hresolved, hsame⟩ := List.mem_map.mp hmem
    have hnone := blocked_of_mem_freshOnes hp
    rw [threadRules, Option.map_eq_none_iff] at hnone
    exact List.find?_eq_none.mp hnone resolved hresolved (by simpa using hsame.trans heq.symm)

theorem ordered_ordered {α : Type} [MemoryEntry α] (items : List α) : ordered (ordered items) = ordered items :=
  (pairwise_ordered items).insertionSort_eq

/-- An update leaves a memory as it keeps it. -/
theorem Kept.of_updated (h : Updated start completion now memory)
    (hunique : (start.unresolvedThreads.map UnresolvedThread.id).Nodup)
    (hdisjoint : ∀ thread ∈ start.unresolvedThreads, thread.id ∉ start.resolvedThreads.map ResolvedThread.id) :
    Kept memory.toContinuityRecord where
  chapterSummaries := by rw [h.chapterSummaries, ordered_ordered]
  canonFacts := by rw [h.canonFacts, ordered_ordered]
  timelineFacts := by rw [h.timelineFacts, ordered_ordered]
  unresolvedThreads := by rw [h.unresolvedThreads, ordered_ordered]
  resolvedThreads := by rw [h.resolvedThreads, ordered_ordered]
  disjoint thread hthread hmem := by
    obtain ⟨hunresolved, hresolved⟩ := threads_of_update h hunique
    obtain ⟨hopen, hnot⟩ := List.mem_filter.mp (hunresolved.mem_iff.mp hthread)
    rw [(hresolved.map ResolvedThread.id).mem_iff, List.map_append, List.mem_append] at hmem
    rcases hmem with hold | hnew
    · exact not_resolved_of_open hdisjoint hopen hold
    · obtain ⟨paid, hpaid, hid⟩ := List.mem_map.mp hnew
      obtain ⟨source, hsource, rfl⟩ := List.mem_map.mp hpaid
      have hin := (List.mem_filter.mp hsource).2
      simp only [UnresolvedThread.resolve] at hid
      rw [hid] at hin
      simp only [decide_eq_true_eq] at hin hnot
      exact hnot hin
  asOf := h.asOf

end Updates

/-! ## An update without conflicts -/

/-- The conflicts of an update are those of its four merges. -/
theorem conflicts_of_update {memory : Option ContinuityMemory} {completion : ChapterCompletion}
    {storyId memoryId : Option String} {now : ℕ} {result : ContinuityUpdateResult}
    (h : updateContinuityMemory memory completion storyId memoryId now = .ok result) :
    ∃ start canon timeline introduced, startingRecord memory storyId memoryId now = .ok start ∧
      mergeCanonFacts start.canonFacts completion = .ok canon ∧
      mergeTimelineFacts start.timelineFacts completion = .ok timeline ∧
      mergeThreadsIntroduced start.unresolvedThreads start.resolvedThreads completion = .ok introduced ∧
      result.conflicts = canon.2 ++ timeline.2 ++ introduced.2 ++
        (applyThreadResolutions introduced.1 start.resolvedThreads completion).conflicts := by
  unfold updateContinuityMemory at h
  obtain ⟨start, hstart, h⟩ := ok_of_bind h
  obtain ⟨_, -, h⟩ := ok_of_bind h
  obtain ⟨canon, hcanon, h⟩ := ok_of_bind h
  obtain ⟨timeline, htimeline, h⟩ := ok_of_bind h
  obtain ⟨introduced, hintroduced, h⟩ := ok_of_bind h
  obtain ⟨_, -, h⟩ := ok_of_bind h
  cases h
  exact ⟨start, canon, timeline, introduced, hstart, hcanon, htimeline, hintroduced, rfl⟩

/-- What is merged without a conflict is absorbed. -/
theorem absorbed_of_update {memory : Option ContinuityMemory} {completion : ChapterCompletion}
    {storyId memoryId : Option String} {now : ℕ} {result : ContinuityUpdateResult}
    (h : updateContinuityMemory memory completion storyId memoryId now = .ok result) (hnone : result.conflicts = []) :
    Absorbed result.memory.toContinuityRecord completion := by
  obtain ⟨start, hstart, hupdated⟩ := update_eq_ok h
  obtain ⟨start', canon, timeline, introduced, hstart', hcanon, htimeline, hintroduced, hconflicts⟩ :=
    conflicts_of_update h
  obtain rfl := Except.ok.inj (hstart.symm.trans hstart')
  obtain ⟨-, -, -, hopen, -⟩ := startingRecord_eq_ok hstart
  have hunique : (start.unresolvedThreads.map UnresolvedThread.id).Nodup := hopen ▸ (unique_contents memory).2.2
  rw [hnone] at hconflicts
  obtain ⟨hmerges, hresolves⟩ := List.append_eq_nil_iff.mp hconflicts.symm
  obtain ⟨hfacts, hintroduces⟩ := List.append_eq_nil_iff.mp hmerges
  obtain ⟨hcanons, htimelines⟩ := List.append_eq_nil_iff.mp hfacts
  have hcanon' : mergeCanonFacts start.canonFacts completion = .ok (canon.1, []) := by rw [hcanon, ← hcanons]
  have htimeline' : mergeTimelineFacts start.timelineFacts completion = .ok (timeline.1, []) := by
    rw [htimeline, ← htimelines]
  have hintroduced' : mergeThreadsIntroduced start.unresolvedThreads start.resolvedThreads completion =
      .ok (introduced.1, []) := by rw [hintroduced, ← hintroduces]
  have hthreads : introduced.1 = openThreads start completion := merge_eq_ok (lawful_threadRules _ _) hintroduced
  refine ⟨?_, fun p hp => ?_, fun p hp => ?_, fun p hp => ?_, fun id hid => ?_⟩
  · rw [hupdated.chapterSummaries]
    exact mem_ordered.mpr (List.mem_append_right _ (List.mem_singleton_self _))
  · refine (agrees_of_merge (lawful_canonRules _) (fun _ _ => if_pos ⟨rfl, rfl⟩) hcanon' p hp).mono ?_
    rw [hupdated.canonFacts]
    exact (merge_eq_ok (lawful_canonRules _) hcanon) ▸ fun fact hfact => mem_ordered.mpr hfact
  · refine (agrees_of_merge (lawful_timelineRules _) (fun _ _ => if_pos rfl) htimeline' p hp).mono ?_
    rw [hupdated.timelineFacts]
    exact (merge_eq_ok (lawful_timelineRules _) htimeline) ▸ fun fact hfact => mem_ordered.mpr hfact
  · rcases agrees_of_merge (lawful_threadRules _ _) (fun _ _ => if_pos rfl) hintroduced' p hp with
      hblocked | ⟨-, thread, hthread, hid, hagrees⟩
    · obtain ⟨resolved, hfound, hsame⟩ := Option.map_eq_some_iff.mp hblocked
      have hdescription : resolved.description = p.description := by
        by_contra hother
        rw [if_neg hother] at hsame
        cases hsame
      refine .inr ⟨resolved, resolvedThreads_subset hupdated hunique (List.mem_of_find?_eq_some hfound), ?_, hdescription⟩
      simpa using List.find?_some hfound
    · have hdescription : thread.description = p.description := by
        by_contra hother
        exact absurd (hagrees.symm.trans (if_neg hother)) nofun
      have hkept := thread_of_open hupdated hunique (hthreads ▸ hthread)
      rw [hdescription] at hkept
      exact (show thread.id = p.id from hid) ▸ hkept
  · obtain ⟨found, hfound, hpaid, -⟩ := resolved_of_no_conflict completion completion.threadsResolved
      { remaining := introduced.1, newlyResolved := start.resolvedThreads, conflicts := [] }
    rw [hupdated.resolvedThreads, ((perm_ordered _).map ResolvedThread.id).mem_iff, ← hthreads]
    exact hpaid (hfound.symm.trans hresolves) id hid

/-- A summary that is there is replaced by itself. -/
theorem upsertChapterSummary_of_mem {items : List ChapterSummary} (hvalid : ValidList maxChapterSummaries items)
    (hordered : ordered items = items) {completion : ChapterCompletion} (h : completion.toSummary ∈ items) :
    ∃ replaced, upsertChapterSummary items completion = .ok replaced ∧ ordered replaced = items := by
  have hconstruct : construct completion.toSummary = .ok completion.toSummary := if_pos (hvalid.valid _ h)
  refine ⟨_, by rw [upsertChapterSummary]; exact congrArg (Except.map _) hconstruct, ?_⟩
  have hself := filter_eq_singleton hvalid.unique h (rfl : MemoryEntry.id completion.toSummary = completion.chapterId)
  have hperm : (items.filter (fun kept => kept.chapterId != completion.chapterId) ++ [completion.toSummary]).Perm items := by
    rw [← hself]
    exact List.perm_append_comm.trans (List.filter_append_perm (fun kept => MemoryEntry.id kept == completion.chapterId) items)
  refine Eq.trans (ordered_eq_of_perm hperm ?_) hordered
  exact (hperm.map MemoryEntry.id).nodup_iff.mpr hvalid.unique

/-- A thread that was absorbed is passed over, or agrees with the one that is open. -/
theorem agrees_of_absorbed {memory : ContinuityMemory} {completion : ChapterCompletion}
    (hkept : Kept memory.toContinuityRecord) (habsorbed : Absorbed memory.toContinuityRecord completion) :
    ∀ p ∈ completion.threadsIntroduced,
      Agrees (threadRules memory.resolvedThreads completion) memory.unresolvedThreads p := by
  intro p hp
  rcases habsorbed.threads p hp with ⟨thread, hthread, hid, hdescription⟩ | ⟨thread, hthread, hid, hdescription⟩
  · have hblocked : memory.resolvedThreads.find? (fun item => item.id == p.id) = none := by
      refine List.find?_eq_none.mpr fun other hother heq => hkept.disjoint thread hthread ?_
      rw [hid, ← beq_iff_eq.mp heq]
      exact List.mem_map_of_mem hother
    exact .inr ⟨Option.map_eq_none_iff.mpr hblocked, thread, hthread, hid, if_pos hdescription⟩
  · have hfound : memory.resolvedThreads.find? (fun item => item.id == p.id) = some thread :=
      find?_of_unique memory.valid.resolvedThreads.unique hthread hid
    exact .inl (Option.map_eq_some_iff.mpr ⟨thread, hfound, if_pos hdescription⟩)

/-- **Merging what is absorbed** changes nothing but the time of the update. -/
theorem update_of_absorbed {memory : ContinuityMemory} {completion : ChapterCompletion}
    (hkept : Kept memory.toContinuityRecord) (habsorbed : Absorbed memory.toContinuityRecord completion)
    {storyId : Option String} (hstory : storyId = none ∨ storyId = some memory.storyId) (memoryId : Option String)
    (now : ℕ) : ∃ result, updateContinuityMemory (some memory) completion storyId memoryId now = .ok result ∧
      result.conflicts = [] ∧ result.memory.toContinuityRecord = { memory.toContinuityRecord with updatedAt := now } := by
  have hstart : startingRecord (some memory) storyId memoryId now = .ok memory.toContinuityRecord := by
    refine if_neg fun h => ?_
    rcases hstory with rfl | rfl
    · cases h.1
    · exact h.2 rfl
  obtain ⟨replaced, hreplaced, hsummaries⟩ :=
    upsertChapterSummary_of_mem memory.valid.chapterSummaries hkept.chapterSummaries habsorbed.summary
  have hcanon : mergeCanonFacts memory.canonFacts completion = .ok (memory.canonFacts, []) :=
    merge_of_agrees memory.valid.canonFacts.unique habsorbed.canonFacts
  have htimeline : mergeTimelineFacts memory.timelineFacts completion = .ok (memory.timelineFacts, []) :=
    merge_of_agrees memory.valid.timelineFacts.unique habsorbed.timelineFacts
  have hintroduced : mergeThreadsIntroduced memory.unresolvedThreads memory.resolvedThreads completion =
      .ok (memory.unresolvedThreads, []) :=
    merge_of_agrees memory.valid.unresolvedThreads.unique (agrees_of_absorbed hkept habsorbed)
  have hresolved := applyThreadResolutions_of_resolved habsorbed.payoffs hkept.disjoint
  have hvalid : ({ memory.toContinuityRecord with updatedAt := now } : ContinuityRecord).Valid :=
    ⟨memory.valid.id_ne, memory.valid.storyId_ne, memory.valid.chapterSummaries, memory.valid.canonFacts,
      memory.valid.timelineFacts, memory.valid.unresolvedThreads, memory.valid.resolvedThreads⟩
  have hbuild : ContinuityRecord.build { memory.toContinuityRecord with updatedAt := now } = .ok ⟨_, hvalid⟩ :=
    dif_pos hvalid
  refine ⟨{ memory := ⟨_, hvalid⟩, conflicts := [] }, ?_, rfl, rfl⟩
  unfold updateContinuityMemory
  rw [hstart]
  refine bind_eq_ok.mpr ⟨_, rfl, bind_eq_ok.mpr ⟨replaced, hreplaced, bind_eq_ok.mpr ⟨_, hcanon, bind_eq_ok.mpr
    ⟨_, htimeline, bind_eq_ok.mpr ⟨_, hintroduced, ?_⟩⟩⟩⟩⟩
  simp only [hresolved, hsummaries, hkept.canonFacts, hkept.timelineFacts, hkept.unresolvedThreads,
    hkept.resolvedThreads, ← hkept.asOf]
  rw [hbuild]
  rfl

/-! ## Any history of completions -/

/-- One call of `update_continuity_memory`. -/
structure ContinuityCall where
  completion : ChapterCompletion
  storyId : Option String := none
  memoryId : Option String := none
  now : ℕ := 0

/-- What the call does with a memory. -/
def ContinuityCall.apply (call : ContinuityCall) (memory : Option ContinuityMemory) :
    Except Exc ContinuityUpdateResult :=
  updateContinuityMemory memory call.completion call.storyId call.memoryId call.now

/-- The calls that led to a memory, and the conflicts that each of them reported. -/
inductive Reached : List (ContinuityCall × List String) → Option ContinuityMemory → Prop
  | start : Reached [] none
  | call {history : List (ContinuityCall × List String)} {memory : Option ContinuityMemory} {call : ContinuityCall}
      {result : ContinuityUpdateResult} (h : Reached history memory) (hcall : call.apply memory = .ok result) :
      Reached (history ++ [(call, result.conflicts)]) (some result.memory)

/-- The call is in the history, reported no conflict, and its chapter was not merged again. -/
def Standing (history : List (ContinuityCall × List String)) (call : ContinuityCall) : Prop :=
  ∃ before after, history = before ++ (call, []) :: after ∧
    ∀ later ∈ after, later.1.completion.chapterId ≠ call.completion.chapterId

/-- What is true of a memory by its history. -/
structure Recorded (history : List (ContinuityCall × List String)) (memory : ContinuityMemory) : Prop where
  kept : Kept memory.toContinuityRecord
  summarized : memory.chapterSummaries ≠ []
  stories : ∀ entry ∈ history, entry.1.storyId = none ∨ entry.1.storyId = some memory.storyId
  absorbed : ∀ call, Standing history call → Absorbed memory.toContinuityRecord call.completion

theorem standing_concat {history : List (ContinuityCall × List String)} {call last : ContinuityCall}
    {conflicts : List String} (h : Standing (history ++ [(last, conflicts)]) call) :
    (call = last ∧ conflicts = []) ∨
      Standing history call ∧ last.completion.chapterId ≠ call.completion.chapterId := by
  obtain ⟨before, after, heq, hlater⟩ := h
  rcases List.eq_nil_or_concat after with rfl | ⟨rest, entry, rfl⟩
  · obtain ⟨-, hlast⟩ := List.append_inj' heq rfl
    obtain ⟨rfl, rfl⟩ := Prod.mk.inj (List.cons.inj hlast).1
    exact .inl ⟨rfl, rfl⟩
  · rw [List.concat_eq_append, ← List.cons_append, ← List.append_assoc] at heq
    obtain ⟨hhistory, hlast⟩ := List.append_inj' heq rfl
    obtain rfl := (List.cons.inj hlast).1
    refine .inr ⟨⟨before, rest, hhistory, fun later hmem => hlater later ?_⟩, hlater (last, conflicts) ?_⟩
    · simp [hmem]
    · simp

/-- The story of a starting record is the one that the call names, if it names one. -/
theorem storyId_startingRecord {memory : Option ContinuityMemory} {storyId memoryId : Option String} {now : ℕ}
    {start : ContinuityRecord} (h : startingRecord memory storyId memoryId now = .ok start) :
    (storyId = none ∨ storyId = some start.storyId) ∧ ∀ held, memory = some held → start.storyId = held.storyId := by
  cases memory with
  | none =>
    unfold startingRecord at h
    simp only [] at h
    split at h
    · cases h
    · cases h
    · cases h
      exact ⟨.inr rfl, nofun⟩
  | some held =>
    obtain rfl := startingRecord_some h
    refine ⟨?_, fun _ hheld => by cases hheld; rfl⟩
    unfold startingRecord at h
    simp only [] at h
    split at h
    · cases h
    next hother =>
      cases storyId with
      | none => exact .inl rfl
      | some storyId => exact .inr (by_contra fun hne => hother ⟨rfl, hne⟩)

theorem Recorded.call {history : List (ContinuityCall × List String)} {memory : Option ContinuityMemory}
    {call : ContinuityCall} {result : ContinuityUpdateResult}
    (h : ∀ held, memory = some held → Recorded history held) (hempty : memory = none → history = [])
    (hcall : call.apply memory = .ok result) :
    Recorded (history ++ [(call, result.conflicts)]) result.memory := by
  obtain ⟨start, hstart, hupdated⟩ := update_eq_ok hcall
  obtain ⟨hstory, hsame⟩ := storyId_startingRecord hstart
  obtain ⟨-, -, -, hopen, hresolved⟩ := startingRecord_eq_ok hstart
  have hunique : (start.unresolvedThreads.map UnresolvedThread.id).Nodup := hopen ▸ (unique_contents memory).2.2
  have hdisjoint : ∀ thread ∈ start.unresolvedThreads, thread.id ∉ start.resolvedThreads.map ResolvedThread.id := by
    rw [hopen, hresolved]
    cases memory with
    | none => exact nofun
    | some held => exact (h held rfl).kept.disjoint
  refine ⟨.of_updated hupdated hunique hdisjoint, fun hnil => ?_, fun entry hentry => ?_, fun other hother => ?_⟩
  · have hmem : call.completion.toSummary ∈ result.memory.chapterSummaries := by
      rw [hupdated.chapterSummaries]
      exact mem_ordered.mpr (List.mem_append_right _ (List.mem_singleton_self _))
    rw [hnil] at hmem
    cases hmem
  · rw [hupdated.storyId]
    rcases List.mem_append.mp hentry with hold | hnew
    · cases memory with
      | none =>
        rw [hempty rfl] at hold
        cases hold
      | some held =>
        rw [hsame held rfl]
        exact (h held rfl).stories entry hold
    · obtain rfl := List.mem_singleton.mp hnew
      exact hstory
  · rcases standing_concat hother with ⟨rfl, hnone⟩ | ⟨hstanding, hchapter⟩
    · exact absorbed_of_update hcall hnone
    · cases memory with
      | none =>
        rw [hempty rfl] at hstanding
        obtain ⟨before, after, heq, -⟩ := hstanding
        exact absurd heq.symm (by simp)
      | some held =>
        have habsorbed := (h held rfl).absorbed other hstanding
        rw [← startingRecord_some hstart] at habsorbed
        exact habsorbed.of_update hupdated hchapter hunique

theorem recorded_of_reached {history : List (ContinuityCall × List String)} {memory : Option ContinuityMemory}
    (h : Reached history memory) :
    (∀ held, memory = some held → Recorded history held) ∧ (memory = none → history = []) := by
  induction h with
  | start => exact ⟨nofun, fun _ => rfl⟩
  | call _ hcall ih =>
    refine ⟨?_, nofun⟩
    rintro held ⟨rfl⟩
    exact .call ih.1 ih.2 hcall

/-- What holds of a memory that any calls have led to. -/
structure RetryLaws (history : List (ContinuityCall × List String)) (memory : ContinuityMemory) : Prop where
  /-- A completion that stands can be merged again without effect. -/
  retried : ∀ call, Standing history call → ∀ now, ∃ result,
    { call with now }.apply (some memory) = .ok result ∧ result.conflicts = [] ∧
      result.memory.toContinuityRecord = { memory.toContinuityRecord with updatedAt := now }
  /-- The ids of each list are unique. -/
  unique : (memory.chapterSummaries.map ChapterSummary.chapterId).Nodup ∧
    (memory.canonFacts.map CanonFact.id).Nodup ∧ (memory.timelineFacts.map TimelineFact.id).Nodup ∧
    (memory.unresolvedThreads.map UnresolvedThread.id).Nodup ∧ (memory.resolvedThreads.map ResolvedThread.id).Nodup
  /-- No thread is both open and paid off. -/
  disjoint : ∀ id ∈ memory.unresolvedThreads.map UnresolvedThread.id, id ∉ memory.resolvedThreads.map ResolvedThread.id
  /-- The memory is as of the chapter whose summary is the last by order and id. -/
  asOf : ∃ last ∈ memory.chapterSummaries, memory.asOfChapterId = some last.chapterId ∧
    ∀ other ∈ memory.chapterSummaries, Precedes other last
  /-- A further completion keeps every fact and every thread that was paid off. -/
  grows : ∀ (call : ContinuityCall) result, call.apply (some memory) = .ok result →
    memory.canonFacts ⊆ result.memory.canonFacts ∧ memory.timelineFacts ⊆ result.memory.timelineFacts ∧
      memory.resolvedThreads ⊆ result.memory.resolvedThreads ∧
      ∀ thread ∈ memory.resolvedThreads, thread.id ∉ result.memory.unresolvedThreads.map UnresolvedThread.id

/-- **A chapter merged again changes nothing**, however late. -/
theorem retry_of_reached {history : List (ContinuityCall × List String)} {memory : ContinuityMemory}
    (h : Reached history (some memory)) : RetryLaws history memory := by
  obtain ⟨hall, hempty⟩ := recorded_of_reached h
  have hrecorded := hall memory rfl
  refine ⟨fun call hstanding now => ?_, ?_, fun id hid hmem => ?_, ?_, fun call result hcall => ?_⟩
  · obtain ⟨before, after, heq, -⟩ := id hstanding
    have hstory := hrecorded.stories (call, []) (by rw [heq]; simp)
    exact update_of_absorbed hrecorded.kept (hrecorded.absorbed call hstanding) hstory call.memoryId now
  · exact ⟨memory.valid.chapterSummaries.unique, memory.valid.canonFacts.unique, memory.valid.timelineFacts.unique,
      memory.valid.unresolvedThreads.unique, memory.valid.resolvedThreads.unique⟩
  · obtain ⟨thread, hthread, rfl⟩ := List.mem_map.mp hid
    exact hrecorded.kept.disjoint thread hthread hmem
  · refine ⟨memory.chapterSummaries.getLast hrecorded.summarized, List.getLast_mem _, ?_, fun other hother => ?_⟩
    · rw [hrecorded.kept.asOf, List.getLast?_eq_some_getLast hrecorded.summarized]
      rfl
    · have hsorted := pairwise_ordered memory.chapterSummaries
      rw [hrecorded.kept.chapterSummaries, ← List.dropLast_append_getLast hrecorded.summarized,
        List.pairwise_append] at hsorted
      rw [← List.dropLast_append_getLast hrecorded.summarized, List.mem_append, List.mem_singleton] at hother
      rcases hother with hbefore | rfl
      · exact hsorted.2.2 other hbefore _ (List.mem_singleton_self _)
      · exact .inr ⟨rfl, le_refl _⟩
  · obtain ⟨start, hstart, hupdated⟩ := update_eq_ok hcall
    obtain rfl := startingRecord_some hstart
    have hunique := memory.valid.unresolvedThreads.unique
    have hresolved := resolvedThreads_subset hupdated hunique
    have hkept := (Recorded.call hall hempty hcall).kept
    refine ⟨canonFacts_subset hupdated, timelineFacts_subset hupdated, hresolved, fun thread hthread hmem => ?_⟩
    obtain ⟨open', hopen, hid⟩ := List.mem_map.mp hmem
    exact hkept.disjoint open' hopen (hid ▸ List.mem_map_of_mem (hresolved hthread))

/-- A story's first chapter can be merged again. -/
theorem retry_keeperChapter : ∃ result,
    ({ completion := keeperChapter, storyId := some "tale" } : ContinuityCall).apply none = .ok result ∧
      result.conflicts = [] ∧
      RetryLaws [({ completion := keeperChapter, storyId := some "tale" }, result.conflicts)] result.memory := by
  have hok : ((({ completion := keeperChapter, storyId := some "tale" } : ContinuityCall).apply none).toOption.map
      fun result => result.conflicts) = some [] := by decide +kernel
  obtain ⟨result, hresult, hconflicts⟩ := Option.map_eq_some_iff.mp hok
  have hcall := ok_of_toOption hresult
  exact ⟨result, hcall, hconflicts, retry_of_reached (.call .start hcall)⟩

end CreativeStudio.Story
