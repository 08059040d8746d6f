import CreativeStudio.Data.Dict
import CreativeStudio.Data.PrefixCut
import CreativeStudio.Story.ContinuityBuilder

/-!
# The continuity context of a chapter prompt

What a chapter prompt is told of the chapters before it: the latest summary, the open threads, the canon
facts and the timeline, in this order, cut where the budget ends.
-/

namespace CreativeStudio.Story
open Data

/-- `DEFAULT_CONTEXT_CHARACTER_BUDGET`. -/
def defaultContextCharacterBudget : ℤ := 4000

/-- The fields of a context that items are kept in. -/
inductive ContextField
  | chapterSummary | unresolvedThreads | canonFacts | timelineFacts
  deriving DecidableEq, Repr

/-- The name of the field in the source. -/
def ContextField.name : ContextField → String
  | .chapterSummary => "chapter_summary"
  | .unresolvedThreads => "unresolved_threads"
  | .canonFacts => "canon_facts"
  | .timelineFacts => "timeline_facts"

/-- An item that may be kept. -/
inductive Candidate
  | summary (item : ChapterSummary)
  | thread (item : UnresolvedThread)
  | canonFact (item : CanonFact)
  | timelineFact (item : TimelineFact)
  deriving DecidableEq, Repr

namespace Candidate

/-- The field it belongs to. -/
def field : Candidate → ContextField
  | summary _ => .chapterSummary
  | thread _ => .unresolvedThreads
  | canonFact _ => .canonFacts
  | timelineFact _ => .timelineFacts

/-- The text whose length counts against the budget. -/
def text : Candidate → String
  | summary item => item.summary
  | thread item => item.description
  | canonFact item => item.fact
  | timelineFact item => item.description

/-- `len(text)`. -/
def size (candidate : Candidate) : ℕ := candidate.text.length

end Candidate

/-- `ContinuityContext`. -/
structure ContinuityContext where
  storyId : String
  asOfChapterId : Option String := none
  characterBudget : ℤ
  chapterSummary : Option ChapterSummary := none
  unresolvedThreads : List UnresolvedThread := []
  canonFacts : List CanonFact := []
  timelineFacts : List TimelineFact := []
  omittedCounts : Dict ℕ := []
  deriving DecidableEq, Repr

namespace ContinuityContext

/-- `is_empty`. -/
def isEmpty (context : ContinuityContext) : Bool :=
  !(context.chapterSummary.isSome || !context.unresolvedThreads.isEmpty || !context.canonFacts.isEmpty ||
    !context.timelineFacts.isEmpty || !context.omittedCounts.isEmpty)

/-- The items that are kept, field by field. -/
def items (context : ContinuityContext) : List Candidate :=
  context.chapterSummary.toList.map .summary ++ context.unresolvedThreads.map .thread ++
    context.canonFacts.map .canonFact ++ context.timelineFacts.map .timelineFact

end ContinuityContext

/-- The list that the budget is spent on. -/
def candidates (memory : ContinuityMemory) : List Candidate :=
  (ordered memory.chapterSummaries).getLast?.toList.map .summary ++
    (ordered memory.unresolvedThreads).map .thread ++ (ordered memory.canonFacts).map .canonFact ++
    (ordered memory.timelineFacts).map .timelineFact

/-- The variables of the budget loop. -/
structure Selection where
  chapterSummary : List ChapterSummary := []
  unresolvedThreads : List UnresolvedThread := []
  canonFacts : List CanonFact := []
  timelineFacts : List TimelineFact := []
  omittedCounts : Dict ℕ := []
  remaining : ℕ
  truncated : Bool := false

namespace Selection

/-- `kept[field_name].append(item)`. -/
def keep (selection : Selection) : Candidate → Selection
  | .summary item => { selection with chapterSummary := selection.chapterSummary ++ [item] }
  | .thread item => { selection with unresolvedThreads := selection.unresolvedThreads ++ [item] }
  | .canonFact item => { selection with canonFacts := selection.canonFacts ++ [item] }
  | .timelineFact item => { selection with timelineFacts := selection.timelineFacts ++ [item] }

/-- An item is cut for space, and everything after it. -/
def leaveOut (selection : Selection) (field : ContextField) : Selection :=
  { selection with
    truncated := true
    omittedCounts := selection.omittedCounts.set field.name
      ((selection.omittedCounts.get? field.name).getD 0 + 1) }

/-- One turn of the loop. -/
def consider (selection : Selection) (candidate : Candidate) : Selection :=
  if !selection.truncated && candidate.size ≤ selection.remaining then
    { selection.keep candidate with remaining := selection.remaining - candidate.size }
  else selection.leaveOut candidate.field

end Selection

/-- The context of a memory that the budget loop has gone through. -/
def contextOf (memory : ContinuityMemory) (characterBudget : ℤ) : ContinuityContext :=
  let selection := (candidates memory).foldl Selection.consider { remaining := characterBudget.toNat }
  { storyId := memory.storyId
    asOfChapterId := memory.asOfChapterId
    characterBudget
    chapterSummary := selection.chapterSummary.head?
    unresolvedThreads := selection.unresolvedThreads
    canonFacts := selection.canonFacts
    timelineFacts := selection.timelineFacts
    omittedCounts := selection.omittedCounts }

/-- `build_continuity_context`. -/
def buildContinuityContext (memory : Option ContinuityMemory) (storyId : String)
    (characterBudget : ℤ := defaultContextCharacterBudget) : Except Exc ContinuityContext :=
  if characterBudget ≤ 0 then .error (.value s!"character_budget must be positive, got {characterBudget}")
  else match memory with
    | none =>
      if storyId = "" then .error (.value "story_id: String should have at least 1 character")
      else .ok { storyId, characterBudget }
    | some memory =>
      if memory.storyId ≠ storyId then
        .error (.value (s!"continuity memory {quote memory.id} belongs to story_id " ++
          s!"{quote memory.storyId}, not {quote storyId}"))
      else
        .ok (contextOf memory characterBudget)

/-! ## What the loop keeps -/

namespace Candidate

def summary? : Candidate → Option ChapterSummary
  | summary item => some item
  | _ => none

def thread? : Candidate → Option UnresolvedThread
  | thread item => some item
  | _ => none

def canonFact? : Candidate → Option CanonFact
  | canonFact item => some item
  | _ => none

def timelineFact? : Candidate → Option TimelineFact
  | timelineFact item => some item
  | _ => none

end Candidate

/-- Some items have been kept, and others omitted. -/
structure Selects (before : Selection) (kept omitted : List Candidate) (after : Selection) : Prop where
  chapterSummary : after.chapterSummary = before.chapterSummary ++ kept.filterMap Candidate.summary?
  unresolvedThreads : after.unresolvedThreads = before.unresolvedThreads ++ kept.filterMap Candidate.thread?
  canonFacts : after.canonFacts = before.canonFacts ++ kept.filterMap Candidate.canonFact?
  timelineFacts : after.timelineFacts = before.timelineFacts ++ kept.filterMap Candidate.timelineFact?
  omittedCounts : ∀ field : ContextField, (after.omittedCounts.get? field.name).getD 0 =
    (before.omittedCounts.get? field.name).getD 0 + omitted.countP fun candidate => candidate.field = field
  omittedTotal : (after.omittedCounts.map Prod.snd).sum =
    (before.omittedCounts.map Prod.snd).sum + omitted.length

section
variable {a b c : Selection} {kept kept' omitted omitted' : List Candidate}

theorem name_inj {field field' : ContextField} : field.name = field'.name ↔ field = field' := by
  cases field <;> cases field' <;> decide

/-- A count goes up by one. -/
theorem sum_set_succ (counts : Dict ℕ) (key : String) :
    ((counts.set key ((counts.get? key).getD 0 + 1)).map Prod.snd).sum = (counts.map Prod.snd).sum + 1 := by
  induction counts with
  | nil => rfl
  | cons member rest ih =>
    obtain ⟨name, count⟩ := member
    by_cases hname : name = key
    · simp [Dict.set, Dict.get?, hname]
      omega
    · simp only [Dict.set, Dict.get?, hname, if_false, List.map_cons, List.sum_cons]
      omega

theorem Selects.refl (selection : Selection) : Selects selection [] [] selection := by
  constructor <;> simp

theorem Selects.trans (h : Selects a kept omitted b) (h' : Selects b kept' omitted' c) :
    Selects a (kept ++ kept') (omitted ++ omitted') c where
  chapterSummary := by rw [h'.chapterSummary, h.chapterSummary, List.filterMap_append, List.append_assoc]
  unresolvedThreads := by rw [h'.unresolvedThreads, h.unresolvedThreads, List.filterMap_append, List.append_assoc]
  canonFacts := by rw [h'.canonFacts, h.canonFacts, List.filterMap_append, List.append_assoc]
  timelineFacts := by rw [h'.timelineFacts, h.timelineFacts, List.filterMap_append, List.append_assoc]
  omittedCounts field := by rw [h'.omittedCounts, h.omittedCounts, List.countP_append, Nat.add_assoc]
  omittedTotal := by rw [h'.omittedTotal, h.omittedTotal, List.length_append, Nat.add_assoc]

theorem selects_keep (selection : Selection) (candidate : Candidate) (remaining : ℕ) :
    Selects selection [candidate] [] { selection.keep candidate with remaining } := by
  cases candidate <;>
    constructor <;> simp [Selection.keep, Candidate.summary?, Candidate.thread?, Candidate.canonFact?,
      Candidate.timelineFact?]

theorem selects_leaveOut (selection : Selection) (candidate : Candidate) :
    Selects selection [] [candidate] (selection.leaveOut candidate.field) := by
  refine ⟨by simp [Selection.leaveOut], by simp [Selection.leaveOut], by simp [Selection.leaveOut],
    by simp [Selection.leaveOut], fun field => ?_, sum_set_succ _ _⟩
  rw [Selection.leaveOut, Dict.get?_set]
  by_cases hfield : candidate.field = field
  · simp [hfield]
  · simp [hfield, name_inj]

/-- After the cut everything is omitted. -/
theorem selects_truncated {selection : Selection} (h : selection.truncated = true) (list : List Candidate) :
    Selects selection [] list (list.foldl Selection.consider selection) := by
  induction list generalizing selection with
  | nil => exact Selects.refl selection
  | cons candidate rest ih =>
    have hconsider : selection.consider candidate = selection.leaveOut candidate.field := by
      simp [Selection.consider, h]
    rw [List.foldl_cons, hconsider]
    exact (selects_leaveOut selection candidate).trans (@ih (selection.leaveOut candidate.field) rfl)

/-- The loop keeps the longest prefix within what remains. -/
theorem selects_foldl {selection : Selection} (h : selection.truncated = false) (list : List Candidate) :
    Selects selection (prefixCut Candidate.size selection.remaining list)
      (list.drop (prefixCut Candidate.size selection.remaining list).length)
      (list.foldl Selection.consider selection) := by
  induction list generalizing selection with
  | nil => exact Selects.refl selection
  | cons candidate rest ih =>
    rw [List.foldl_cons, prefixCut]
    by_cases hfits : candidate.size ≤ selection.remaining
    · have hconsider : selection.consider candidate =
          { selection.keep candidate with remaining := selection.remaining - candidate.size } := by
        simp [Selection.consider, h, hfits]
      rw [hconsider, if_pos hfits]
      have hkeep := selects_keep selection candidate (selection.remaining - candidate.size)
      exact hkeep.trans (@ih { selection.keep candidate with remaining := selection.remaining - candidate.size } (by
        cases candidate <;> exact h))
    · have hconsider : selection.consider candidate = selection.leaveOut candidate.field := by
        simp [Selection.consider, hfits]
      rw [hconsider, if_neg hfits]
      exact (selects_leaveOut selection candidate).trans (selects_truncated rfl rest)

end

/-! ## The fields of a grouped list -/

/-- The place of the field in the order of the candidates. -/
def ContextField.rank : ContextField → ℕ
  | .chapterSummary => 0
  | .unresolvedThreads => 1
  | .canonFacts => 2
  | .timelineFacts => 3

/-- The candidates of one field after those of another. -/
def Grouped (list : List Candidate) : Prop := list.Pairwise fun a b => a.field.rank ≤ b.field.rank

theorem grouped_candidates (memory : ContinuityMemory) : Grouped (candidates memory) := by
  unfold Grouped candidates
  simp only [List.pairwise_append, List.pairwise_map, List.mem_append, List.mem_map, Candidate.field,
    ContextField.rank]
  refine ⟨⟨⟨?_, ?_, ?_⟩, ?_, ?_⟩, ?_, ?_⟩
  all_goals first
    | exact List.pairwise_of_forall fun _ _ => le_refl _
    | skip
  · rintro _ ⟨_, -, rfl⟩ _ ⟨_, -, rfl⟩
    exact Nat.zero_le _
  · rintro _ (⟨_, -, rfl⟩ | ⟨_, -, rfl⟩) _ ⟨_, -, rfl⟩ <;> exact Nat.le_of_ble_eq_true rfl
  · rintro _ ((⟨_, -, rfl⟩ | ⟨_, -, rfl⟩) | ⟨_, -, rfl⟩) _ ⟨_, -, rfl⟩ <;> exact Nat.le_of_ble_eq_true rfl

theorem filterMap_eq_nil_of_rank {list : List Candidate} {k : ℕ} (h : ∀ a ∈ list, k ≤ a.field.rank) :
    (1 ≤ k → list.filterMap Candidate.summary? = []) ∧ (2 ≤ k → list.filterMap Candidate.thread? = []) ∧
      (3 ≤ k → list.filterMap Candidate.canonFact? = []) := by
  refine ⟨fun hk => ?_, fun hk => ?_, fun hk => ?_⟩
  all_goals
    refine List.filterMap_eq_nil_iff.mpr fun a ha => ?_
    have hrank := h a ha
    cases a <;> first | rfl | (simp only [Candidate.field, ContextField.rank] at hrank; omega)

/-- A grouped list is its fields one after the other. -/
theorem Grouped.eq_fields {list : List Candidate} (h : Grouped list) :
    (list.filterMap Candidate.summary?).map .summary ++ (list.filterMap Candidate.thread?).map .thread ++
      (list.filterMap Candidate.canonFact?).map .canonFact ++
      (list.filterMap Candidate.timelineFact?).map .timelineFact = list := by
  induction list with
  | nil => rfl
  | cons candidate rest ih =>
    obtain ⟨hfirst, hrest⟩ := List.pairwise_cons.mp h
    have hih := ih hrest
    obtain ⟨hsummary, hthread, hcanon⟩ := filterMap_eq_nil_of_rank hfirst
    cases candidate with
    | summary item =>
      simpa [List.filterMap_cons, Candidate.summary?, Candidate.thread?, Candidate.canonFact?,
        Candidate.timelineFact?] using hih
    | thread item =>
      have hnil := hsummary (le_refl _)
      rw [hnil] at hih
      simpa [List.filterMap_cons, Candidate.summary?, Candidate.thread?, Candidate.canonFact?, Candidate.timelineFact?,
        hnil] using hih
    | canonFact item =>
      have hnil := hsummary (Nat.le_of_ble_eq_true rfl)
      have hnil' := hthread (le_refl _)
      rw [hnil, hnil'] at hih
      simpa [List.filterMap_cons, Candidate.summary?, Candidate.thread?, Candidate.canonFact?, Candidate.timelineFact?,
        hnil, hnil'] using hih
    | timelineFact item =>
      have hnil := hsummary (Nat.le_of_ble_eq_true rfl)
      have hnil' := hthread (Nat.le_of_ble_eq_true rfl)
      have hnil'' := hcanon (le_refl _)
      rw [hnil, hnil', hnil''] at hih
      simpa [List.filterMap_cons, Candidate.summary?, Candidate.thread?, Candidate.canonFact?, Candidate.timelineFact?,
        hnil, hnil', hnil''] using hih

/-! ## The context is a prefix of the candidates -/

section
variable {memory : ContinuityMemory} {budget : ℤ}

/-- At most one summary is a candidate. -/
theorem length_summaries_le {taken : List Candidate} (h : taken <+: candidates memory) :
    (taken.filterMap Candidate.summary?).length ≤ 1 := by
  refine Nat.le_trans (h.filterMap Candidate.summary?).length_le ?_
  have hthread : Candidate.summary? ∘ Candidate.thread = fun _ => none := rfl
  have hcanon : Candidate.summary? ∘ Candidate.canonFact = fun _ => none := rfl
  have htimeline : Candidate.summary? ∘ Candidate.timelineFact = fun _ => none := rfl
  have hsummary : Candidate.summary? ∘ Candidate.summary = some := rfl
  simp only [candidates, List.filterMap_append, List.filterMap_map, List.length_append, hthread, hcanon, htimeline,
    hsummary, List.filterMap_none, List.filterMap_some, List.length_nil, Nat.add_zero]
  cases (ordered memory.chapterSummaries).getLast? <;> simp

theorem selects_contextOf (memory : ContinuityMemory) (budget : ℤ) :
    Selects { remaining := budget.toNat } (prefixCut Candidate.size budget.toNat (candidates memory))
      ((candidates memory).drop (prefixCut Candidate.size budget.toNat (candidates memory)).length)
      ((candidates memory).foldl Selection.consider { remaining := budget.toNat }) :=
  selects_foldl rfl (candidates memory)

/-- The items of the context are what the budget takes of the candidates. -/
theorem items_contextOf (memory : ContinuityMemory) (budget : ℤ) :
    (contextOf memory budget).items = prefixCut Candidate.size budget.toNat (candidates memory) := by
  have hkept := @prefixCut_isPrefix _ Candidate.size budget.toNat (candidates memory)
  have hselects := selects_contextOf memory budget
  have hgrouped : Grouped (prefixCut Candidate.size budget.toNat (candidates memory)) :=
    (grouped_candidates memory).sublist hkept.sublist
  have hsummaries := length_summaries_le hkept
  have hhead : (contextOf memory budget).chapterSummary.toList =
      (prefixCut Candidate.size budget.toNat (candidates memory)).filterMap Candidate.summary? := by
    rw [contextOf]
    simp only [hselects.chapterSummary, List.nil_append]
    rcases hlist : (prefixCut Candidate.size budget.toNat (candidates memory)).filterMap Candidate.summary? with
      _ | ⟨item, _ | ⟨item', rest⟩⟩
    · rfl
    · rfl
    · rw [hlist] at hsummaries
      simp at hsummaries
  rw [ContinuityContext.items, hhead]
  simp only [contextOf, hselects.unresolvedThreads, hselects.canonFacts, hselects.timelineFacts, List.nil_append]
  exact hgrouped.eq_fields

/-- Every candidate is kept or counted as omitted. -/
theorem account_contextOf (memory : ContinuityMemory) (budget : ℤ) (field : ContextField) :
    ((contextOf memory budget).items.countP fun candidate => candidate.field = field) +
      ((contextOf memory budget).omittedCounts.get? field.name).getD 0 =
        (candidates memory).countP fun candidate => candidate.field = field := by
  have hsplit := List.prefix_iff_eq_append.mp
    (@prefixCut_isPrefix _ Candidate.size budget.toNat (candidates memory))
  have homitted := (selects_contextOf memory budget).omittedCounts field
  rw [items_contextOf, contextOf, homitted]
  conv_rhs => rw [← hsplit, List.countP_append]
  simp [Dict.get?]

theorem buildContinuityContext_eq (memory : ContinuityMemory) (hbudget : 0 < budget) :
    buildContinuityContext (some memory) memory.storyId budget = .ok (contextOf memory budget) := by
  rw [buildContinuityContext, if_neg (by omega)]
  simp

/-- A context for every budget: the longest prefix of the candidates that fits, with the rest counted. -/
theorem buildContinuityContext_prefix (memory : ContinuityMemory) {budget : ℤ} (hbudget : 0 < budget) :
    ∃ context, buildContinuityContext (some memory) memory.storyId budget = .ok context ∧
      LongestPrefix Candidate.size budget.toNat (candidates memory) context.items ∧
      (∀ field : ContextField, (context.items.countP fun candidate => candidate.field = field) +
        (context.omittedCounts.get? field.name).getD 0 =
          (candidates memory).countP fun candidate => candidate.field = field) ∧
      ∀ budget' ≥ budget, ∃ context', buildContinuityContext (some memory) memory.storyId budget' = .ok context' ∧
        context.items <+: context'.items := by
  refine ⟨_, buildContinuityContext_eq memory hbudget, ?_, account_contextOf memory budget, ?_⟩
  · rw [items_contextOf]
    exact longestPrefix_prefixCut budget.toNat (candidates memory)
  · intro budget' hle
    refine ⟨_, buildContinuityContext_eq memory (by omega), ?_⟩
    rw [items_contextOf, items_contextOf]
    exact prefixCut_mono (by omega)

end

/-- A memory of two facts, the first of them with a subject longer than it. -/
def twoFacts : ContinuityMemory where
  id := "continuity_s1"
  storyId := "s1"
  canonFacts := [
    { id := "f1", subject := "the house", fact := "burnt", order := 0, sourceChapterId := none },
    { id := "f2", subject := "Ann", fact := "left the town", order := 1, sourceChapterId := none }]
  createdAt := 0
  updatedAt := 0
  valid := by decide +kernel

/-- A budget of five characters keeps the first fact. -/
theorem buildContinuityContext_prefix_twoFacts :
    ∃ context, buildContinuityContext (some twoFacts) "s1" 5 = .ok context ∧
      LongestPrefix Candidate.size 5 (candidates twoFacts) context.items ∧
      (∀ field : ContextField, (context.items.countP fun candidate => candidate.field = field) +
        (context.omittedCounts.get? field.name).getD 0 =
          (candidates twoFacts).countP fun candidate => candidate.field = field) ∧
      ∀ budget' ≥ (5 : ℤ), ∃ context', buildContinuityContext (some twoFacts) "s1" budget' = .ok context' ∧
        context.items <+: context'.items :=
  buildContinuityContext_prefix twoFacts (by decide)

end CreativeStudio.Story
