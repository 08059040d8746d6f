import CreativeStudio.Story.ContinuityContext

/-!
# The continuity block of a chapter prompt

The block prints what the context keeps. The budget has paid for one text of each item; the subject of a
canon fact is printed besides, so the block stays within the budget only where the subjects fit into what
the texts have left of it.
-/

namespace CreativeStudio.Story
open Data

/-- `CONTINUITY_PROMPT_HEADING`. -/
def continuityPromptHeading : String := "### CONTINUITY MEMORY"

/-- The lines of a section, if there is anything in it. -/
def sectionLines (heading : String) (lines : List String) : List String :=
  if lines.isEmpty then [] else heading :: lines

/-- The lines that are joined to the block. -/
def promptLines (context : ContinuityContext) : List String :=
  let omittedTotal := (context.omittedCounts.map Prod.snd).sum
  [continuityPromptHeading] ++
    (context.chapterSummary.toList.map fun summary => s!"Previous chapter summary: {summary.summary}") ++
    sectionLines "Unresolved threads the story still owes the reader:"
      (context.unresolvedThreads.map fun thread => s!"- {thread.description}") ++
    sectionLines "Established facts this chapter must not contradict:"
      (context.canonFacts.map fun fact => s!"- {fact.subject}: {fact.fact}") ++
    sectionLines "Timeline established so far:"
      (context.timelineFacts.map fun fact => s!"- {fact.description}") ++
    if omittedTotal = 0 then [] else
      [s!"({omittedTotal} additional continuity item(s) omitted to fit the " ++
        s!"{context.characterBudget}-character continuity budget.)"]

/-- `render_continuity_prompt_block`. -/
def renderContinuityPromptBlock (context : ContinuityContext) : String :=
  if context.isEmpty then "" else "\n".intercalate (promptLines context)

/-! ## The length of the block -/

/-- A line and the newline after it. -/
def lineSize (line : String) : ℕ := line.length + 1

/-- The characters of the memory that an item is printed with. -/
def Candidate.printedSize : Candidate → ℕ
  | .summary item => item.summary.length
  | .thread item => item.description.length
  | .canonFact item => item.subject.length + item.fact.length
  | .timelineFact item => item.description.length

/-- The characters of a context's items that `render_continuity_prompt_block` prints. -/
def printedCharacters (context : ContinuityContext) : ℕ := totalSize Candidate.printedSize context.items

/-- What a line prints besides its item, at most. -/
def itemOverhead : ℕ := 27

/-- The headings and the line about what was omitted. -/
def headingOverhead : ℕ := 248

theorem length_join {lines : List String} (h : lines ≠ []) :
    ("\n".intercalate lines).length + 1 = totalSize lineSize lines := by
  induction lines with
  | nil => exact absurd rfl h
  | cons line rest ih =>
    by_cases hrest : rest = []
    · simp [hrest, lineSize]
    · have hih := ih hrest
      rw [String.intercalate_cons_of_ne_nil hrest, totalSize_cons, ← hih, String.length_append, String.length_append]
      simp only [lineSize]
      rw [show "\n".length = 1 from rfl]
      omega

theorem totalSize_map_of_line {α : Type} {line : α → String} {size : α → ℕ} {overhead : ℕ}
    (h : ∀ item, lineSize (line item) ≤ size item + overhead) (items : List α) :
    totalSize lineSize (items.map line) ≤ totalSize size items + overhead * items.length := by
  induction items with
  | nil => simp
  | cons item rest ih =>
    have hitem := h item
    rw [List.map_cons, totalSize_cons, totalSize_cons, List.length_cons, Nat.mul_succ]
    omega

theorem totalSize_sectionLines (heading : String) (lines : List String) :
    totalSize lineSize (sectionLines heading lines) ≤ lineSize heading + totalSize lineSize lines := by
  rw [sectionLines]
  split <;> simp

theorem length_natCast {budget digits : ℕ} (hdigits : 0 < digits) (h : budget < 10 ^ digits) :
    (toString (budget : ℤ)).length ≤ digits := by
  have hcast : toString (budget : ℤ) = Nat.repr budget := rfl
  rw [hcast]
  exact (Nat.length_repr_le_iff hdigits).mpr h

theorem toString_str (text : String) : toString text = text := rfl

theorem lineSize_summary (item : ChapterSummary) :
    lineSize s!"Previous chapter summary: {item.summary}" ≤ item.summary.length + itemOverhead := by
  have hlabel : "Previous chapter summary: ".length = 26 := by decide
  simp only [lineSize, itemOverhead, String.length_append, toString_str]
  omega

theorem lineSize_description (description : String) :
    lineSize s!"- {description}" ≤ description.length + itemOverhead := by
  have hlabel : "- ".length = 2 := by decide
  simp only [lineSize, itemOverhead, String.length_append, toString_str]
  omega

theorem lineSize_fact (item : CanonFact) :
    lineSize s!"- {item.subject}: {item.fact}" ≤ item.subject.length + item.fact.length + itemOverhead := by
  have hlabel : "- ".length = 2 := by decide
  have hcolon : ": ".length = 2 := by decide
  simp only [lineSize, itemOverhead, String.length_append, toString_str]
  omega

/-- The line about what was omitted, with numbers of at most four and seven digits. -/
theorem lineSize_omitted {total : ℕ} {budget : ℤ} (htotal : (toString total).length ≤ 4)
    (hbudget : (toString budget).length ≤ 7) :
    lineSize (s!"({total} additional continuity item(s) omitted to fit the " ++
      s!"{budget}-character continuity budget.)") ≤ 93 := by
  have hopen : "(".length = 1 := by decide
  have hlabel : " additional continuity item(s) omitted to fit the ".length = 50 := by decide
  have hend : "-character continuity budget.)".length = 30 := by decide
  simp only [lineSize, String.length_append, toString_str]
  omega

/-- The headings, each with its newline. -/
theorem lineSize_headings : lineSize continuityPromptHeading +
    lineSize "Unresolved threads the story still owes the reader:" +
    lineSize "Established facts this chapter must not contradict:" + lineSize "Timeline established so far:" = 155 := by
  decide

/-- The lines of a context whose omission line, if there is one, is short. -/
theorem totalSize_promptLines (context : ContinuityContext)
    (homitted : (context.omittedCounts.map Prod.snd).sum ≠ 0 →
      (toString (context.omittedCounts.map Prod.snd).sum).length ≤ 4 ∧
      (toString context.characterBudget).length ≤ 7) :
    totalSize lineSize (promptLines context) ≤
      printedCharacters context + itemOverhead * context.items.length + headingOverhead := by
  have hsummaries := totalSize_map_of_line lineSize_summary context.chapterSummary.toList
  have hthreads := totalSize_map_of_line (fun item : UnresolvedThread => lineSize_description item.description)
    context.unresolvedThreads
  have hfacts := totalSize_map_of_line lineSize_fact context.canonFacts
  have htimeline := totalSize_map_of_line (fun item : TimelineFact => lineSize_description item.description)
    context.timelineFacts
  have hheadings := lineSize_headings
  have hthreads' := totalSize_sectionLines "Unresolved threads the story still owes the reader:"
    (context.unresolvedThreads.map fun thread => s!"- {thread.description}")
  have hfacts' := totalSize_sectionLines "Established facts this chapter must not contradict:"
    (context.canonFacts.map fun fact => s!"- {fact.subject}: {fact.fact}")
  have htimeline' := totalSize_sectionLines "Timeline established so far:"
    (context.timelineFacts.map fun fact => s!"- {fact.description}")
  have hend : totalSize lineSize (if (context.omittedCounts.map Prod.snd).sum = 0 then [] else
      [s!"({(context.omittedCounts.map Prod.snd).sum} additional continuity item(s) omitted to fit the " ++
        s!"{context.characterBudget}-character continuity budget.)"]) ≤ 93 := by
    split
    next => exact Nat.zero_le _
    next h => exact lineSize_omitted (homitted h).1 (homitted h).2
  have hprinted : printedCharacters context =
      totalSize (fun item => item.summary.length) context.chapterSummary.toList +
      totalSize (fun item => item.description.length) context.unresolvedThreads +
      totalSize (fun item => item.subject.length + item.fact.length) context.canonFacts +
      totalSize (fun item => item.description.length) context.timelineFacts := by
    rw [printedCharacters, ContinuityContext.items, totalSize_append, totalSize_append, totalSize_append,
      totalSize_map, totalSize_map, totalSize_map, totalSize_map]
    rfl
  have hlength : context.items.length = context.chapterSummary.toList.length + context.unresolvedThreads.length +
      context.canonFacts.length + context.timelineFacts.length := by
    simp [ContinuityContext.items, Nat.add_assoc]
  have hlines : totalSize lineSize (promptLines context) =
      lineSize continuityPromptHeading +
      totalSize lineSize (context.chapterSummary.toList.map fun summary =>
        s!"Previous chapter summary: {summary.summary}") +
      totalSize lineSize (sectionLines "Unresolved threads the story still owes the reader:"
        (context.unresolvedThreads.map fun thread => s!"- {thread.description}")) +
      totalSize lineSize (sectionLines "Established facts this chapter must not contradict:"
        (context.canonFacts.map fun fact => s!"- {fact.subject}: {fact.fact}")) +
      totalSize lineSize (sectionLines "Timeline established so far:"
        (context.timelineFacts.map fun fact => s!"- {fact.description}")) +
      totalSize lineSize (if (context.omittedCounts.map Prod.snd).sum = 0 then [] else
        [s!"({(context.omittedCounts.map Prod.snd).sum} additional continuity item(s) omitted to fit the " ++
          s!"{context.characterBudget}-character continuity budget.)"]) := by
    rw [promptLines, totalSize_append, totalSize_append, totalSize_append, totalSize_append, totalSize_append]
    rfl
  rw [hlines, hprinted, hlength]
  simp only [itemOverhead, headingOverhead] at hsummaries hthreads hfacts htimeline ⊢
  omega

/-! ## The block of a memory -/

section
variable {α : Type} [MemoryEntry α]

theorem length_ordered_le {items : List α} {cap : ℕ} (h : ValidList cap items) : (ordered items).length ≤ cap := by
  rw [ordered, List.length_insertionSort]
  exact h.within

theorem valid_of_mem_ordered {items : List α} {cap : ℕ} (h : ValidList cap items) {item : α}
    (hitem : item ∈ ordered items) : MemoryEntry.Valid item := by
  rw [ordered, List.mem_insertionSort] at hitem
  exact h.valid item hitem

end

theorem length_candidates_le (memory : ContinuityMemory) : (candidates memory).length ≤ 1201 := by
  have hsummary : (ordered memory.chapterSummaries).getLast?.toList.length ≤ 1 := by
    cases (ordered memory.chapterSummaries).getLast? <;> simp
  have hthreads := length_ordered_le memory.valid.unresolvedThreads
  have hfacts := length_ordered_le memory.valid.canonFacts
  have htimeline := length_ordered_le memory.valid.timelineFacts
  simp only [candidates, List.length_append, List.length_map]
  simp only [maxUnresolvedThreads, maxCanonFacts, maxTimelineFacts] at hthreads hfacts htimeline
  omega

theorem size_candidates_le (memory : ContinuityMemory) :
    ∀ candidate ∈ candidates memory, candidate.size ≤ 4000 := by
  intro candidate hcandidate
  simp only [candidates, List.mem_append, List.mem_map, Option.mem_toList] at hcandidate
  rcases hcandidate with ((⟨item, hitem, rfl⟩ | ⟨item, hitem, rfl⟩) | ⟨item, hitem, rfl⟩) | ⟨item, hitem, rfl⟩
  · have hvalid := valid_of_mem_ordered memory.valid.chapterSummaries (List.mem_of_getLast? hitem)
    exact hvalid.2.2
  · have hvalid := valid_of_mem_ordered memory.valid.unresolvedThreads hitem
    exact Nat.le_trans hvalid.2.2 (by decide)
  · have hvalid := valid_of_mem_ordered memory.valid.canonFacts hitem
    exact Nat.le_trans hvalid.2.2.2 (by decide)
  · have hvalid := valid_of_mem_ordered memory.valid.timelineFacts hitem
    exact Nat.le_trans hvalid.2.2 (by decide)

/-- Something is omitted only where the budget is smaller than all the texts, which the schema limits. -/
theorem budget_lt_of_omitted {memory : ContinuityMemory} {budget : ℤ}
    (h : ((contextOf memory budget).omittedCounts.map Prod.snd).sum ≠ 0) : budget.toNat < 10 ^ 7 := by
  by_contra hlarge
  have hsizes := totalSize_le_mul (size_candidates_le memory)
  have hlength := length_candidates_le memory
  have hall : candidates memory <+: prefixCut Candidate.size budget.toNat (candidates memory) :=
    isPrefix_prefixCut List.prefix_rfl (by omega)
  have homitted := (selects_contextOf memory budget).omittedTotal
  rw [List.drop_eq_nil_of_le hall.length_le] at homitted
  exact h homitted

theorem omittedTotal_le (memory : ContinuityMemory) (budget : ℤ) :
    ((contextOf memory budget).omittedCounts.map Prod.snd).sum ≤ 1201 := by
  have hlength := length_candidates_le memory
  have homitted := (selects_contextOf memory budget).omittedTotal
  rw [List.length_drop] at homitted
  rw [contextOf, homitted]
  simp only [List.map_nil, List.sum_nil]
  omega

theorem length_block_le (memory : ContinuityMemory) {budget : ℤ} (hbudget : 0 < budget) :
    (renderContinuityPromptBlock (contextOf memory budget)).length ≤ printedCharacters (contextOf memory budget) +
      itemOverhead * (contextOf memory budget).items.length + headingOverhead := by
  have hlines := totalSize_promptLines (contextOf memory budget) fun h => by
    have htotal := omittedTotal_le memory budget
    refine ⟨(Nat.length_repr_le_iff (by omega)).mpr (by omega), ?_⟩
    have hnat : (contextOf memory budget).characterBudget = (budget.toNat : ℤ) := by
      exact (Int.toNat_of_nonneg hbudget.le).symm
    rw [hnat]
    exact length_natCast (by omega) (budget_lt_of_omitted h)
  rw [renderContinuityPromptBlock]
  split
  · exact Nat.zero_le _
  · have hlast := length_join (show promptLines (contextOf memory budget) ≠ [] by simp [promptLines])
    omega

/-- The bound on the block that a budget is there for. -/
structure WithinBudget (context : ContinuityContext) (budget : ℤ) : Prop where
  printed : printedCharacters context ≤ budget
  block : (renderContinuityPromptBlock context).length ≤ budget + itemOverhead * context.items.length + headingOverhead

/-- The block stays within the budget exactly when everything whose texts fit does so with its subjects. -/
theorem withinBudget_iff (memory : ContinuityMemory) {budget : ℤ} (hbudget : 0 < budget) :
    (∃ context, buildContinuityContext (some memory) memory.storyId budget = .ok context ∧
        WithinBudget context budget) ↔
      ∀ taken, taken <+: candidates memory → totalSize Candidate.size taken ≤ budget →
        totalSize Candidate.printedSize taken ≤ budget := by
  have hbuild := buildContinuityContext_eq memory hbudget
  have hiff := @prefixCut_forall_iff _ Candidate.size (candidates memory) budget.toNat Candidate.printedSize
    budget.toNat
  rw [← items_contextOf] at hiff
  constructor
  · rintro ⟨context, hcontext, hwithin⟩ taken hbegins hfits
    rw [hbuild] at hcontext
    cases hcontext
    have hprinted := hwithin.printed
    rw [printedCharacters] at hprinted
    have htaken := hiff.mp (by omega) taken hbegins (by omega)
    omega
  · intro h
    have hprinted := hiff.mpr fun taken hbegins hfits => by
      have htaken := h taken hbegins (by omega)
      omega
    have hblock := length_block_le memory hbudget
    rw [printedCharacters] at hblock
    refine ⟨_, hbuild, ?_, ?_⟩
    · rw [printedCharacters]
      omega
    · omega

/-- A budget of five characters pays for a fact, and its subject of nine is printed besides. -/
theorem not_withinBudget_twoFacts :
    ¬ ∃ context, buildContinuityContext (some twoFacts) twoFacts.storyId 5 = .ok context ∧ WithinBudget context 5 := by
  rintro ⟨context, hcontext, hwithin⟩
  have hbuild := buildContinuityContext_eq twoFacts (show (0 : ℤ) < 5 by decide)
  rw [hbuild] at hcontext
  cases hcontext
  have hprinted : printedCharacters (contextOf twoFacts 5) = 14 := by decide +kernel
  have hle := hwithin.printed
  omega

/-- Fourteen characters are enough for the fact and its subject, and the second fact is omitted. -/
theorem withinBudget_iff_twoFacts :
    (∃ context, buildContinuityContext (some twoFacts) twoFacts.storyId 14 = .ok context ∧
        WithinBudget context 14) ↔
      ∀ taken, taken <+: candidates twoFacts → totalSize Candidate.size taken ≤ (14 : ℤ) →
        totalSize Candidate.printedSize taken ≤ (14 : ℤ) :=
  withinBudget_iff twoFacts (by decide)

end CreativeStudio.Story
