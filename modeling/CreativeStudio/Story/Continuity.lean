import CreativeStudio.Schemas.Errors
import Mathlib.Data.List.Sort
import Mathlib.Data.String.Basic

/-!
# Continuity memory

A story's memory holds chapter summaries, canon facts, timeline facts, and the threads
that are open or paid off. A completed chapter is merged into it list by list: an id that
is known keeps its entry, a new one is numbered behind the largest order of its list, and
every list is stored in the order of its numbers.
-/

namespace CreativeStudio.Story

/-! ## Entries -/

/-- What the five kinds of entries have in common. -/
class MemoryEntry (α : Type) where
  id : α → String
  order : α → ℕ
  /-- The limits on its texts. -/
  Valid : α → Prop
  decidableValid : DecidablePred Valid

instance {α : Type} [MemoryEntry α] : DecidablePred (MemoryEntry.Valid (α := α)) := MemoryEntry.decidableValid

/-- `MAX_CHAPTER_SUMMARIES`. -/
def maxChapterSummaries : ℕ := 200
/-- `MAX_CANON_FACTS`. -/
def maxCanonFacts : ℕ := 500
/-- `MAX_TIMELINE_FACTS`. -/
def maxTimelineFacts : ℕ := 500
/-- `MAX_UNRESOLVED_THREADS`. -/
def maxUnresolvedThreads : ℕ := 200
/-- `MAX_RESOLVED_THREADS`. -/
def maxResolvedThreads : ℕ := 200
/-- `MAX_SUMMARY_CHARS`. -/
def maxSummaryChars : ℕ := 4000
/-- `MAX_FACT_CHARS`. -/
def maxFactChars : ℕ := 1000

/-- A condensed account of one written chapter. -/
structure ChapterSummary where
  chapterId : String
  order : ℕ
  summary : String
  deriving DecidableEq, Repr

/-- A state of the world that later chapters must not contradict. -/
structure CanonFact where
  id : String
  subject : String
  fact : String
  order : ℕ
  sourceChapterId : Option String
  deriving DecidableEq, Repr

/-- A fact about when something happened. -/
structure TimelineFact where
  id : String
  description : String
  order : ℕ
  sourceChapterId : Option String
  deriving DecidableEq, Repr

/-- A thread the story has not yet paid off. -/
structure UnresolvedThread where
  id : String
  description : String
  order : ℕ
  introducedChapterId : Option String
  deriving DecidableEq, Repr

/-- A thread that has been paid off. -/
structure ResolvedThread where
  id : String
  description : String
  order : ℕ
  introducedChapterId : Option String
  resolvedChapterId : Option String
  deriving DecidableEq, Repr

/-- `Field(min_length=1, max_length=limit)`. -/
def WithinLimit (limit : ℕ) (text : String) : Prop := 1 ≤ text.length ∧ text.length ≤ limit

instance (limit : ℕ) (text : String) : Decidable (WithinLimit limit text) :=
  inferInstanceAs (Decidable (_ ∧ _))

instance : MemoryEntry ChapterSummary where
  id := ChapterSummary.chapterId
  order := ChapterSummary.order
  Valid item := item.chapterId ≠ "" ∧ WithinLimit maxSummaryChars item.summary
  decidableValid _ := inferInstance

instance : MemoryEntry CanonFact where
  id := CanonFact.id
  order := CanonFact.order
  Valid item := item.id ≠ "" ∧ item.subject ≠ "" ∧ WithinLimit maxFactChars item.fact
  decidableValid _ := inferInstance

instance : MemoryEntry TimelineFact where
  id := TimelineFact.id
  order := TimelineFact.order
  Valid item := item.id ≠ "" ∧ WithinLimit maxFactChars item.description
  decidableValid _ := inferInstance

instance : MemoryEntry UnresolvedThread where
  id := UnresolvedThread.id
  order := UnresolvedThread.order
  Valid item := item.id ≠ "" ∧ WithinLimit maxFactChars item.description
  decidableValid _ := inferInstance

instance : MemoryEntry ResolvedThread where
  id := ResolvedThread.id
  order := ResolvedThread.order
  Valid item := item.id ≠ "" ∧ WithinLimit maxFactChars item.description
  decidableValid _ := inferInstance

/-- Build an entry, or raise the validation error. -/
def construct {α : Type} [MemoryEntry α] (item : α) : Except Exc α :=
  if MemoryEntry.Valid item then .ok item else .error (.value "a text is empty or too long")

/-! ## The memory -/

/-- The fields of `ContinuityMemory`. -/
@[ext]
structure ContinuityRecord where
  id : String
  storyId : String
  asOfChapterId : Option String := none
  chapterSummaries : List ChapterSummary := []
  canonFacts : List CanonFact := []
  timelineFacts : List TimelineFact := []
  unresolvedThreads : List UnresolvedThread := []
  resolvedThreads : List ResolvedThread := []
  createdAt : ℕ
  updatedAt : ℕ
  deriving DecidableEq, Repr

/-- A list within its cap, of entries within their limits, with unique ids. -/
structure ValidList {α : Type} [MemoryEntry α] (cap : ℕ) (items : List α) : Prop where
  within : items.length ≤ cap
  valid : ∀ item ∈ items, MemoryEntry.Valid item
  unique : (items.map MemoryEntry.id).Nodup

instance {α : Type} [MemoryEntry α] (cap : ℕ) (items : List α) : Decidable (ValidList cap items) :=
  decidable_of_iff (items.length ≤ cap ∧ (∀ item ∈ items, MemoryEntry.Valid item) ∧ (items.map MemoryEntry.id).Nodup)
    ⟨fun h => ⟨h.1, h.2.1, h.2.2⟩, fun h => ⟨h.within, h.valid, h.unique⟩⟩

/-- What the schema of a memory accepts. -/
structure ContinuityRecord.Valid (record : ContinuityRecord) : Prop where
  id_ne : record.id ≠ ""
  storyId_ne : record.storyId ≠ ""
  chapterSummaries : ValidList maxChapterSummaries record.chapterSummaries
  canonFacts : ValidList maxCanonFacts record.canonFacts
  timelineFacts : ValidList maxTimelineFacts record.timelineFacts
  unresolvedThreads : ValidList maxUnresolvedThreads record.unresolvedThreads
  resolvedThreads : ValidList maxResolvedThreads record.resolvedThreads

instance (record : ContinuityRecord) : Decidable record.Valid :=
  decidable_of_iff (record.id ≠ "" ∧ record.storyId ≠ "" ∧
      ValidList maxChapterSummaries record.chapterSummaries ∧
      ValidList maxCanonFacts record.canonFacts ∧ ValidList maxTimelineFacts record.timelineFacts ∧
      ValidList maxUnresolvedThreads record.unresolvedThreads ∧
      ValidList maxResolvedThreads record.resolvedThreads)
    ⟨fun h => ⟨h.1, h.2.1, h.2.2.1, h.2.2.2.1, h.2.2.2.2.1, h.2.2.2.2.2.1, h.2.2.2.2.2.2⟩,
      fun h => ⟨h.id_ne, h.storyId_ne, h.chapterSummaries, h.canonFacts, h.timelineFacts,
        h.unresolvedThreads, h.resolvedThreads⟩⟩

/-- Everything a prompt needs to remember about prior chapters. -/
structure ContinuityMemory extends ContinuityRecord where
  valid : toContinuityRecord.Valid

theorem ContinuityMemory.ext_iff {a b : ContinuityMemory} :
    a = b ↔ a.toContinuityRecord = b.toContinuityRecord :=
  ⟨fun h => h ▸ rfl, fun h => by cases a; cases b; subst h; rfl⟩

instance : DecidableEq ContinuityMemory := fun _ _ => decidable_of_iff _ ContinuityMemory.ext_iff.symm

/-- `ContinuityMemory(...)`. -/
def ContinuityRecord.build (record : ContinuityRecord) : Except Exc ContinuityMemory :=
  if h : record.Valid then .ok ⟨record, h⟩
  else .error (.value "a list is too long, an entry is invalid, or an id is there twice")

/-! ## Completions -/

/-- A canon fact that a chapter contributes. -/
structure ProposedCanonFact where
  id : String
  subject : String
  fact : String
  deriving DecidableEq, Repr

/-- A timeline fact that a chapter contributes. -/
structure ProposedTimelineFact where
  id : String
  description : String
  deriving DecidableEq, Repr

/-- A thread that a chapter introduces. -/
structure ProposedThread where
  id : String
  description : String
  deriving DecidableEq, Repr

/-- Everything one completed chapter contributes. -/
structure ChapterCompletion where
  chapterId : String
  order : ℕ
  summary : String
  canonFacts : List ProposedCanonFact := []
  timelineFacts : List ProposedTimelineFact := []
  threadsIntroduced : List ProposedThread := []
  threadsResolved : List String := []
  deriving DecidableEq, Repr

/-- The updated memory, and the conflicts the merge chose not to silence. -/
structure ContinuityUpdateResult where
  memory : ContinuityMemory
  conflicts : List String

end CreativeStudio.Story
