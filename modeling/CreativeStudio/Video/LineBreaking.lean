import CreativeStudio.Story.TextUtils
import CreativeStudio.Schemas.Errors
import Mathlib.Data.List.DropRight
import Mathlib.Data.List.Chain

/-!
# Subtitle line breaking

A wrapped text is handed to the renderer with no line opening with a closing mark and no
line closing with an opening one. One pass over the boundaries moves such marks to the
neighbouring line.

A line that consists of closing marks is emptied into the line before it. If the next line
opens with a closing mark too, that mark moves into the emptied line, and opens it.
-/

namespace CreativeStudio.Video
open Data Story

/-- `LINE_START_PROHIBITED`. -/
def lineStartProhibited : Text :=
  "、。，．・」』）】〉》〕〙〗！？!?ぁぃぅぇぉっゃゅょゎァィゥェォッャュョヮーゝゞ…‥：；:;)]\x7d,.".toList

/-- `LINE_END_PROHIBITED`. -/
def lineEndProhibited : Text := "「『（【〈《〔〘〖([\x7b".toList

/-- `is_line_start_prohibited`. -/
def isLineStartProhibited (c : Char) : Bool := c ∈ lineStartProhibited

/-- `is_line_end_prohibited`. -/
def isLineEndProhibited (c : Char) : Bool := c ∈ lineEndProhibited

/-- The module's own assertion: the two sets are disjoint. -/
theorem not_end_of_start {c : Char} (h : isLineStartProhibited c) : isLineEndProhibited c = false := by
  have hdisjoint : (lineEndProhibited.all fun c => !isLineStartProhibited c) = true := by decide +kernel
  refine decide_eq_false fun hend => ?_
  have hstart := List.all_eq_true.mp hdisjoint c hend
  rw [h] at hstart
  cases hstart

/-! ## Moving marks over one boundary -/

/-- The first inner loop: closing marks are pulled back onto the line. -/
def pullBack (line : Text) : Text → Text × Text
  | [] => (line, [])
  | c :: next => if isLineStartProhibited c then pullBack (line ++ [c]) next else (line, c :: next)

/-- The second inner loop, on the reversed line: opening marks are pushed onto the next. -/
def pushOver : Text → Text → Text × Text
  | [], next => ([], next)
  | c :: line, next => if isLineEndProhibited c then pushOver line (c :: next) else ((c :: line).reverse, next)

/-- The body of the loop over boundaries. -/
def settleBoundary (line next : Text) : Text × Text :=
  let pulled := pullBack line next
  pushOver pulled.1.reverse pulled.2

/-- The loop over boundaries, from `line` on. -/
def settleBoundaries (line : Text) : List Text → List Text
  | [] => [line]
  | next :: rest => (settleBoundary line next).1 :: settleBoundaries (settleBoundary line next).2 rest

/-- `apply_kinsoku_rules`. -/
def applyKinsokuRules : List Text → List Text
  | [] => []
  | line :: rest => (settleBoundaries line rest).filter fun line => line ≠ []

/-! ## Breaking a text -/

/-- `text.replace("\r\n", "\n").replace("\r", "\n")`. -/
def unifyNewlines : Text → Text
  | [] => []
  | '\r' :: '\n' :: rest => '\n' :: unifyNewlines rest
  | c :: rest => (if c = '\r' then '\n' else c) :: unifyNewlines rest

/-- The lines of one segment. -/
def wrapSegment (lib : TextLibrary) (maxChars : Option ℕ) (segment : Text) : List Text :=
  let cleaned := collapseWhitespace segment
  if cleaned = [] then []
  else if isCjkText lib cleaned then wrapCjk (maxChars.getD subtitleMaxCharsCjk) cleaned
  else lib.wrap (maxChars.getD subtitleMaxCharsLatin) false cleaned

/-- The lines before `apply_kinsoku_rules`. -/
def wrapSegments (lib : TextLibrary) (text : Text) (maxChars : Option ℕ) : List Text :=
  ((unifyNewlines text).splitOn '\n').flatMap (wrapSegment lib maxChars)

/-- `break_subtitle_lines`. -/
def breakSubtitleLines (lib : TextLibrary) (text : Text) (maxChars : Option ℤ) : Except Exc (List Text) :=
  if maxChars.any fun n => n ≤ 0 then
    .error (.value s!"max_chars must be a positive integer; got {maxChars.getD 0}.")
  else .ok (applyKinsokuRules (wrapSegments lib text (maxChars.map Int.toNat)))

/-! ## What the rules promise, and when they keep it -/

/-- The promise of the rules about the lines they return for the characters of `text`. -/
structure Kinsoku (text : Text) (lines : List Text) : Prop where
  ne_nil : ∀ line ∈ lines, line ≠ []
  flatten : lines.flatten = text
  start : ∀ line ∈ lines.tail, ∀ c ∈ line.head?, isLineStartProhibited c = false
  stop : ∀ line ∈ lines.dropLast, ∀ c ∈ line.getLast?, isLineEndProhibited c = false

/-- No line of nothing but closing marks has a line after it that opens with one. -/
def Apart (line next : Text) : Prop :=
  (∀ c ∈ line, isLineStartProhibited c) → ∀ c ∈ next.head?, isLineStartProhibited c = false

instance : DecidableRel Apart := fun _ _ => inferInstanceAs (Decidable (_ → _))

/-- No two lines after the first are stacked so. -/
def Unstacked (lines : List Text) : Prop := lines.tail.IsChain Apart

instance (lines : List Text) : Decidable (Unstacked lines) := inferInstanceAs (Decidable (List.IsChain _ _))

/-! ## One boundary -/

variable {line next : Text}

theorem pullBack_eq (line next : Text) :
    pullBack line next = (line ++ next.takeWhile isLineStartProhibited, next.dropWhile isLineStartProhibited) := by
  induction next generalizing line with
  | nil => simp [pullBack]
  | cons c rest ih =>
    by_cases hc : isLineStartProhibited c
    · simp [pullBack, ih, hc]
    · simp [pullBack, hc]

theorem pushOver_eq (line next : Text) :
    pushOver line.reverse next = (line.rdropWhile isLineEndProhibited, line.rtakeWhile isLineEndProhibited ++ next) := by
  induction line using List.reverseRecOn generalizing next with
  | nil => simp [pushOver]
  | append_singleton rest c ih =>
    rw [List.reverse_append, List.reverse_singleton, List.singleton_append, pushOver]
    by_cases hc : isLineEndProhibited c
    · rw [if_pos hc, ih, List.rdropWhile_concat_pos _ _ _ hc, List.rtakeWhile_concat_pos _ _ _ hc,
        List.append_assoc, List.singleton_append]
    · rw [if_neg hc, List.rdropWhile_concat_neg _ _ _ hc, List.rtakeWhile_concat_neg _ _ _ hc,
        List.reverse_cons, List.reverse_reverse, List.nil_append]

/-- The line with the closing marks pulled back onto it. -/
private def pulledLine (line next : Text) : Text := line ++ next.takeWhile isLineStartProhibited

theorem settleBoundary_eq (line next : Text) :
    settleBoundary line next =
      ((pulledLine line next).rdropWhile isLineEndProhibited,
        (pulledLine line next).rtakeWhile isLineEndProhibited ++ next.dropWhile isLineStartProhibited) := by
  rw [settleBoundary, pullBack_eq]
  exact pushOver_eq _ _

/-- Every mark stays in its place in the text. -/
theorem settleBoundary_append (line next : Text) :
    (settleBoundary line next).1 ++ (settleBoundary line next).2 = line ++ next := by
  rw [settleBoundary_eq, ← List.append_assoc, List.rdropWhile, List.rtakeWhile, ← List.reverse_append,
    List.takeWhile_append_dropWhile, List.reverse_reverse, pulledLine, List.append_assoc,
    List.takeWhile_append_dropWhile]

theorem stop_settleBoundary (line next : Text) :
    ∀ c ∈ (settleBoundary line next).1.getLast?, isLineEndProhibited c = false := by
  intro c hc
  rw [settleBoundary_eq] at hc
  obtain ⟨hne, rfl⟩ := List.mem_getLast?_eq_getLast hc
  simpa using List.rdropWhile_last_not isLineEndProhibited _ hne

theorem start_settleBoundary (line next : Text) :
    ∀ c ∈ (settleBoundary line next).2.head?, isLineStartProhibited c = false := by
  intro c hc
  rw [settleBoundary_eq, List.head?_append, Option.mem_def, Option.or_eq_some_iff] at hc
  rcases hc with hpushed | ⟨-, hkept⟩
  · have hend : isLineEndProhibited c := List.mem_rtakeWhile_imp (List.mem_of_head? hpushed)
    by_contra hstart
    rw [not_end_of_start (by simpa using hstart)] at hend
    exact Bool.false_ne_true hend
  · have hnot := List.head?_dropWhile_not isLineStartProhibited next
    rw [hkept] at hnot
    exact hnot

/-- A line of closing marks alone is emptied into the line before it. -/
theorem settleBoundary_of_all (hnext : next ≠ []) (hall : ∀ c ∈ next, isLineStartProhibited c) (line : Text) :
    settleBoundary line next = (line ++ next, []) := by
  have hline : pulledLine line next = line ++ next := by rw [pulledLine, List.takeWhile_eq_self_iff.mpr hall]
  have hne : line ++ next ≠ [] := by simp [hnext]
  have hlast : isLineEndProhibited ((line ++ next).getLast hne) = false := by
    rw [List.getLast_append_of_ne_nil hne hnext]
    exact not_end_of_start (hall _ (List.getLast_mem hnext))
  rw [settleBoundary_eq, hline, List.rdropWhile_eq_self_iff.mpr fun _ => by simp [hlast],
    List.rtakeWhile_eq_nil_iff.mpr fun _ => by simp [hlast], List.dropWhile_eq_nil_iff.mpr hall, List.nil_append]

/-- A line is emptied by the boundary before it only if it has nothing but closing marks. -/
theorem all_of_settleBoundary (h : (settleBoundary line next).2 = []) : ∀ c ∈ next, isLineStartProhibited c := by
  rw [settleBoundary_eq] at h
  exact List.dropWhile_eq_nil_iff.mp (List.append_eq_nil_iff.mp h).2

/-- An emptied line takes the closing marks that the next line opens with. -/
theorem settleBoundary_nil_fst (next : Text) :
    (settleBoundary [] next).1 = next.takeWhile isLineStartProhibited := by
  have hall : ∀ c ∈ next.takeWhile isLineStartProhibited, isLineEndProhibited c = false := fun c hc =>
    not_end_of_start (List.mem_takeWhile_imp hc)
  rw [settleBoundary_eq, pulledLine, List.nil_append, List.rdropWhile_eq_self_iff]
  intro hne
  simp [hall _ (List.getLast_mem hne)]

/-- A line opens as before, an emptied one with nothing if no mark is pulled back onto it. -/
theorem start_settleBoundary_fst (hline : ∀ c ∈ line.head?, isLineStartProhibited c = false)
    (hnil : line = [] → ∀ c ∈ next.head?, isLineStartProhibited c = false) :
    ∀ c ∈ (settleBoundary line next).1.head?, isLineStartProhibited c = false := by
  intro c hc
  cases line with
  | nil =>
    rw [settleBoundary_nil_fst] at hc
    cases next with
    | nil => cases hc
    | cons d rest =>
      have hd : isLineStartProhibited d = false := hnil rfl d rfl
      rw [List.takeWhile_cons, if_neg (by simp [hd])] at hc
      cases hc
  | cons d rest =>
    have hbegins : (settleBoundary (d :: rest) next).1 <+: d :: (rest ++ next.takeWhile isLineStartProhibited) := by
      rw [settleBoundary_eq]
      exact List.rdropWhile_prefix _ _
    cases hfst : (settleBoundary (d :: rest) next).1 with
    | nil =>
      rw [hfst] at hc
      cases hc
    | cons e kept =>
      rw [hfst] at hc hbegins
      obtain rfl : e = c := Option.some.inj hc
      obtain ⟨rfl, -⟩ := List.cons_prefix_cons.mp hbegins
      exact hline e rfl

/-! ## The whole pass -/

variable {rest lines : List Text}

theorem flatten_settleBoundaries (line : Text) (rest : List Text) :
    (settleBoundaries line rest).flatten = line ++ rest.flatten := by
  induction rest generalizing line with
  | nil => simp [settleBoundaries]
  | cons next rest ih =>
    rw [settleBoundaries, List.flatten_cons, ih, ← List.append_assoc, settleBoundary_append, List.flatten_cons,
      List.append_assoc]

theorem stop_settleBoundaries (line : Text) (rest : List Text) :
    ∀ kept ∈ (settleBoundaries line rest).dropLast, ∀ c ∈ kept.getLast?, isLineEndProhibited c = false := by
  induction rest generalizing line with
  | nil => simp [settleBoundaries]
  | cons next rest ih =>
    intro kept hkept
    have hne : settleBoundaries (settleBoundary line next).2 rest ≠ [] := by
      cases rest <;> simp [settleBoundaries]
    rw [settleBoundaries, List.dropLast_cons_of_ne_nil hne] at hkept
    rcases List.mem_cons.mp hkept with rfl | hrest
    · exact stop_settleBoundary line next
    · exact ih _ kept hrest

/-- While no two lines are stacked, every line that is left opens well. -/
theorem start_settleBoundaries (hrest : ∀ kept ∈ rest, kept ≠ []) (hchain : rest.IsChain Apart)
    (hline : ∀ c ∈ line.head?, isLineStartProhibited c = false)
    (hnil : line = [] → ∀ next ∈ rest.head?, ∀ c ∈ next.head?, isLineStartProhibited c = false) :
    ∀ kept ∈ settleBoundaries line rest, ∀ c ∈ kept.head?, isLineStartProhibited c = false := by
  induction rest generalizing line with
  | nil => simpa [settleBoundaries] using hline
  | cons next rest ih =>
    obtain ⟨hapart, hchain⟩ := List.isChain_cons.mp hchain
    intro kept hkept
    rcases List.mem_cons.mp hkept with rfl | hkept
    · exact start_settleBoundary_fst hline fun h => hnil h next rfl
    · refine ih (fun kept hmem => hrest kept (List.mem_cons_of_mem _ hmem)) hchain (start_settleBoundary line next)
        (fun hempty => ?_) kept hkept
      exact fun after hafter => hapart after hafter (all_of_settleBoundary hempty)

/-- Where two lines are stacked, a line after the first that is left opens badly. -/
theorem exists_of_not_isChain (hrest : ∀ kept ∈ rest, kept ≠ []) (hchain : ¬rest.IsChain Apart) (line : Text) :
    ∃ kept ∈ ((settleBoundaries line rest).filter fun kept => kept ≠ []).tail,
      ∃ c ∈ kept.head?, isLineStartProhibited c := by
  induction rest generalizing line with
  | nil => exact absurd .nil hchain
  | cons next rest ih =>
    rw [settleBoundaries]
    by_cases hrestChain : rest.IsChain Apart
    · -- the two first lines are stacked: the first is emptied, and filled again
      obtain ⟨after, hafter, hstacked⟩ : ∃ after ∈ rest.head?, ¬Apart next after := by
        by_contra hnone
        push Not at hnone
        exact hchain (List.isChain_cons.mpr ⟨hnone, hrestChain⟩)
      obtain ⟨hall, c, hc, hstart⟩ : (∀ c ∈ next, isLineStartProhibited c) ∧
          ∃ c ∈ after.head?, isLineStartProhibited c := by
        simpa [Apart] using hstacked
      have hnext : next ≠ [] := hrest next List.mem_cons_self
      rw [settleBoundary_of_all hnext hall, List.filter_cons_of_pos (by simp [hnext]), List.tail_cons]
      obtain ⟨rest, rfl⟩ : ∃ more, rest = after :: more := List.head?_eq_some_iff.mp hafter
      obtain ⟨more, rfl⟩ : ∃ more, after = c :: more := List.head?_eq_some_iff.mp hc
      have hfst : (settleBoundary [] (c :: more)).1 = c :: more.takeWhile isLineStartProhibited := by
        rw [settleBoundary_nil_fst, List.takeWhile_cons, if_pos hstart]
      refine ⟨c :: more.takeWhile isLineStartProhibited, List.mem_filter.mpr ⟨?_, by simp⟩, c, rfl, hstart⟩
      rw [settleBoundaries, hfst]
      exact List.mem_cons_self
    · obtain ⟨kept, hkept, hbad⟩ :=
        ih (fun kept hmem => hrest kept (List.mem_cons_of_mem _ hmem)) hrestChain (settleBoundary line next).2
      refine ⟨kept, ?_, hbad⟩
      rw [List.filter_cons]
      split
      · exact List.mem_of_mem_tail hkept
      · exact hkept

theorem flatten_filter_ne_nil (lines : List Text) :
    (lines.filter fun line => line ≠ []).flatten = lines.flatten := by
  induction lines with
  | nil => rfl
  | cons line rest ih =>
    by_cases hline : line = []
    · rw [List.filter_cons_of_neg (by simp [hline]), ih, List.flatten_cons, hline, List.nil_append]
    · rw [List.filter_cons_of_pos (by simp [hline]), List.flatten_cons, ih, List.flatten_cons]

theorem dropLast_filter_subset {α : Type} (p : α → Bool) (items : List α) :
    (items.filter p).dropLast ⊆ items.dropLast := by
  intro a ha
  induction items using List.reverseRecOn with
  | nil => exact ha
  | append_singleton init last =>
    rw [List.dropLast_concat]
    rw [List.filter_append, List.filter_singleton] at ha
    cases hlast : p last with
    | true =>
      rw [hlast, cond_true, List.dropLast_concat] at ha
      exact List.mem_of_mem_filter ha
    | false =>
      rw [hlast, cond_false, List.append_nil] at ha
      exact List.mem_of_mem_filter (List.dropLast_subset _ ha)

/-- The rules keep their promise about exactly the lists in which no two lines are stacked. -/
theorem kinsoku_applyKinsokuRules (hlines : ∀ line ∈ lines, line ≠ []) :
    Kinsoku lines.flatten (applyKinsokuRules lines) ↔ Unstacked lines := by
  cases lines with
  | nil => exact ⟨fun _ => .nil, fun _ => ⟨nofun, rfl, nofun, nofun⟩⟩
  | cons line rest =>
    obtain ⟨hline, hrest⟩ := List.forall_mem_cons.mp hlines
    rw [applyKinsokuRules, Unstacked, List.tail_cons]
    constructor
    · intro hkept
      by_contra hchain
      obtain ⟨kept, hmem, c, hc, hstart⟩ := exists_of_not_isChain hrest hchain line
      rw [hkept.start kept hmem c hc] at hstart
      exact Bool.false_ne_true hstart
    · intro hchain
      refine ⟨fun kept hmem => by simpa using (List.mem_filter.mp hmem).2, ?_, fun kept hmem => ?_, fun kept hmem => ?_⟩
      · rw [flatten_filter_ne_nil, flatten_settleBoundaries, List.flatten_cons]
      · cases rest with
        | nil =>
          rw [settleBoundaries, List.filter_cons_of_pos (by simp [hline])] at hmem
          cases hmem
        | cons next rest =>
          obtain ⟨hapart, hchain⟩ := List.isChain_cons.mp hchain
          have hall := start_settleBoundaries (fun kept hmem => hrest kept (List.mem_cons_of_mem _ hmem)) hchain
            (start_settleBoundary line next) fun hempty after hafter =>
              hapart after hafter (all_of_settleBoundary hempty)
          rw [settleBoundaries, List.filter_cons] at hmem
          split at hmem
          · exact hall kept (List.mem_of_mem_filter hmem)
          · exact hall kept (List.mem_of_mem_filter (List.mem_of_mem_tail hmem))
      · exact stop_settleBoundaries line rest kept (dropLast_filter_subset _ _ hmem)

/-! ## A whole text -/

theorem wrapSegments_ne_nil (lib : TextLibrary) (text : Text) (maxChars : Option ℕ) :
    ∀ line ∈ wrapSegments lib text maxChars, line ≠ [] := by
  intro line hline
  obtain ⟨segment, -, hline⟩ := List.mem_flatMap.mp hline
  simp only [wrapSegment] at hline
  split at hline
  · cases hline
  · split at hline
    · exact (wrapCjk_spec _ _).2 line hline
    · exact lib.wrap_ne_nil _ _ _ line hline

/-- Breaking a text returns lines that keep the promise exactly when the wrapped text has no
two stacked lines; so do the rules on their own. -/
theorem kinsoku_iff_unstacked (lib : TextLibrary) (lines : List Text) (hlines : ∀ line ∈ lines, line ≠ [])
    (text : Text) (maxChars : Option ℤ) (hmax : ∀ n ∈ maxChars, 1 ≤ n) :
    (Kinsoku lines.flatten (applyKinsokuRules lines) ↔ Unstacked lines) ∧
      ∃ broken, breakSubtitleLines lib text maxChars = .ok broken ∧
        (Kinsoku (wrapSegments lib text (maxChars.map Int.toNat)).flatten broken ↔
          Unstacked (wrapSegments lib text (maxChars.map Int.toNat))) := by
  refine ⟨kinsoku_applyKinsokuRules hlines, applyKinsokuRules (wrapSegments lib text (maxChars.map Int.toNat)), ?_,
    kinsoku_applyKinsokuRules (wrapSegments_ne_nil lib text _)⟩
  have hnone : ¬ maxChars.any fun n => n ≤ 0 := by
    cases maxChars with
    | none => simp
    | some n =>
      have hn := hmax n rfl
      simp only [Option.any_some, decide_eq_true_eq]
      omega
  rw [breakSubtitleLines, if_neg hnone]

/-- Two lines that share a boundary with nothing to move. -/
theorem kinsoku_twoLines :
    (Kinsoku "あい".toList (applyKinsokuRules ["あ".toList, "い".toList]) ↔ Unstacked ["あ".toList, "い".toList]) ∧
      ∃ broken, breakSubtitleLines plainLibrary "あ\nい".toList (some 10) = .ok broken ∧
        (Kinsoku (wrapSegments plainLibrary "あ\nい".toList (some 10)).flatten broken ↔
          Unstacked (wrapSegments plainLibrary "あ\nい".toList (some 10))) :=
  kinsoku_iff_unstacked plainLibrary ["あ".toList, "い".toList] (by decide) "あ\nい".toList (some 10) (by decide)

/-- Two stacked lines of one mark each: the second one still opens with its mark. -/
theorem not_kinsoku_stacked :
    (∀ line ∈ ["あ".toList, "、".toList, "、".toList], line ≠ []) ∧
      ¬Kinsoku "あ、、".toList (applyKinsokuRules ["あ".toList, "、".toList, "、".toList]) ∧
      breakSubtitleLines plainLibrary "あ\n、\n、".toList none = .ok ["あ、".toList, "、".toList] ∧
      ¬Kinsoku "あ、、".toList ["あ、".toList, "、".toList] := by
  have hlines : applyKinsokuRules ["あ".toList, "、".toList, "、".toList] = ["あ、".toList, "、".toList] := by decide +kernel
  have hnot : ¬Kinsoku "あ、、".toList ["あ、".toList, "、".toList] := by
    intro hkept
    have hstart := hkept.start "、".toList (by decide) '、' (by decide)
    exact absurd hstart (by decide +kernel)
  refine ⟨by decide, hlines ▸ hnot, by decide +kernel, hnot⟩

end CreativeStudio.Video
