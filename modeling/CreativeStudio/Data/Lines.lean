import CreativeStudio.Data.Text
import Mathlib.Data.List.Infix

/-!
# Lines of a text

`str.splitlines` breaks a text at more characters than the line feed. Up to blank lines, its lines
are the pieces between these characters, which a text joined from several ones has all of.
-/

namespace CreativeStudio.Data

/-- The characters that end a line. -/
def isLineBreak (c : Char) : Bool :=
  let n := c.toNat
  (10 ≤ n && n ≤ 13) || (28 ≤ n && n ≤ 30) || n == 0x85 || n == 0x2028 || n == 0x2029

/-- `text.splitlines()`. -/
def splitlines : List Char → List (List Char)
  | [] => []
  | '\r' :: '\n' :: rest => [] :: splitlines rest
  | c :: rest =>
    if isLineBreak c then [] :: splitlines rest
    else
      match splitlines rest with
      | [] => [[c]]
      | line :: lines => (c :: line) :: lines

/-- What stands between line breaks. -/
def pieces (text : List Char) : List (List Char) := text.splitOnP isLineBreak

/-- A line without a character that shows. -/
def isBlank (line : List Char) : Bool := line.all isSpace

/-- `"\n".join(lines)`. -/
def joinLines (lines : List (List Char)) : List Char := ['\n'].intercalate lines

theorem isSpace_of_isLineBreak {c : Char} (h : isLineBreak c) : isSpace c := by
  simp only [isLineBreak, isSpace, Bool.or_eq_true, Bool.and_eq_true, decide_eq_true_eq, beq_iff_eq] at h ⊢
  omega

@[simp] theorem pieces_nil : pieces [] = [[]] := List.splitOnP_nil

theorem pieces_cons (c : Char) (text : List Char) :
    pieces (c :: text) = if isLineBreak c then [] :: pieces text else (pieces text).modifyHead (c :: ·) :=
  List.splitOnP_cons_eq_if_modifyHead c text

theorem pieces_append_cons (before after : List Char) {c : Char} (h : isLineBreak c) :
    pieces (before ++ c :: after) = pieces before ++ pieces after := List.splitOnP_append_cons before after h

theorem pieces_of_forall {line : List Char} (h : ∀ c ∈ line, isLineBreak c = false) : pieces line = [line] :=
  List.splitOnP_eq_singleton h

/-- A text is its first piece, or that and a line break and what follows. -/
theorem pieces_cases (text : List Char) :
    (pieces text = [text] ∧ ∀ c ∈ text, isLineBreak c = false) ∨
      ∃ first c after, text = first ++ c :: after ∧ isLineBreak c ∧ (∀ c ∈ first, isLineBreak c = false) ∧
        pieces text = first :: pieces after := by
  by_cases hbreak : ∀ c ∈ text, isLineBreak c = false
  · exact .inl ⟨pieces_of_forall hbreak, hbreak⟩
  · push Not at hbreak
    obtain ⟨c, hc, hbreak⟩ := hbreak
    obtain ⟨c', hfind⟩ := Option.isSome_iff_exists.mp (List.find?_isSome.mpr ⟨c, hc, by simpa using hbreak⟩)
    obtain ⟨hc', first, after, rfl, hfirst⟩ := List.find?_eq_some_iff_append.mp hfind
    have hfirst : ∀ c ∈ first, isLineBreak c = false := fun c hc => by simpa using hfirst c hc
    refine .inr ⟨first, c', after, rfl, hc', hfirst, ?_⟩
    rw [pieces_append_cons first after hc', pieces_of_forall hfirst, List.singleton_append]

theorem pieces_ne_nil (text : List Char) : pieces text ≠ [] := List.splitOnP_ne_nil _ _

/-- The pieces of joined lines are those of each. -/
theorem pieces_joinLines {lines : List (List Char)} (h : lines ≠ []) :
    pieces (joinLines lines) = lines.flatMap pieces := by
  induction lines with
  | nil => exact absurd rfl h
  | cons line rest ih =>
    cases rest with
    | nil => simp [joinLines]
    | cons next rest =>
      have hjoin : joinLines (line :: next :: rest) = line ++ '\n' :: joinLines (next :: rest) := by
        simp [joinLines, List.intercalate_cons_cons]
      rw [hjoin, pieces_append_cons _ _ (by decide), ih (List.cons_ne_nil _ _)]
      rfl

/-- A text after a piece of a line joins its first piece. -/
theorem pieces_append {line : List Char} (h : ∀ c ∈ line, isLineBreak c = false) (text : List Char) :
    pieces (line ++ text) = (pieces text).modifyHead (line ++ ·) := by
  rcases pieces_cases text with ⟨htext, hall⟩ | ⟨first, c, after, rfl, hc, hfirst, htext⟩
  · rw [htext, List.modifyHead_cons, pieces_of_forall]
    exact fun c hc => (List.mem_append.mp hc).elim (h c) (hall c)
  · rw [htext, List.modifyHead_cons, ← List.append_assoc, pieces_append_cons _ _ hc, pieces_of_forall,
      List.singleton_append]
    exact fun c hc => (List.mem_append.mp hc).elim (h c) (hfirst c)

theorem infix_of_mem_pieces {text piece : List Char} (h : piece ∈ pieces text) : piece <:+: text := by
  induction hn : text.length using Nat.strong_induction_on generalizing text with
  | _ n ih =>
    subst hn
    rcases pieces_cases text with ⟨htext, -⟩ | ⟨first, c, after, rfl, -, -, htext⟩
    · rw [htext, List.mem_singleton] at h
      exact h ▸ List.infix_rfl
    · rw [htext, List.mem_cons] at h
      rcases h with rfl | h
      · exact (List.prefix_append _ _).isInfix
      · have hafter := ih after.length (by simp; omega) h rfl
        exact hafter.trans ((List.suffix_cons c after).trans (List.suffix_append first _)).isInfix

/-- Two lists of lines with the same first line and the same later ones that are not blank. -/
theorem filter_congr {lines lines' : List (List Char)} (hne : lines' ≠ []) (hhead : lines.headD [] = lines'.headD [])
    (htail : lines.tail.filter (!isBlank ·) = lines'.tail.filter (!isBlank ·)) :
    lines.filter (!isBlank ·) = lines'.filter (!isBlank ·) := by
  cases lines' with
  | nil => exact absurd rfl hne
  | cons first rest =>
    cases lines with
    | nil =>
      obtain rfl : [] = first := hhead
      simpa [isBlank] using htail
    | cons first' rest' =>
      obtain rfl : first' = first := hhead
      simp only [List.filter_cons]
      rw [show rest'.filter (!isBlank ·) = rest.filter (!isBlank ·) from htail]

theorem not_isLineBreak_of_mem {text piece : List Char} (h : piece ∈ pieces text) :
    ∀ c ∈ piece, isLineBreak c = false := by
  induction text generalizing piece with
  | nil =>
    rw [pieces_nil, List.mem_singleton] at h
    exact h ▸ fun c hc => absurd hc List.not_mem_nil
  | cons c rest ih =>
    obtain ⟨first, more, hpieces⟩ := List.exists_cons_of_ne_nil (pieces_ne_nil rest)
    rw [pieces_cons] at h
    split at h
    · rcases List.mem_cons.mp h with rfl | h
      · exact fun c hc => absurd hc List.not_mem_nil
      · exact ih h
    next hbreak =>
      rw [hpieces, List.modifyHead_cons, List.mem_cons] at h
      rcases h with rfl | h
      · exact List.forall_mem_cons.mpr ⟨by simpa using hbreak, ih (hpieces ▸ List.mem_cons_self)⟩
      · exact ih (hpieces ▸ List.mem_cons_of_mem _ h)

/-- `splitlines` has the same first piece, and the same later pieces that are not blank. -/
theorem splitlines_pieces (text : List Char) :
    (splitlines text).headD [] = (pieces text).headD [] ∧
      (splitlines text).tail.filter (!isBlank ·) = (pieces text).tail.filter (!isBlank ·) := by
  induction text using splitlines.induct with
  | case1 => exact ⟨rfl, rfl⟩
  | case2 rest ih =>
    rw [splitlines, pieces_cons, if_pos (by decide), pieces_cons, if_pos (by decide)]
    refine ⟨rfl, ?_⟩
    simpa [isBlank] using filter_congr (pieces_ne_nil rest) ih.1 ih.2
  | case3 c rest hnot hbreak ih =>
    rw [splitlines.eq_3 _ _ hnot, if_pos hbreak, pieces_cons, if_pos hbreak]
    exact ⟨rfl, filter_congr (pieces_ne_nil rest) ih.1 ih.2⟩
  | case4 c rest hnot hbreak hlines ih =>
    obtain ⟨first, more, hpieces⟩ := List.exists_cons_of_ne_nil (pieces_ne_nil rest)
    rw [hlines, hpieces] at ih
    rw [splitlines.eq_3 _ _ hnot, if_neg hbreak, hlines, pieces_cons, if_neg hbreak, hpieces, List.modifyHead_cons]
    exact ⟨congrArg (c :: ·) ih.1, ih.2⟩
  | case5 c rest hnot hbreak line lines hlines ih =>
    obtain ⟨first, more, hpieces⟩ := List.exists_cons_of_ne_nil (pieces_ne_nil rest)
    rw [hlines, hpieces] at ih
    rw [splitlines.eq_3 _ _ hnot, if_neg hbreak, hlines, pieces_cons, if_neg hbreak, hpieces, List.modifyHead_cons]
    exact ⟨congrArg (c :: ·) ih.1, ih.2⟩

theorem filter_splitlines (text : List Char) :
    (splitlines text).filter (!isBlank ·) = (pieces text).filter (!isBlank ·) :=
  filter_congr (pieces_ne_nil text) (splitlines_pieces text).1 (splitlines_pieces text).2

end CreativeStudio.Data
