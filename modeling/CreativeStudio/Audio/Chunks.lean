import CreativeStudio.Audio.Splitting
import Mathlib.Data.List.Forall2

/-!
# What chunks keep of a text

A text is seen as its characters that are not whitespace, each with the whitespace before it.
Splitting and stripping only take such a gap away; grouping puts one in where two pieces meet. The
chunks keep the text when no space goes in where the text has none.
-/

namespace CreativeStudio.Audio
open Data Story

/-- A character that shows, with the whitespace before it; `none` where a part of a text begins. -/
abbrev Mark := Option Text × Char

/-- The characters that show with the whitespace before them, after the given one. -/
def gapsFrom (gap : Text) : Text → List (Text × Char)
  | [] => []
  | c :: rest => if isSpace c then gapsFrom (gap ++ [c]) rest else (gap, c) :: gapsFrom [] rest

/-- The marks of a text that stands after something. -/
def innerMarks (gap text : Text) : List Mark := (gapsFrom gap text).map fun entry => (some entry.1, entry.2)

/-- The first mark begins a part. -/
def beginMarks : List Mark → List Mark
  | [] => []
  | mark :: rest => (none, mark.2) :: rest

/-- The marks of a text that stands alone. -/
def joints (text : Text) : List Mark := beginMarks (innerMarks [] text)

/-- Some gaps are taken away. -/
def Loosens (marks marks' : List Mark) : Prop :=
  List.Forall₂ (fun mark mark' => mark'.2 = mark.2 ∧ (mark'.1 = none ∨ mark'.1 = mark.1)) marks marks'

/-! ## Marks of joined texts -/

/-- The whitespace that a text leaves at its end, after some before it. -/
def trail (gap : Text) : Text → Text
  | [] => gap
  | c :: rest => if isSpace c then trail (gap ++ [c]) rest else trail [] rest

theorem gapsFrom_append (gap before after : Text) :
    gapsFrom gap (before ++ after) = gapsFrom gap before ++ gapsFrom (trail gap before) after := by
  induction before generalizing gap with
  | nil => rfl
  | cons c rest ih =>
    rw [List.cons_append, gapsFrom, gapsFrom, trail]
    split
    · exact ih _
    · rw [ih, List.cons_append]

theorem innerMarks_append (gap before after : Text) :
    innerMarks gap (before ++ after) = innerMarks gap before ++ innerMarks (trail gap before) after := by
  rw [innerMarks, gapsFrom_append, List.map_append]
  rfl

theorem innerMarks_of_isBlank (gap : Text) {text : Text} (h : isBlank text) : innerMarks gap text = [] := by
  induction text generalizing gap with
  | nil => rfl
  | cons c rest ih =>
    obtain ⟨hc, hrest⟩ := List.forall_mem_cons.mp (isBlank_iff.mp h)
    rw [innerMarks, gapsFrom, if_pos hc]
    exact ih _ (isBlank_iff.mpr hrest)

theorem innerMarks_snd (gap text : Text) : (innerMarks gap text).map Prod.snd = visible text := by
  induction text generalizing gap with
  | nil => rfl
  | cons c rest ih =>
    rw [innerMarks, gapsFrom]
    by_cases hc : isSpace c
    · have hvisible : visible (c :: rest) = visible rest := List.filter_cons_of_neg (by simp [hc])
      rw [if_pos hc, hvisible]
      exact ih _
    · have hvisible : visible (c :: rest) = c :: visible rest := List.filter_cons_of_pos (by simp [hc])
      rw [if_neg hc, hvisible, ← ih []]
      rfl

/-- Only the first mark tells what stood before. -/
theorem beginMarks_innerMarks (gap text : Text) : beginMarks (innerMarks gap text) = joints text := by
  unfold joints
  induction text generalizing gap with
  | nil => rfl
  | cons c rest ih =>
    simp only [innerMarks, gapsFrom]
    split
    · have hnil := ih ([] ++ [c])
      have hgap := ih (gap ++ [c])
      rw [← hnil] at hgap
      exact hgap
    · rfl

@[simp] theorem joints_nil : joints [] = [] := rfl

theorem joints_of_isBlank {text : Text} (h : isBlank text) : joints text = [] := by
  rw [joints, innerMarks_of_isBlank [] h]
  rfl

theorem beginMarks_append {marks : List Mark} (h : marks ≠ []) (marks' : List Mark) :
    beginMarks (marks ++ marks') = beginMarks marks ++ marks' := by
  cases marks with
  | nil => exact absurd rfl h
  | cons mark rest => rfl

theorem innerMarks_eq_nil {gap text : Text} : innerMarks gap text = [] ↔ isBlank text := by
  rw [← visible_eq_nil, ← innerMarks_snd gap, List.map_eq_nil_iff]

/-- A text that shows something, and what follows it. -/
theorem joints_append {before : Text} (h : ¬isBlank before) (after : Text) :
    joints (before ++ after) = joints before ++ innerMarks (trail [] before) after := by
  rw [joints, innerMarks_append, beginMarks_append (mt innerMarks_eq_nil.mp h)]
  rfl

theorem joints_append_of_isBlank_left {before : Text} (h : isBlank before) (after : Text) :
    joints (before ++ after) = joints after := by
  rw [joints, innerMarks_append, innerMarks_of_isBlank [] h, List.nil_append, beginMarks_innerMarks]

theorem joints_append_of_isBlank {after : Text} (h : isBlank after) (before : Text) :
    joints (before ++ after) = joints before := by
  by_cases hbefore : isBlank before
  · rw [joints_append_of_isBlank_left hbefore, joints_of_isBlank h, joints_of_isBlank hbefore]
  · rw [joints_append hbefore, innerMarks_of_isBlank _ h, List.append_nil]

@[simp] theorem joints_stripText (text : Text) : joints (stripText text) = joints text := by
  have hleft : isBlank (text.takeWhile isSpace) := isBlank_iff.mpr fun _ hc => List.mem_takeWhile_imp hc
  conv_rhs => rw [← List.takeWhile_append_dropWhile (p := isSpace) (l := text), joints_append_of_isBlank_left hleft,
    ← rstrip_append_rtakeWhile (text.dropWhile isSpace), joints_append_of_isBlank (isBlank_rtakeWhile _)]
  rfl

theorem joints_snd (text : Text) : (joints text).map Prod.snd = visible text := by
  rw [← innerMarks_snd [] text, joints]
  cases innerMarks [] text <;> rfl

/-! ## Taking gaps away -/

theorem Loosens.refl (marks : List Mark) : Loosens marks marks :=
  List.forall₂_same.mpr fun _ _ => ⟨rfl, .inr rfl⟩

theorem Loosens.trans {a b c : List Mark} (hab : Loosens a b) (hbc : Loosens b c) : Loosens a c := by
  induction hab generalizing c with
  | nil => exact hbc
  | cons hmark _ ih =>
    cases hbc with
    | cons hmark' hrest =>
      refine .cons ⟨hmark'.1.trans hmark.1, ?_⟩ (ih hrest)
      rcases hmark'.2 with hnone | hsame
      · exact .inl hnone
      · rw [hsame]
        exact hmark.2

theorem Loosens.append {a b c d : List Mark} (hab : Loosens a b) (hcd : Loosens c d) : Loosens (a ++ c) (b ++ d) :=
  List.rel_append hab hcd

theorem loosens_beginMarks (marks : List Mark) : Loosens marks (beginMarks marks) := by
  cases marks with
  | nil => exact .nil
  | cons mark rest => exact .cons ⟨rfl, .inl rfl⟩ (Loosens.refl rest)

theorem loosens_joints (gap text : Text) : Loosens (innerMarks gap text) (joints text) := by
  rw [← beginMarks_innerMarks gap text]
  exact loosens_beginMarks _

theorem loosens_joints_append (before after : Text) :
    Loosens (joints (before ++ after)) (joints before ++ joints after) := by
  by_cases h : isBlank before
  · rw [joints_append_of_isBlank_left h, joints_of_isBlank h, List.nil_append]
    exact .refl _
  · rw [joints_append h]
    exact (Loosens.refl _).append (loosens_joints _ _)

theorem Loosens.snd {a b : List Mark} (h : Loosens a b) : b.map Prod.snd = a.map Prod.snd := by
  induction h with
  | nil => rfl
  | cons hmark _ ih => rw [List.map_cons, List.map_cons, hmark.1, ih]

/-! ## Splitting -/

/-- The pieces are the text, up to whitespace between them. -/
def Cuts (text : Text) (pieces : List Text) : Prop := Loosens (joints text) (pieces.flatMap joints)

theorem Cuts.append {before after : Text} {pieces pieces' : List Text} (h : Cuts before pieces)
    (h' : Cuts after pieces') : Cuts (before ++ after) (pieces ++ pieces') := by
  rw [Cuts, List.flatMap_append]
  exact (loosens_joints_append before after).trans (Loosens.append h h')

theorem Cuts.of_stripText {text : Text} {pieces : List Text} (h : Cuts (stripText text) pieces) : Cuts text pieces := by
  rwa [Cuts, joints_stripText] at h

theorem cuts_flush (buffer : Text) : Cuts buffer (flush buffer) := by
  rw [Cuts, ← joints_stripText, flush]
  split
  next h =>
    rw [h]
    exact .nil
  next =>
    rw [List.flatMap_singleton]
    exact .refl _

theorem cuts_sentencesFrom (buffer text : Text) : Cuts (buffer ++ text) (sentencesFrom buffer text) := by
  induction buffer, text using sentencesFrom.induct with
  | case1 buffer =>
    rw [List.append_nil, sentencesFrom]
    exact cuts_flush buffer
  | case2 buffer rest ih =>
    rw [sentencesFrom, if_pos rfl, List.append_cons]
    exact (cuts_flush _).append ih
  | case3 buffer c rest hline hnot ih =>
    rw [sentencesFrom, if_neg hline, if_pos hnot, List.append_cons]
    exact ih
  | case4 buffer c rest hline hnot buffer' hlatin ih =>
    rw [sentencesFrom, if_neg hline, if_neg hnot, if_pos hlatin]
    have hsplit : buffer ++ c :: rest = buffer' ++ rest.dropWhile isTrailing := by
      simp [buffer']
    rw [hsplit]
    exact ih
  | case5 buffer c rest hline hnot hlatin ih =>
    rw [sentencesFrom, if_neg hline, if_neg hnot, if_neg hlatin]
    have hsplit : buffer ++ c :: rest = (buffer ++ c :: rest.takeWhile isTrailing) ++ rest.dropWhile isTrailing := by
      simp
    rw [hsplit]
    exact (cuts_flush _).append ih

theorem flatten_clausesFrom (buffer text : Text) : (clausesFrom buffer text).flatten = buffer ++ text := by
  induction text generalizing buffer with
  | nil =>
    rw [clausesFrom]
    split
    next h => simp [h]
    next => simp
  | cons c rest ih =>
    rw [clausesFrom]
    split
    · rw [List.flatten_cons, ih, List.nil_append, ← List.append_cons]
    · rw [ih, ← List.append_cons]

theorem cutClause_of_le {maxCharacters : ℕ} (h : 0 < maxCharacters) {clause : Text}
    (hshort : clause.length ≤ maxCharacters) : cutClause maxCharacters h clause = ([], clause) := by
  rw [cutClause, if_neg (not_lt.mpr hshort)]

theorem cutClause_of_lt {maxCharacters : ℕ} (h : 0 < maxCharacters) {clause : Text}
    (hlong : maxCharacters < clause.length) :
    cutClause maxCharacters h clause =
      (flush (clause.take (preferredBreakPosition clause maxCharacters)) ++
        (cutClause maxCharacters h (stripText (clause.drop (preferredBreakPosition clause maxCharacters)))).1,
      (cutClause maxCharacters h (stripText (clause.drop (preferredBreakPosition clause maxCharacters)))).2) := by
  rw [cutClause, if_pos hlong]

/-- Cutting a clause ends: what a turn leaves is shorter. -/
theorem length_rest_lt {maxCharacters : ℕ} (h : 0 < maxCharacters) {clause : Text}
    (hlong : maxCharacters < clause.length) :
    (stripText (clause.drop (preferredBreakPosition clause maxCharacters))).length < clause.length := by
  have hpos := preferredBreakPosition_pos clause h
  have hle := length_stripText_le (clause.drop (preferredBreakPosition clause maxCharacters))
  rw [List.length_drop] at hle
  omega

theorem cuts_cutClause {maxCharacters : ℕ} (h : 0 < maxCharacters) (clause : Text) :
    Cuts clause ((cutClause maxCharacters h clause).1 ++ [(cutClause maxCharacters h clause).2]) := by
  induction hn : clause.length using Nat.strong_induction_on generalizing clause with
  | _ n ih =>
    subst hn
    rcases Nat.lt_or_ge maxCharacters clause.length with hlong | hshort
    · have hrest := (ih _ (length_rest_lt h hlong) _ rfl).of_stripText
      rw [cutClause_of_lt h hlong]
      conv_lhs => rw [← List.take_append_drop (preferredBreakPosition clause maxCharacters) clause]
      rw [List.append_assoc]
      exact (cuts_flush _).append hrest
    · rw [cutClause_of_le h hshort, Cuts]
      simp only [List.nil_append, List.flatMap_singleton]
      exact .refl _

/-- The text does not end in whitespace. -/
def EndsVisible (text : Text) : Prop := ∀ c ∈ text.getLast?, isSpace c = false

theorem endsVisible_stripText (text : Text) : EndsVisible (stripText text) := by
  intro c hc
  obtain ⟨hne, rfl⟩ := List.mem_getLast?_eq_getLast hc
  exact Bool.eq_false_iff.mpr (List.rdropWhile_last_not isSpace _ hne)

theorem endsVisible_concat (text : Text) {c : Char} (h : isSpace c = false) : EndsVisible (text ++ [c]) := by
  intro d hd
  rw [List.getLast?_concat] at hd
  exact Option.some.inj hd ▸ h

theorem trail_append (gap before after : Text) : trail gap (before ++ after) = trail (trail gap before) after := by
  induction before generalizing gap with
  | nil => rfl
  | cons c rest ih =>
    rw [List.cons_append, trail, trail]
    split <;> exact ih _

theorem trail_eq_nil (gap : Text) {text : Text} (hne : text ≠ []) (h : EndsVisible text) : trail gap text = [] := by
  have hlast : isSpace (text.getLast hne) = false := h _ (List.getLast?_eq_getLast_of_ne_nil hne)
  rw [← List.dropLast_append_getLast hne, trail_append, trail, if_neg (by simp [hlast])]
  rfl

theorem not_isBlank_of_endsVisible {text : Text} (hne : text ≠ []) (h : EndsVisible text) : ¬isBlank text := by
  intro hblank
  have hlast : isSpace (text.getLast hne) = false := h _ (List.getLast?_eq_getLast_of_ne_nil hne)
  rw [isBlank_iff.mp hblank _ (List.getLast_mem hne)] at hlast
  cases hlast

/-- What is left of a clause does not end in whitespace, when the clause does not. -/
theorem endsVisible_cutClause {maxCharacters : ℕ} (h : 0 < maxCharacters) {clause : Text}
    (hclause : EndsVisible clause) :
    EndsVisible (cutClause maxCharacters h clause).2 := by
  induction hn : clause.length using Nat.strong_induction_on generalizing clause with
  | _ n ih =>
    subst hn
    rcases Nat.lt_or_ge maxCharacters clause.length with hlong | hshort
    · rw [cutClause_of_lt h hlong]
      exact ih _ (length_rest_lt h hlong) (endsVisible_stripText _) rfl
    · rw [cutClause_of_le h hshort]
      exact hclause

theorem cuts_splitLoop {maxCharacters : ℕ} (h : 0 < maxCharacters) (current : Text) {clauses : List Text}
    (hclauses : ∀ clause ∈ clauses, clause ≠ [] ∧ EndsVisible clause) :
    Cuts (current ++ clauses.flatten) (splitLoop maxCharacters h current clauses) := by
  induction clauses generalizing current with
  | nil =>
    rw [List.flatten_nil, List.append_nil, splitLoop]
    exact cuts_flush current
  | cons clause rest ih =>
    obtain ⟨⟨hne, hvisible⟩, hclauses⟩ := List.forall_mem_cons.mp hclauses
    rw [List.flatten_cons, splitLoop]
    split
    · rw [← List.append_assoc]
      exact ih _ hclauses
    rw [List.append_assoc]
    refine (cuts_flush current).append ?_
    have hclause := cuts_cutClause h clause
    have hrest := ih (cutClause maxCharacters h clause).2 hclauses
    rw [Cuts, List.flatMap_append, List.flatMap_singleton] at hclause
    rw [Cuts, joints_append (not_isBlank_of_endsVisible hne hvisible), trail_eq_nil [] hne hvisible,
      List.flatMap_append]
    rw [Cuts] at hrest
    by_cases hleft : (cutClause maxCharacters h clause).2 = []
    · rw [hleft, joints_nil, List.append_nil] at hclause
      rw [hleft, List.nil_append] at hrest
      exact hclause.append ((loosens_joints [] rest.flatten).trans (by rwa [hleft]))
    · have hends := endsVisible_cutClause h hvisible
      rw [joints_append (not_isBlank_of_endsVisible hleft hends), trail_eq_nil [] hleft hends] at hrest
      have hwhole := hclause.append (.refl (innerMarks [] rest.flatten))
      rw [List.append_assoc] at hwhole
      exact hwhole.trans ((Loosens.refl _).append hrest)

theorem isSpace_of_mem_clauseSeparators {c : Char} (h : c ∈ clauseSeparators) : isSpace c = false := by
  revert c
  decide

/-- A clause shows its last character when the sentence does. -/
theorem endsVisible_clausesFrom (buffer text : Text) (h : EndsVisible (buffer ++ text)) :
    ∀ clause ∈ clausesFrom buffer text, clause ≠ [] ∧ EndsVisible clause := by
  induction text generalizing buffer with
  | nil =>
    rw [List.append_nil] at h
    rw [clausesFrom]
    split
    · exact fun _ hclause => absurd hclause List.not_mem_nil
    next hne => exact List.forall_mem_singleton.mpr ⟨hne, h⟩
  | cons c rest ih =>
    rw [List.append_cons] at h
    rw [clausesFrom]
    split
    next hc =>
      refine List.forall_mem_cons.mpr
        ⟨⟨by simp, endsVisible_concat buffer (isSpace_of_mem_clauseSeparators hc)⟩, ih [] ?_⟩
      intro d hd
      refine h d ?_
      rw [List.nil_append] at hd
      rw [List.getLast?_append, hd]
      rfl
    next => exact ih _ h

theorem flatMap_joints_filter (pieces : List Text) :
    (pieces.filter fun piece => piece ≠ []).flatMap joints = pieces.flatMap joints := by
  induction pieces with
  | nil => rfl
  | cons piece rest ih =>
    by_cases hpiece : piece = []
    · subst hpiece
      rw [List.filter_cons_of_neg (by simp), ih, List.flatMap_cons, joints_nil, List.nil_append]
    · rw [List.filter_cons_of_pos (by simpa using hpiece), List.flatMap_cons, List.flatMap_cons, ih]

theorem cuts_splitLongSentence {maxCharacters : ℕ} (h : 0 < maxCharacters) {sentence : Text}
    (hsentence : EndsVisible sentence) : Cuts sentence (splitLongSentence maxCharacters h sentence) := by
  rw [splitLongSentence]
  split
  · rw [Cuts, List.flatMap_singleton]
    exact .refl _
  · have hloop := cuts_splitLoop h [] (endsVisible_clausesFrom [] sentence hsentence)
    rw [flatten_clausesFrom] at hloop
    rw [Cuts, flatMap_joints_filter]
    exact hloop

/-- The text shows its first and its last character. -/
structure Trimmed (text : Text) : Prop where
  nonempty : text ≠ []
  begins : ∀ c ∈ text.head?, isSpace c = false
  ends : EndsVisible text

theorem trimmed_stripText {text : Text} (h : stripText text ≠ []) : Trimmed (stripText text) := by
  refine ⟨h, fun c hc => ?_, endsVisible_stripText text⟩
  obtain ⟨after, hafter⟩ := List.rdropWhile_prefix isSpace (text.dropWhile isSpace)
  have hhead := List.head?_dropWhile_not isSpace text
  rw [← hafter, show List.rdropWhile isSpace (text.dropWhile isSpace) = stripText text from rfl, List.head?_append,
    show (stripText text).head? = some c from hc] at hhead
  exact hhead

theorem trimmed_of_mem_flush {buffer sentence : Text} (h : sentence ∈ flush buffer) : Trimmed sentence := by
  rw [flush] at h
  split at h
  · exact absurd h List.not_mem_nil
  next hne =>
    rw [List.mem_singleton.mp h]
    exact trimmed_stripText hne

theorem trimmed_of_mem_sentencesFrom {buffer text sentence : Text} (h : sentence ∈ sentencesFrom buffer text) :
    Trimmed sentence := by
  induction buffer, text using sentencesFrom.induct with
  | case1 buffer =>
    rw [sentencesFrom] at h
    exact trimmed_of_mem_flush h
  | case2 buffer rest ih =>
    rw [sentencesFrom, if_pos rfl] at h
    exact (List.mem_append.mp h).elim trimmed_of_mem_flush ih
  | case3 buffer c rest hline hnot ih =>
    rw [sentencesFrom, if_neg hline, if_pos hnot] at h
    exact ih h
  | case4 buffer c rest hline hnot buffer' hlatin ih =>
    rw [sentencesFrom, if_neg hline, if_neg hnot, if_pos hlatin] at h
    exact ih h
  | case5 buffer c rest hline hnot hlatin ih =>
    rw [sentencesFrom, if_neg hline, if_neg hnot, if_neg hlatin] at h
    exact (List.mem_append.mp h).elim trimmed_of_mem_flush ih

/-! ## Pieces are short enough -/

theorem breakFrom_le {maxCharacters : ℕ} (text : Text) {index : ℕ} (hindex : index ≤ maxCharacters) :
    breakFrom text maxCharacters index ≤ maxCharacters := by
  induction index with
  | zero => exact le_refl _
  | succ index ih =>
    rw [breakFrom]
    split
    · split <;> omega
    · exact ih (by omega)

theorem flush_length_le {maxCharacters : ℕ} {buffer piece : Text} (hbuffer : buffer.length ≤ maxCharacters)
    (hpiece : piece ∈ flush buffer) : piece.length ≤ maxCharacters := by
  rw [flush] at hpiece
  split at hpiece
  · exact absurd hpiece List.not_mem_nil
  · rw [List.mem_singleton.mp hpiece]
    exact (length_stripText_le buffer).trans hbuffer

section
variable {maxCharacters : ℕ} (h : 0 < maxCharacters)

theorem cutClause_spec (clause : Text) :
    (∀ piece ∈ (cutClause maxCharacters h clause).1, Trimmed piece ∧ piece.length ≤ maxCharacters) ∧
      (cutClause maxCharacters h clause).2.length ≤ maxCharacters := by
  induction hn : clause.length using Nat.strong_induction_on generalizing clause with
  | _ n ih =>
    subst hn
    rcases Nat.lt_or_ge maxCharacters clause.length with hlong | hshort
    · obtain ⟨hpieces, hrest⟩ := ih _ (length_rest_lt h hlong) _ rfl
      rw [cutClause_of_lt h hlong]
      refine ⟨fun piece hpiece => ?_, hrest⟩
      rcases List.mem_append.mp hpiece with hpiece | hpiece
      · refine ⟨trimmed_of_mem_flush hpiece, flush_length_le ?_ hpiece⟩
        exact (List.length_take_le _ _).trans (breakFrom_le clause le_rfl)
      · exact hpieces piece hpiece
    · rw [cutClause_of_le h hshort]
      exact ⟨fun _ hpiece => absurd hpiece List.not_mem_nil, hshort⟩

theorem splitLoop_spec {current : Text} (hcurrent : current.length ≤ maxCharacters) (clauses : List Text) :
    ∀ piece ∈ splitLoop maxCharacters h current clauses, Trimmed piece ∧ piece.length ≤ maxCharacters := by
  induction clauses generalizing current with
  | nil =>
    rw [splitLoop]
    exact fun piece hpiece => ⟨trimmed_of_mem_flush hpiece, flush_length_le hcurrent hpiece⟩
  | cons clause rest ih =>
    rw [splitLoop]
    split
    next hfits => exact ih (by rwa [List.length_append])
    next =>
      obtain ⟨hpieces, hrest⟩ := cutClause_spec h clause
      intro piece hpiece
      simp only [List.mem_append] at hpiece
      rcases hpiece with (hpiece | hpiece) | hpiece
      · exact ⟨trimmed_of_mem_flush hpiece, flush_length_le hcurrent hpiece⟩
      · exact hpieces piece hpiece
      · exact ih hrest piece hpiece

/-- The pieces of a sentence. -/
theorem splitLongSentence_spec {sentence : Text} (hsentence : Trimmed sentence) :
    ∀ piece ∈ splitLongSentence maxCharacters h sentence, Trimmed piece ∧ piece.length ≤ maxCharacters := by
  rw [splitLongSentence]
  split
  next hshort => exact List.forall_mem_singleton.mpr ⟨hsentence, hshort⟩
  next =>
    intro piece hpiece
    exact splitLoop_spec h (Nat.zero_le _) _ piece (List.mem_of_mem_filter hpiece)

theorem piecesOf_spec (text : Text) :
    ∀ piece ∈ piecesOf maxCharacters h text, Trimmed piece ∧ piece.length ≤ maxCharacters := by
  intro piece hpiece
  obtain ⟨sentence, hsentence, hpiece⟩ := List.mem_flatMap.mp hpiece
  exact splitLongSentence_spec h (trimmed_of_mem_sentencesFrom hsentence) piece hpiece

/-- The pieces of sentences are the sentences, up to whitespace between pieces. -/
theorem loosens_flatMap {sentences : List Text} (hall : ∀ sentence ∈ sentences, Trimmed sentence) :
    Loosens (sentences.flatMap joints) ((sentences.flatMap (splitLongSentence maxCharacters h)).flatMap joints) := by
  induction sentences with
  | nil => exact .nil
  | cons sentence rest ih =>
    obtain ⟨hsentence, hrest⟩ := List.forall_mem_cons.mp hall
    rw [List.flatMap_cons, List.flatMap_cons, List.flatMap_append]
    exact Loosens.append (cuts_splitLongSentence h hsentence.ends) (ih hrest)

theorem loosens_piecesOf (text : Text) :
    Loosens ((splitIntoSentences text).flatMap joints) ((piecesOf maxCharacters h text).flatMap joints) :=
  loosens_flatMap h fun _ => trimmed_of_mem_sentencesFrom

end

/-! ## Grouping -/

/-- What grouping may make of a mark of the sentences: it begins a chunk, or keeps its gap, or loses
it, or has a single space where there is a gap or a sentence begins. -/
def Allowed (mark mark' : Mark) : Prop :=
  mark'.2 = mark.2 ∧
    match mark'.1, mark.1 with
    | none, _ => True
    | some gap, none => gap = [] ∨ gap = [' ']
    | some gap, some source => gap = source ∨ gap = [] ∨ (gap = [' '] ∧ source ≠ [])

/-- The loop of `split_into_chunks` does not put a space before a piece that touches the one before
it in its sentence; `marks` are the marks of the sentences for the pieces that are left. -/
def NoSpaceInside (maxCharacters : ℕ) (current : Text) (marks : List Mark) : List Text → Prop
  | [] => True
  | piece :: rest =>
    if current = [] then NoSpaceInside maxCharacters piece (marks.drop (visible piece).length) rest
    else
      let candidate := current ++ joinSeparator current piece ++ piece
      if candidate.length ≤ maxCharacters then
        ((marks.head?.bind Prod.fst) = some [] → joinSeparator current piece = []) ∧
          NoSpaceInside maxCharacters candidate (marks.drop (visible piece).length) rest
      else NoSpaceInside maxCharacters piece (marks.drop (visible piece).length) rest

instance decidableNoSpaceInside (maxCharacters : ℕ) (current : Text) (marks : List Mark) :
    (pieces : List Text) → Decidable (NoSpaceInside maxCharacters current marks pieces)
  | [] => isTrue trivial
  | piece :: rest =>
    have := decidableNoSpaceInside maxCharacters piece (marks.drop (visible piece).length) rest
    have := decidableNoSpaceInside maxCharacters (current ++ joinSeparator current piece ++ piece)
      (marks.drop (visible piece).length) rest
    inferInstanceAs (Decidable (if current = [] then NoSpaceInside maxCharacters piece _ rest else
      if (current ++ joinSeparator current piece ++ piece).length ≤ maxCharacters then
        (marks.head?.bind Prod.fst = some [] → joinSeparator current piece = []) ∧ NoSpaceInside maxCharacters _ _ rest
      else NoSpaceInside maxCharacters piece _ rest))

theorem joinSeparator_eq (left right : Text) : joinSeparator left right = [] ∨ joinSeparator left right = [' '] := by
  unfold joinSeparator
  split
  · exact .inr rfl
  · exact .inl rfl

theorem length_joints (text : Text) : (joints text).length = (visible text).length := by
  rw [← joints_snd, List.length_map]

theorem joints_eq_nil {text : Text} : joints text = [] ↔ isBlank text := by
  rw [← visible_eq_nil, ← joints_snd, List.map_eq_nil_iff]

theorem Trimmed.not_isBlank {text : Text} (h : Trimmed text) : ¬isBlank text :=
  not_isBlank_of_endsVisible h.nonempty h.ends

theorem innerMarks_cons {c : Char} (h : isSpace c = false) (gap text : Text) :
    innerMarks gap (c :: text) = (some gap, c) :: innerMarks [] text := by
  rw [innerMarks, gapsFrom, if_neg (by simp [h])]
  rfl

/-- Two texts with a separator between them. -/
theorem joints_join {current : Text} (hcurrent : Trimmed current) (piece : Text) :
    joints (current ++ joinSeparator current piece ++ piece) =
      joints current ++ innerMarks (joinSeparator current piece) piece := by
  rw [List.append_assoc, joints_append (not_isBlank_of_endsVisible hcurrent.nonempty hcurrent.ends),
    trail_eq_nil [] hcurrent.nonempty hcurrent.ends, innerMarks_append]
  rcases joinSeparator_eq current piece with hsep | hsep <;> rw [hsep] <;> rfl

theorem Trimmed.join {current piece : Text} (hcurrent : Trimmed current) (hpiece : Trimmed piece) (separator : Text) :
    Trimmed (current ++ separator ++ piece) := by
  refine ⟨by simp [hcurrent.nonempty], fun c hc => ?_, fun c hc => ?_⟩
  · rw [List.append_assoc, List.head?_append_of_ne_nil _ hcurrent.nonempty] at hc
    exact hcurrent.begins c hc
  · rw [List.getLast?_append_of_ne_nil _ hpiece.nonempty] at hc
    exact hpiece.ends c hc

theorem forall₂_append_iff {α β : Type} {R : α → β → Prop} {a c : List α} {b d : List β} (h : a.length = b.length) :
    List.Forall₂ R (a ++ c) (b ++ d) ↔ List.Forall₂ R a b ∧ List.Forall₂ R c d := by
  refine ⟨fun hall => ⟨?_, ?_⟩, fun ⟨hleft, hright⟩ => List.rel_append hleft hright⟩
  · have htake := List.forall₂_take_append _ _ _ hall
    rwa [← h, List.take_left] at htake
  · have hdrop := List.forall₂_drop_append _ _ _ hall
    rwa [← h, List.drop_left] at hdrop

/-- A gap may always be taken away. -/
theorem Loosens.allowed {marks marks' : List Mark} (h : Loosens marks marks') : List.Forall₂ Allowed marks marks' := by
  refine h.imp ?_
  rintro ⟨gap, c⟩ ⟨gap', c'⟩ ⟨hc, hgap⟩
  refine ⟨hc, ?_⟩
  rcases hgap with hnone | hsame
  · rw [hnone]
    trivial
  · rw [hsame]
    cases gap with
    | none => trivial
    | some gap => exact .inl rfl

/-- The separator goes where the source has no gap only when it is empty. -/
theorem allowed_separator {separator : Text} (hseparator : separator = [] ∨ separator = [' ']) (gap : Option Text)
    (c : Char) : Allowed (gap, c) (some separator, c) ↔ (gap = some [] → separator = []) := by
  unfold Allowed
  rw [and_iff_right rfl]
  cases gap with
  | none => exact ⟨fun _ h => absurd h (by simp), fun _ => hseparator⟩
  | some gap => rcases hseparator with rfl | rfl <;> cases gap <;> simp

/-- A piece that is put behind a separator. -/
theorem allowed_innerMarks_iff {marks : List Mark} {separator piece : Text}
    (hseparator : separator = [] ∨ separator = [' ']) (hpiece : Trimmed piece) (hmarks : Loosens marks (joints piece)) :
    List.Forall₂ Allowed marks (innerMarks separator piece) ↔
      (marks.head?.bind Prod.fst = some [] → separator = []) := by
  obtain ⟨c, rest, rfl⟩ := List.exists_cons_of_ne_nil hpiece.nonempty
  have hc : isSpace c = false := hpiece.begins c rfl
  rw [joints, innerMarks_cons hc] at hmarks
  cases hmarks with
  | @cons mark _ marks _ hmark hrest =>
    obtain ⟨gap, d⟩ := mark
    obtain ⟨rfl, -⟩ := hmark
    rw [innerMarks_cons hc, List.forall₂_cons, and_iff_left (Loosens.allowed hrest), allowed_separator hseparator]
    rfl

/-- Marks of two parts are told apart by their number. -/
theorem Loosens.split {marks before after : List Mark} (h : Loosens marks (before ++ after)) :
    Loosens (marks.take before.length) before ∧ Loosens (marks.drop before.length) after :=
  ⟨List.forall₂_take_append _ _ _ h, List.forall₂_drop_append _ _ _ h⟩

theorem head?_take_length {α β : Type} (marks : List α) {before : List β} (hne : before ≠ []) :
    (marks.take before.length).head? = marks.head? := by
  rw [List.head?_take, if_neg]
  exact mt List.length_eq_zero_iff.mp hne

section
variable {maxCharacters : ℕ}

theorem groupPieces_cons {current : Text} (h : current ≠ []) (piece : Text) (rest : List Text) :
    groupPieces maxCharacters current (piece :: rest) =
      if (current ++ joinSeparator current piece ++ piece).length ≤ maxCharacters then
        groupPieces maxCharacters (current ++ joinSeparator current piece ++ piece) rest
      else current :: groupPieces maxCharacters piece rest := by
  rw [groupPieces, if_neg h]

theorem groupPieces_nil_cons (piece : Text) (rest : List Text) :
    groupPieces maxCharacters [] (piece :: rest) = groupPieces maxCharacters piece rest := by
  rw [groupPieces, if_pos rfl]

theorem noSpaceInside_cons {current : Text} (h : current ≠ []) (marks : List Mark) (piece : Text) (rest : List Text) :
    NoSpaceInside maxCharacters current marks (piece :: rest) ↔
      if (current ++ joinSeparator current piece ++ piece).length ≤ maxCharacters then
        (marks.head?.bind Prod.fst = some [] → joinSeparator current piece = []) ∧
          NoSpaceInside maxCharacters (current ++ joinSeparator current piece ++ piece)
            (marks.drop (visible piece).length) rest
      else NoSpaceInside maxCharacters piece (marks.drop (visible piece).length) rest := by
  rw [NoSpaceInside, if_neg h]

/-- What grouping does to the marks: behind the current chunk they are allowed when no space goes in
where there is none. -/
theorem allowed_groupPieces {current : Text} (hcurrent : Trimmed current) {marks : List Mark} {pieces : List Text}
    (hpieces : ∀ piece ∈ pieces, Trimmed piece) (hmarks : Loosens marks (pieces.flatMap joints)) :
    ∃ tail, (groupPieces maxCharacters current pieces).flatMap joints = joints current ++ tail ∧
      (List.Forall₂ Allowed marks tail ↔ NoSpaceInside maxCharacters current marks pieces) := by
  induction pieces generalizing current marks with
  | nil =>
    cases hmarks
    refine ⟨[], ?_, iff_of_true .nil trivial⟩
    rw [groupPieces, if_neg hcurrent.nonempty, List.flatMap_singleton, List.append_nil]
  | cons piece rest ih =>
    obtain ⟨hpiece, hrest⟩ := List.forall_mem_cons.mp hpieces
    rw [List.flatMap_cons] at hmarks
    obtain ⟨htake, hdrop⟩ := hmarks.split
    rw [groupPieces_cons hcurrent.nonempty, noSpaceInside_cons hcurrent.nonempty]
    conv in List.Forall₂ _ _ _ => rw [← List.take_append_drop (joints piece).length marks]
    rw [← length_joints piece]
    split
    · obtain ⟨tail, htail, hiff⟩ := ih (hcurrent.join hpiece (joinSeparator current piece)) hrest hdrop
      refine ⟨innerMarks (joinSeparator current piece) piece ++ tail, ?_, ?_⟩
      · rw [htail, joints_join hcurrent, List.append_assoc]
      have hlength : (marks.take (joints piece).length).length =
          (innerMarks (joinSeparator current piece) piece).length := by
        rw [htake.length_eq, length_joints, ← innerMarks_snd (joinSeparator current piece), List.length_map]
      rw [← hiff, ← head?_take_length marks (mt joints_eq_nil.mp hpiece.not_isBlank),
        ← allowed_innerMarks_iff (joinSeparator_eq current piece) hpiece htake]
      exact forall₂_append_iff hlength
    · obtain ⟨tail, htail, hiff⟩ := ih hpiece hrest hdrop
      refine ⟨joints piece ++ tail, by rw [List.flatMap_cons, htail], ?_⟩
      rw [← hiff, forall₂_append_iff htake.length_eq, and_iff_right htake.allowed]

/-- Without a current chunk the first piece becomes it. -/
theorem allowed_groupPieces_nil {marks : List Mark} {pieces : List Text} (hpieces : ∀ piece ∈ pieces, Trimmed piece)
    (hmarks : Loosens marks (pieces.flatMap joints)) :
    List.Forall₂ Allowed marks ((groupPieces maxCharacters [] pieces).flatMap joints) ↔
      NoSpaceInside maxCharacters [] marks pieces := by
  cases pieces with
  | nil =>
    cases hmarks
    exact iff_of_true .nil trivial
  | cons piece rest =>
    obtain ⟨hpiece, hrest⟩ := List.forall_mem_cons.mp hpieces
    rw [List.flatMap_cons] at hmarks
    obtain ⟨htake, hdrop⟩ := hmarks.split
    obtain ⟨tail, htail, hiff⟩ := allowed_groupPieces hpiece hrest hdrop
    rw [groupPieces_nil_cons, htail, NoSpaceInside, if_pos rfl, ← length_joints piece, ← hiff]
    conv_lhs => rw [← List.take_append_drop (joints piece).length marks]
    rw [forall₂_append_iff htake.length_eq, and_iff_right htake.allowed]

/-- The current chunk stays in front. -/
theorem groupPieces_begins {current : Text} (h : current ≠ []) (pieces : List Text) :
    ∃ after rest, groupPieces maxCharacters current pieces = (current ++ after) :: rest := by
  induction pieces generalizing current with
  | nil => exact ⟨[], [], by rw [groupPieces, if_neg h, List.append_nil]⟩
  | cons piece pieces ih =>
    rw [groupPieces_cons h]
    split
    · have hcandidate : current ++ joinSeparator current piece ++ piece ≠ [] := by simp [h]
      obtain ⟨after, rest, heq⟩ := ih hcandidate
      refine ⟨joinSeparator current piece ++ piece ++ after, rest, ?_⟩
      rw [heq]
      simp only [List.append_assoc]
    · exact ⟨[], _, by rw [List.append_nil]⟩

/-- Chunks are not empty and short enough. -/
theorem groupPieces_bounded {current : Text} (hcurrent : current.length ≤ maxCharacters) {pieces : List Text}
    (hpieces : ∀ piece ∈ pieces, piece ≠ [] ∧ piece.length ≤ maxCharacters) :
    ∀ chunk ∈ groupPieces maxCharacters current pieces, chunk ≠ [] ∧ chunk.length ≤ maxCharacters := by
  induction pieces generalizing current with
  | nil =>
    rw [groupPieces]
    split
    · exact fun _ h => absurd h List.not_mem_nil
    next hne => exact List.forall_mem_singleton.mpr ⟨hne, hcurrent⟩
  | cons piece rest ih =>
    obtain ⟨hpiece, hrest⟩ := List.forall_mem_cons.mp hpieces
    by_cases hne : current = []
    · rw [hne, groupPieces_nil_cons]
      exact ih hpiece.2 hrest
    rw [groupPieces_cons hne]
    split
    next hfits => exact ih hfits hrest
    next => exact List.forall_mem_cons.mpr ⟨⟨hne, hcurrent⟩, ih hpiece.2 hrest⟩

theorem visible_joinSeparator (left right : Text) : visible (joinSeparator left right) = [] := by
  rcases joinSeparator_eq left right with h | h <;> rw [h] <;> rfl

/-- Grouping keeps the characters that show. -/
theorem visible_groupPieces (current : Text) (pieces : List Text) :
    visible (groupPieces maxCharacters current pieces).flatten = visible (current ++ pieces.flatten) := by
  induction pieces generalizing current with
  | nil =>
    rw [groupPieces]
    split
    next h => simp [h]
    next => simp
  | cons piece rest ih =>
    by_cases hne : current = []
    · rw [hne, groupPieces_nil_cons, ih]
      rfl
    rw [groupPieces_cons hne]
    split
    · rw [ih]
      simp only [visible_append, List.flatten_cons, visible_joinSeparator, List.nil_append, List.append_assoc]
    · simp only [List.flatten_cons, visible_append, ih]

/-- The sentence stands undivided in one of the chunks, after the given text. -/
def StandsIn (chunks : List Text) (before sentence : Text) : Prop :=
  ∃ chunksBefore chunk chunksAfter left right,
    chunks = chunksBefore ++ chunk :: chunksAfter ∧ chunk = left ++ sentence ++ right ∧
      visible (chunksBefore.flatten ++ left) = visible before

theorem StandsIn.cons {chunks : List Text} {before sentence : Text} (h : StandsIn chunks before sentence)
    (chunk : Text) : StandsIn (chunk :: chunks) (chunk ++ before) sentence := by
  obtain ⟨chunksBefore, found, chunksAfter, left, right, hchunks, hfound, hbefore⟩ := h
  refine ⟨chunk :: chunksBefore, found, chunksAfter, left, right, by rw [hchunks]; rfl, hfound, ?_⟩
  rw [List.flatten_cons, List.append_assoc, visible_append, hbefore, visible_append]

theorem StandsIn.of_visible {chunks : List Text} {before before' sentence : Text} (h : StandsIn chunks before sentence)
    (heq : visible before = visible before') : StandsIn chunks before' sentence := by
  rwa [StandsIn, ← heq]

/-- Grouping divides no piece. -/
theorem standsIn_groupPieces (current : Text) (before : List Text) {piece : Text} (h : piece ≠ []) (after : List Text) :
    StandsIn (groupPieces maxCharacters current (before ++ piece :: after)) (current ++ before.flatten) piece := by
  induction before generalizing current with
  | nil =>
    obtain ⟨right, rest, hpiece⟩ := @groupPieces_begins maxCharacters _ h after
    rw [List.nil_append, List.flatten_nil, List.append_nil]
    by_cases hne : current = []
    · rw [hne, groupPieces_nil_cons, hpiece]
      exact ⟨[], _, rest, [], right, rfl, rfl, rfl⟩
    rw [groupPieces_cons hne]
    split
    · have hcandidate : current ++ joinSeparator current piece ++ piece ≠ [] := by simp [hne]
      obtain ⟨right, rest, hchunk⟩ := @groupPieces_begins maxCharacters _ hcandidate after
      refine ⟨[], _, rest, current ++ joinSeparator current piece, right, hchunk, rfl, ?_⟩
      rw [List.flatten_nil, List.nil_append, visible_append, visible_joinSeparator, List.append_nil]
    · rw [hpiece]
      refine ⟨[current], _, rest, [], right, rfl, rfl, by simp⟩
  | cons first before ih =>
    rw [List.cons_append]
    by_cases hne : current = []
    · rw [hne, groupPieces_nil_cons]
      exact ih first
    rw [groupPieces_cons hne]
    split
    · refine (ih _).of_visible ?_
      simp only [visible_append, List.flatten_cons, visible_joinSeparator, List.nil_append, List.append_assoc]
    · exact (ih first).cons current

end

/-! ## What narration asks of the chunks -/

/-- The chunks are the text: nothing is lost, whitespace comes in only as one space where there is
some in the sentences or between two of them, and a sentence that fits is not divided. -/
structure Narrates (text : Text) (maxCharacters : ℕ) (chunks : List Text) : Prop where
  nonempty : ∀ chunk ∈ chunks, chunk ≠ []
  bounded : ∀ chunk ∈ chunks, chunk.length ≤ maxCharacters
  lossless : visible chunks.flatten = visible text
  sentences : Loosens (joints text) ((splitIntoSentences text).flatMap joints)
  spaces : List.Forall₂ Allowed ((splitIntoSentences text).flatMap joints) (chunks.flatMap joints)
  undivided : ∀ before sentence after, splitIntoSentences text = before ++ sentence :: after →
    sentence.length ≤ maxCharacters → StandsIn chunks before.flatten sentence

theorem visible_eq_of_loosens {before after : List Text} (h : Loosens (before.flatMap joints) (after.flatMap joints)) :
    visible after.flatten = visible before.flatten := by
  have hmarks (texts : List Text) : (texts.flatMap joints).map Prod.snd = visible texts.flatten := by
    induction texts with
    | nil => rfl
    | cons text rest ih => rw [List.flatMap_cons, List.map_append, ih, joints_snd, List.flatten_cons, visible_append]
  rw [← hmarks, ← hmarks, h.snd]

theorem cuts_splitIntoSentences (text : Text) : Cuts text (splitIntoSentences text) := cuts_sentencesFrom [] text

theorem visible_splitIntoSentences (text : Text) : visible (splitIntoSentences text).flatten = visible text := by
  have h := cuts_splitIntoSentences text
  rw [Cuts, ← List.flatMap_singleton joints text] at h
  rw [visible_eq_of_loosens h, List.flatten_singleton]

section
variable {maxCharacters : ℕ} (h : 0 < maxCharacters)

/-- A sentence that fits is one piece. -/
theorem standsIn_piecesOf {text : Text} {before : List Text} {sentence : Text} {after : List Text}
    (htext : splitIntoSentences text = before ++ sentence :: after) (hfits : sentence.length ≤ maxCharacters) :
    StandsIn (groupPieces maxCharacters [] (piecesOf maxCharacters h text)) before.flatten sentence := by
  have hall : ∀ sentence ∈ splitIntoSentences text, Trimmed sentence := fun _ => trimmed_of_mem_sentencesFrom
  rw [htext] at hall
  have hone : splitLongSentence maxCharacters h sentence = [sentence] := by rw [splitLongSentence, if_pos hfits]
  rw [piecesOf, htext, List.flatMap_append, List.flatMap_cons, hone]
  refine (standsIn_groupPieces [] _ (hall sentence (by simp)).nonempty _).of_visible ?_
  refine visible_eq_of_loosens ?_
  have hbefore : ∀ sentence ∈ before, Trimmed sentence := fun sentence hmem => hall sentence (by simp [hmem])
  exact loosens_flatMap h hbefore

theorem narrates_iff (text : Text) :
    Narrates text maxCharacters (groupPieces maxCharacters [] (piecesOf maxCharacters h text)) ↔
      NoSpaceInside maxCharacters [] ((splitIntoSentences text).flatMap joints) (piecesOf maxCharacters h text) := by
  have hpieces := piecesOf_spec h text
  have hbounded := @groupPieces_bounded maxCharacters [] (Nat.zero_le maxCharacters) _
    fun piece hpiece => ⟨(hpieces piece hpiece).1.nonempty, (hpieces piece hpiece).2⟩
  rw [← allowed_groupPieces_nil (fun piece hpiece => (hpieces piece hpiece).1) (loosens_piecesOf h text)]
  refine ⟨Narrates.spaces, fun hspaces => ⟨?_, ?_, ?_, cuts_splitIntoSentences text, hspaces, ?_⟩⟩
  · exact fun chunk hchunk => (hbounded chunk hchunk).1
  · exact fun chunk hchunk => (hbounded chunk hchunk).2
  · rw [visible_groupPieces, List.nil_append, visible_eq_of_loosens (loosens_piecesOf h text),
      visible_splitIntoSentences]
  · exact fun before sentence after => standsIn_piecesOf h

end

end CreativeStudio.Audio
