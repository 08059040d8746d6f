import CreativeStudio.Schemas.Errors
import CreativeStudio.Story.Stripping

/-!
# Splitting narration into chunks

Narration is split into sentences, and a sentence that is too long into pieces: at its clauses,
then at its words, then anywhere. The pieces are grouped into chunks again, with a space between
two of them that meet in ASCII characters.
-/

namespace CreativeStudio.Audio
open Data Story

/-- `_SENTENCE_TERMINATORS`. -/
def sentenceTerminators : Text := ['。', '！', '？', '!', '?', '.']

/-- `_LATIN_TERMINATORS`. -/
def latinTerminators : Text := ['.', '!', '?']

/-- `_CLOSING_CHARACTERS`. -/
def closingCharacters : Text := ['」', '』', '）', '】', '〕', '》', '”', '’', '"', ')', '\'', ']', '>']

/-- `_CLAUSE_SEPARATORS`. -/
def clauseSeparators : Text := ['、', '，', ',', '；', ';', '：', ':', '…', '—']

/-- `_flush`. -/
def flush (buffer : Text) : List Text := if stripText buffer = [] then [] else [stripText buffer]

/-- `_ends_latin_sentence`, of what is left of the text. -/
def endsLatinSentence (rest : Text) : Bool := rest.head?.all isSpace

/-- The character goes with the sentence that a terminator has just ended. -/
def isTrailing (c : Char) : Bool := c ∈ sentenceTerminators || c ∈ closingCharacters

/-- The loop of `split_into_sentences`. -/
def sentencesFrom (buffer : Text) : Text → List Text
  | [] => flush buffer
  | c :: rest =>
    if c = '\n' then flush (buffer ++ [c]) ++ sentencesFrom [] rest
    else if c ∉ sentenceTerminators then sentencesFrom (buffer ++ [c]) rest
    else
      let buffer := buffer ++ c :: rest.takeWhile isTrailing
      if c ∈ latinTerminators ∧ !endsLatinSentence (rest.dropWhile isTrailing) then
        sentencesFrom buffer (rest.dropWhile isTrailing)
      else flush buffer ++ sentencesFrom [] (rest.dropWhile isTrailing)
termination_by text => text.length
decreasing_by
  all_goals
    have hle := (List.dropWhile_suffix (l := rest) isTrailing).length_le
    simp only [List.length_cons]
    omega

/-- `split_into_sentences`. -/
def splitIntoSentences (text : Text) : List Text := sentencesFrom [] text

/-- The loop of `_split_clauses`. -/
def clausesFrom (buffer : Text) : Text → List Text
  | [] => if buffer = [] then [] else [buffer]
  | c :: rest =>
    if c ∈ clauseSeparators then (buffer ++ [c]) :: clausesFrom [] rest else clausesFrom (buffer ++ [c]) rest

/-- `_split_clauses`. -/
def splitClauses (sentence : Text) : List Text := clausesFrom [] sentence

/-- The loop of `_preferred_break_position`, from the given index down. -/
def breakFrom (text : Text) (maxCharacters : ℕ) : ℕ → ℕ
  | 0 => maxCharacters
  | index + 1 =>
    if text[index]?.any isSpace then if index = 0 then maxCharacters else index
    else breakFrom text maxCharacters index

/-- `_preferred_break_position`. -/
def preferredBreakPosition (text : Text) (maxCharacters : ℕ) : ℕ := breakFrom text maxCharacters maxCharacters

theorem breakFrom_pos (text : Text) {maxCharacters : ℕ} (h : 0 < maxCharacters) (index : ℕ) :
    0 < breakFrom text maxCharacters index := by
  induction index with
  | zero => exact h
  | succ index ih =>
    rw [breakFrom]
    split
    · split <;> omega
    · exact ih

theorem preferredBreakPosition_pos (text : Text) {maxCharacters : ℕ} (h : 0 < maxCharacters) :
    0 < preferredBreakPosition text maxCharacters := breakFrom_pos text h maxCharacters

theorem length_stripText_le (text : Text) : (stripText text).length ≤ text.length :=
  (List.rdropWhile_prefix ..).length_le.trans (List.dropWhile_suffix _).length_le

/-- The loop that cuts a clause: the pieces, and what is left of the clause. -/
def cutClause (maxCharacters : ℕ) (h : 0 < maxCharacters) (clause : Text) : List Text × Text :=
  if maxCharacters < clause.length then
    let breakAt := preferredBreakPosition clause maxCharacters
    let (pieces, rest) := cutClause maxCharacters h (stripText (clause.drop breakAt))
    (flush (clause.take breakAt) ++ pieces, rest)
  else ([], clause)
termination_by clause.length
decreasing_by
  have hpos := preferredBreakPosition_pos clause h
  have hle := length_stripText_le (clause.drop (preferredBreakPosition clause maxCharacters))
  rw [List.length_drop] at hle
  omega

/-- The loop of `_split_long_sentence`. -/
def splitLoop (maxCharacters : ℕ) (h : 0 < maxCharacters) (current : Text) : List Text → List Text
  | [] => flush current
  | clause :: rest =>
    if current.length + clause.length ≤ maxCharacters then splitLoop maxCharacters h (current ++ clause) rest
    else
      flush current ++ (cutClause maxCharacters h clause).1 ++
        splitLoop maxCharacters h (cutClause maxCharacters h clause).2 rest

/-- `_split_long_sentence`. -/
def splitLongSentence (maxCharacters : ℕ) (h : 0 < maxCharacters) (sentence : Text) : List Text :=
  if sentence.length ≤ maxCharacters then [sentence]
  else (splitLoop maxCharacters h [] (splitClauses sentence)).filter fun piece => piece ≠ []

/-- `text.isascii()` of one character. -/
def isAscii (c : Char) : Bool := c.toNat < 128

/-- `_join_separator`. -/
def joinSeparator (left right : Text) : Text :=
  if left.getLast?.all isAscii && right.head?.all isAscii then [' '] else []

/-- The loop of `split_into_chunks`, over the pieces of all sentences. -/
def groupPieces (maxCharacters : ℕ) (current : Text) : List Text → List Text
  | [] => if current = [] then [] else [current]
  | piece :: rest =>
    if current = [] then groupPieces maxCharacters piece rest
    else
      let candidate := current ++ joinSeparator current piece ++ piece
      if candidate.length ≤ maxCharacters then groupPieces maxCharacters candidate rest
      else current :: groupPieces maxCharacters piece rest

/-- The pieces of all sentences. -/
def piecesOf (maxCharacters : ℕ) (h : 0 < maxCharacters) (text : Text) : List Text :=
  (splitIntoSentences text).flatMap (splitLongSentence maxCharacters h)

theorem toNat_pos_of_not_lt {n : ℤ} (h : ¬n < 1) : 0 < n.toNat := by omega

/-- `split_into_chunks`. -/
def splitIntoChunks (text : Text) (maxCharacters : ℤ) : Except Exc (List Text) :=
  if h : maxCharacters < 1 then
    .error (.value s!"max_characters must be at least 1, got {maxCharacters}.")
  else .ok (groupPieces maxCharacters.toNat [] (piecesOf maxCharacters.toNat (toNat_pos_of_not_lt h) text))

end CreativeStudio.Audio
