import CreativeStudio.Data.Text
import Mathlib.Data.List.TakeWhile
import Mathlib.Tactic.Ring

/-!
# Measuring and wrapping text

Japanese is written without spaces: it is counted by characters, joined without a space,
and wrapped at a number of characters rather than at words.
-/

namespace CreativeStudio.Story
open Data

/-- A text as its characters. -/
abbrev Text := List Char

/-- The characters that are not whitespace. -/
def visible (text : Text) : Text := text.filter fun c => !isSpace c

/-- What the source asks of the Unicode database, and `textwrap.wrap` with its documented
behaviour: no line is empty, and nothing but whitespace is dropped. -/
structure TextLibrary where
  /-- `unicodedata.category(c)` starts with `P`. -/
  isPunctuation : Char → Bool
  isAlnum : Char → Bool
  /-- `str.lower`. -/
  lower : String → String
  /-- `wrap width breakOnHyphens text`, with `break_long_words`. -/
  wrap : ℕ → Bool → Text → List Text
  wrap_ne_nil : ∀ width hyphens text, ∀ line ∈ wrap width hyphens text, line ≠ []
  visible_wrap : ∀ width hyphens text, (wrap width hyphens text).flatMap visible = visible text

/-- `_CJK_RANGES`. -/
def cjkRanges : List (ℕ × ℕ) :=
  [(0x3040, 0x309F), (0x30A0, 0x30FF), (0x3400, 0x4DBF), (0x4E00, 0x9FFF), (0xAC00, 0xD7A3), (0xF900, 0xFAFF),
    (0xFF66, 0xFF9D), (0x20000, 0x2A6DF)]

def inCjkRange (c : Char) : Bool := cjkRanges.any fun range => range.1 ≤ c.toNat && c.toNat ≤ range.2

/-- `is_cjk_char`. -/
def isCjkChar (lib : TextLibrary) (c : Char) : Bool := !lib.isPunctuation c && inCjkRange c

/-- `is_cjk_context_char`. -/
def isCjkContextChar (c : Char) : Bool :=
  let n := c.toNat
  (0x3000 ≤ n && n ≤ 0x303F) || (0xFF01 ≤ n && n ≤ 0xFF65) || inCjkRange c

/-- `cjk_ratio`. -/
def cjkRatio (lib : TextLibrary) (text : Text) : ℚ :=
  if visible text = [] then 0 else (visible text).countP (isCjkChar lib) / (visible text).length

/-- `CJK_TEXT_THRESHOLD`. -/
def cjkTextThreshold : ℚ := 3 / 10

/-- `is_cjk_text`. -/
def isCjkText (lib : TextLibrary) (text : Text) : Bool := cjkTextThreshold ≤ cjkRatio lib text

/-- `count_words`. -/
def countWords (lib : TextLibrary) (text : Text) : ℕ :=
  let remainder := text.map fun c => if isCjkChar lib c then ' ' else c
  text.countP (isCjkChar lib) + (splitWords remainder).countP fun token => token.any lib.isAlnum

/-- Two words next to each other, with a space unless both ends are Japanese. -/
def joinWords (joined token : Text) : Text :=
  if joined.getLast?.any isCjkContextChar && token.head?.any isCjkContextChar then joined ++ token
  else joined ++ ' ' :: token

/-- `collapse_whitespace`. -/
def collapseWhitespace (text : Text) : Text :=
  match splitWords text with
  | [] => []
  | first :: rest => rest.foldl joinWords first

/-- `_SENTENCE_BREAKS`. -/
def sentenceBreaks : Text := "。．！？!?…".toList

/-- `_SOFT_BREAKS`. -/
def softBreaks : Text := "、，,；;：:）」』】〉»".toList

/-- `SUBTITLE_MAX_CHARS_LATIN`. -/
def subtitleMaxCharsLatin : ℕ := 42

/-- `SUBTITLE_MAX_CHARS_CJK`. -/
def subtitleMaxCharsCjk : ℕ := 20

/-! ## Wrapping at a number of characters -/

/-- The loop's variables. -/
structure Wrapping where
  lines : List Text := []
  current : Text := []
  softBreakAt : ℕ := 0

/-- One turn of the loop. -/
def wrapChar (limit : ℕ) (state : Wrapping) (c : Char) : Wrapping :=
  let current := state.current ++ [c]
  if c ∈ sentenceBreaks then { lines := state.lines ++ [current] }
  else
    let softBreakAt := if c ∈ softBreaks then current.length else state.softBreakAt
    if limit ≤ current.length then
      -- a soft break, unless it leaves less than half of the budget
      if max 1 (limit / 2) ≤ softBreakAt then
        { lines := state.lines ++ [current.take softBreakAt], current := current.drop softBreakAt }
      else { lines := state.lines ++ [current] }
    else { state with current, softBreakAt }

/-- The lines with what is left at the end. -/
def Wrapping.close (state : Wrapping) : List Text :=
  if state.current = [] then state.lines else state.lines ++ [state.current]

/-- `_wrap_cjk`. -/
def wrapCjk (limit : ℕ) (text : Text) : List Text := (text.foldl (wrapChar limit) {}).close

/-- `entry.strip()`. -/
def stripText (text : Text) : Text := ((text.dropWhile isSpace).reverse.dropWhile isSpace).reverse

/-- `_split_cjk_lines`, whose loop is that of `_wrap_cjk`. -/
def splitCjkLines (limit : ℕ) (text : Text) : List Text :=
  ((wrapCjk limit text).map stripText).filter fun line => line ≠ []

/-- `split_subtitle_lines`. -/
def splitSubtitleLines (lib : TextLibrary) (text : Text) (maxChars : Option ℕ) : List Text :=
  let normalized := collapseWhitespace text
  if normalized = [] then []
  else if isCjkText lib normalized then
    splitCjkLines ((maxChars.filter fun n => n ≠ 0).getD subtitleMaxCharsCjk) normalized
  else lib.wrap ((maxChars.filter fun n => n ≠ 0).getD subtitleMaxCharsLatin) true normalized

/-! ## What splitting and wrapping keep -/

@[simp] theorem visible_nil : visible [] = [] := rfl

@[simp] theorem visible_append (left right : Text) : visible (left ++ right) = visible left ++ visible right :=
  List.filter_append ..

theorem visible_flatten (lines : List Text) : visible lines.flatten = lines.flatMap visible := by
  rw [visible, List.filter_flatten, List.flatMap_def]
  rfl

/-- The words are the runs of what is not whitespace. -/
theorem splitWords_spec (text : Text) :
    (splitWords text).flatten = visible text ∧ ∀ word ∈ splitWords text, word ≠ [] ∧ ∀ c ∈ word, isSpace c = false := by
  induction text with
  | nil => exact ⟨rfl, nofun⟩
  | cons c rest ih =>
    obtain ⟨hflatten, hwords⟩ := ih
    by_cases hc : isSpace c
    · rw [splitWords_of_isSpace hc, hflatten, visible, visible, List.filter_cons_of_neg (by simp [hc])]
      exact ⟨rfl, hwords⟩
    · have hvisible : visible (c :: rest) = c :: visible rest := List.filter_cons_of_pos (by simp [hc])
      have hnew : ∀ d ∈ [c], isSpace d = false := by simpa using hc
      rw [hvisible, ← hflatten]
      rcases splitWords_of_not_isSpace hc rest with halone | ⟨word, words, hsplit, hjoined⟩
      · rw [halone]
        exact ⟨rfl, List.forall_mem_cons.mpr ⟨⟨by simp, hnew⟩, hwords⟩⟩
      · rw [hsplit] at hwords ⊢
        obtain ⟨hword, hwords'⟩ := List.forall_mem_cons.mp hwords
        rw [hjoined]
        exact ⟨rfl, List.forall_mem_cons.mpr ⟨⟨by simp, List.forall_mem_cons.mpr ⟨by simpa using hc, hword.2⟩⟩, hwords'⟩⟩

theorem visible_eq_self {word : Text} (h : ∀ c ∈ word, isSpace c = false) : visible word = word :=
  List.filter_eq_self.mpr fun c hc => by simp [h c hc]

theorem flatMap_visible_splitWords (text : Text) : (splitWords text).flatMap visible = visible text := by
  obtain ⟨hflatten, hwords⟩ := splitWords_spec text
  have hmap : (splitWords text).map visible = splitWords text := by
    conv_rhs => rw [← List.map_id (splitWords text)]
    exact List.map_congr_left fun word hword => visible_eq_self (hwords word hword).2
  rw [List.flatMap_def, hmap, hflatten]

@[simp] theorem visible_joinWords (joined token : Text) :
    visible (joinWords joined token) = visible joined ++ visible token := by
  unfold joinWords
  split
  · exact visible_append joined token
  · rw [visible_append]
    exact congrArg _ (List.filter_cons_of_neg (by decide))

theorem visible_foldl_joinWords (first : Text) (rest : List Text) :
    visible (rest.foldl joinWords first) = visible first ++ rest.flatMap visible := by
  induction rest generalizing first with
  | nil => simp
  | cons token rest ih => rw [List.foldl_cons, ih, visible_joinWords, List.flatMap_cons, List.append_assoc]

@[simp] theorem visible_collapseWhitespace (text : Text) : visible (collapseWhitespace text) = visible text := by
  rw [← flatMap_visible_splitWords text, collapseWhitespace]
  cases splitWords text with
  | nil => rfl
  | cons first rest => exact visible_foldl_joinWords first rest

theorem visible_dropWhile (text : Text) : visible (text.dropWhile isSpace) = visible text := by
  conv_rhs => rw [← List.takeWhile_append_dropWhile (p := isSpace) (l := text), visible_append]
  have hnil : visible (text.takeWhile isSpace) = [] :=
    List.filter_eq_nil_iff.mpr fun c hc => by simp [List.mem_takeWhile_imp hc]
  rw [hnil, List.nil_append]

@[simp] theorem visible_stripText (text : Text) : visible (stripText text) = visible text := by
  have hreverse (text : Text) : visible text.reverse = (visible text).reverse := List.filter_reverse ..
  rw [stripText, hreverse, visible_dropWhile, hreverse, visible_dropWhile, List.reverse_reverse]



/-- The wrapped lines so far have every character, and none of them is empty. -/
structure Wrapping.Keeps (state : Wrapping) (read : Text) : Prop where
  kept : state.lines.flatten ++ state.current = read
  ne_nil : ∀ line ∈ state.lines, line ≠ []

theorem Wrapping.Keeps.wrapChar {state : Wrapping} {read : Text} (h : state.Keeps read) (limit : ℕ) (c : Char) :
    (wrapChar limit state c).Keeps (read ++ [c]) := by
  have hkept : state.lines.flatten ++ (state.current ++ [c]) = read ++ [c] := by
    rw [← List.append_assoc, h.kept]
  have hlines (line : Text) (hne : line ≠ []) : ∀ kept ∈ state.lines ++ [line], kept ≠ [] := by
    intro kept hmem
    rcases List.mem_append.mp hmem with hold | hnew
    · exact h.ne_nil kept hold
    · exact List.mem_singleton.mp hnew ▸ hne
  have hcurrent : state.current ++ [c] ≠ [] := by simp
  simp only [Story.wrapChar]
  -- which soft break the line has makes no difference to what is kept
  generalize (if c ∈ softBreaks then (state.current ++ [c]).length else state.softBreakAt) = softBreakAt
  split
  · exact ⟨by simpa using hkept, hlines _ hcurrent⟩
  · split
    · split
      next hsoft =>
        refine ⟨?_, hlines _ fun hnil => ?_⟩
        · rw [List.flatten_append, List.flatten_singleton, List.append_assoc, List.take_append_drop, hkept]
        · rcases List.take_eq_nil_iff.mp hnil with hzero | hnil
          · omega
          · exact hcurrent hnil
      next => exact ⟨by simpa using hkept, hlines _ hcurrent⟩
    · exact ⟨hkept, h.ne_nil⟩

theorem Wrapping.Keeps.foldl {state : Wrapping} {read : Text} (h : state.Keeps read) (limit : ℕ) (text : Text) :
    (text.foldl (Story.wrapChar limit) state).Keeps (read ++ text) := by
  induction text generalizing state read with
  | nil => simpa using h
  | cons c rest ih =>
    rw [List.foldl_cons, List.append_cons]
    exact ih (h.wrapChar limit c)

/-- Wrapping keeps every character in its place and leaves no line empty. -/
theorem wrapCjk_spec (limit : ℕ) (text : Text) :
    (wrapCjk limit text).flatten = text ∧ ∀ line ∈ wrapCjk limit text, line ≠ [] := by
  have hkeeps : (text.foldl (wrapChar limit) {}).Keeps text := by
    have hstart : Wrapping.Keeps {} [] := ⟨rfl, nofun⟩
    simpa using hstart.foldl limit text
  unfold wrapCjk Wrapping.close
  split
  next hnil => exact ⟨by simpa [hnil] using hkeeps.kept, hkeeps.ne_nil⟩
  next hsome =>
    refine ⟨by simpa using hkeeps.kept, fun line hmem => ?_⟩
    rcases List.mem_append.mp hmem with hold | hnew
    · exact hkeeps.ne_nil line hold
    · exact List.mem_singleton.mp hnew ▸ hsome

theorem flatMap_visible_splitCjkLines (limit : ℕ) (text : Text) :
    (splitCjkLines limit text).flatMap visible = visible text := by
  have hfilter (lines : List Text) : (lines.filter fun line => line ≠ []).flatMap visible = lines.flatMap visible := by
    induction lines with
    | nil => rfl
    | cons line rest ih =>
      by_cases hline : line = []
      · rw [List.filter_cons_of_neg (by simp [hline]), ih, List.flatMap_cons, hline, visible_nil, List.nil_append]
      · rw [List.filter_cons_of_pos (by simp [hline]), List.flatMap_cons, ih, List.flatMap_cons]
  rw [splitCjkLines, hfilter, List.flatMap_map]
  simp only [visible_stripText]
  rw [← visible_flatten, (wrapCjk_spec limit text).1]

/-- Subtitle lines carry every visible character once and in order, and none is empty. -/
theorem splitSubtitleLines_spec (lib : TextLibrary) (text : Text) (maxChars : Option ℕ) :
    (splitSubtitleLines lib text maxChars).flatMap visible = visible text ∧
      ∀ line ∈ splitSubtitleLines lib text maxChars, line ≠ [] := by
  rw [← visible_collapseWhitespace text]
  simp only [splitSubtitleLines]
  split
  next hnil => exact ⟨by rw [hnil]; rfl, nofun⟩
  next =>
    split
    · exact ⟨flatMap_visible_splitCjkLines _ _, fun line hline => by simpa using (List.mem_filter.mp hline).2⟩
    · exact ⟨lib.visible_wrap _ _ _, lib.wrap_ne_nil _ _ _⟩

/-- A library that knows two marks and puts every word on a line of its own. -/
def plainLibrary : TextLibrary where
  isPunctuation c := c = '、' || c = '。'
  isAlnum := Char.isAlphanum
  lower := String.toLower
  wrap _ _ text := splitWords text
  wrap_ne_nil _ _ text line hline := ((splitWords_spec text).2 line hline).1
  visible_wrap _ _ text := flatMap_visible_splitWords text

end CreativeStudio.Story
