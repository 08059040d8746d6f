import CreativeStudio.Story.TextUtils

/-!
# The layout of wrapped and collapsed text

Where a line of wrapped text may end, and what is between the words of a collapsed one. A line is cut
after the limit, after a sentence, or after the last soft break of the line if that leaves at least half
of the limit; a collapsed text has single spaces, and none between two Japanese characters.
-/

namespace CreativeStudio.Story
open Data

/-! ## Where lines end -/

/-- The last character is one of the marks. -/
def EndsIn (marks line : Text) : Prop := ∃ c ∈ marks, line.getLast? = some c

/-- A line that is cut off within the limit. -/
structure WellCut (limit : ℕ) (line : Text) : Prop where
  within : line.length ≤ limit
  ending : line.length < limit →
    EndsIn sentenceBreaks line ∨ (EndsIn softBreaks line ∧ max 1 (limit / 2) ≤ line.length)

/-- The lines so far are well cut, and the partial line is below the limit and knows its last soft break. -/
structure Wrapping.Bounded (limit : ℕ) (state : Wrapping) : Prop where
  lines : ∀ line ∈ state.lines, WellCut limit line
  current : state.current.length < limit
  softBreakAt_le : state.softBreakAt ≤ state.current.length
  softBreak : state.softBreakAt ≠ 0 → EndsIn softBreaks (state.current.take state.softBreakAt)

section
variable {limit : ℕ} {state : Wrapping} {lines : List Text} {line : Text}

theorem endsIn_concat {marks : Text} {c : Char} (h : c ∈ marks) (line : Text) : EndsIn marks (line ++ [c]) :=
  ⟨c, h, List.getLast?_concat⟩

/-- A new line begins after a well cut one. -/
theorem Wrapping.Bounded.cut (h : state.Bounded limit) (hline : WellCut limit line) {rest : Text}
    (hrest : rest.length < limit) : Wrapping.Bounded limit { lines := state.lines ++ [line], current := rest } where
  lines := by
    intro other hother
    rcases List.mem_append.mp hother with hold | hnew
    · exact h.lines other hold
    · rw [List.mem_singleton.mp hnew]
      exact hline
  current := hrest
  softBreakAt_le := Nat.zero_le _
  softBreak hne := absurd rfl hne

theorem Wrapping.Bounded.wrapChar (h : state.Bounded limit) (c : Char) : (wrapChar limit state c).Bounded limit := by
  have hlimit := h.current
  have hlength : (state.current ++ [c]).length = state.current.length + 1 := by simp
  have hle : (state.current ++ [c]).length ≤ limit := by omega
  simp only [Story.wrapChar]
  split
  next hsentence => exact h.cut ⟨hle, fun _ => .inl (endsIn_concat hsentence _)⟩ (by simp; omega)
  next =>
    -- the last soft break, whether it is this character or an earlier one
    obtain ⟨softBreakAt, hdef, hbreak, hends⟩ : ∃ softBreakAt,
        (if c ∈ softBreaks then (state.current ++ [c]).length else state.softBreakAt) = softBreakAt ∧
        softBreakAt ≤ (state.current ++ [c]).length ∧
        (softBreakAt ≠ 0 → EndsIn softBreaks ((state.current ++ [c]).take softBreakAt)) := by
      refine ⟨_, rfl, ?_⟩
      split
      next hsoft =>
        refine ⟨le_refl _, fun _ => ?_⟩
        rw [List.take_length]
        exact endsIn_concat hsoft _
      next =>
        have hold := h.softBreakAt_le
        refine ⟨by omega, fun hne => ?_⟩
        rw [List.take_append_of_le_length hold]
        exact h.softBreak hne
    rw [hdef]
    split
    next hfull =>
      split
      next hsoft =>
        have htake : ((state.current ++ [c]).take softBreakAt).length = softBreakAt := by
          rw [List.length_take]
          omega
        refine h.cut ⟨by omega, fun _ => .inr ⟨hends (by omega), by omega⟩⟩ ?_
        rw [List.length_drop]
        omega
      next => exact h.cut ⟨hle, fun hshort => absurd hshort (by omega)⟩ (by simp; omega)
    next hshort => exact ⟨h.lines, by simpa using hshort, hbreak, hends⟩

theorem Wrapping.Bounded.foldl (h : state.Bounded limit) (text : Text) :
    (text.foldl (Story.wrapChar limit) state).Bounded limit := by
  induction text generalizing state with
  | nil => exact h
  | cons c rest ih => exact ih (h.wrapChar c)

/-- Every line is within the limit, and every line but the last is well cut. -/
theorem wrapCjk_wellCut (hlimit : 1 ≤ limit) (text : Text) :
    (∀ line ∈ wrapCjk limit text, line.length ≤ limit) ∧
      ∀ line ∈ (wrapCjk limit text).dropLast, WellCut limit line := by
  have hstart : Wrapping.Bounded limit {} := ⟨by simp, hlimit, Nat.zero_le _, by simp⟩
  have hbounded := hstart.foldl text
  rw [wrapCjk, Wrapping.close]
  split
  · exact ⟨fun line hline => (hbounded.lines line hline).within,
      fun line hline => hbounded.lines line (List.dropLast_subset _ hline)⟩
  · rw [List.dropLast_concat]
    refine ⟨fun line hline => ?_, hbounded.lines⟩
    rcases List.mem_append.mp hline with hold | hnew
    · exact (hbounded.lines line hold).within
    · rw [List.mem_singleton.mp hnew]
      exact hbounded.current.le

end

/-! ## What is between the words of a collapsed text -/

/-- A word: something, and no whitespace in it. -/
structure IsWord (word : Text) : Prop where
  ne_nil : word ≠ []
  not_isSpace : ∀ c ∈ word, isSpace c = false

/-- What is put between two words. -/
def separator (word next : Text) : Text :=
  if word.getLast?.any isCjkContextChar && next.head?.any isCjkContextChar then [] else [' ']

/-- The words joined one after the other. -/
def joinAll : List Text → Text
  | [] => []
  | first :: rest => rest.foldl joinWords first

section
variable {word next joined : Text} {rest words : List Text}

theorem collapseWhitespace_eq (text : Text) : collapseWhitespace text = joinAll (splitWords text) := by
  rw [collapseWhitespace]
  cases splitWords text <;> rfl

theorem isWord_of_mem_splitWords {text : Text} (h : word ∈ splitWords text) : IsWord word :=
  ⟨((splitWords_spec text).2 word h).1, ((splitWords_spec text).2 word h).2⟩

theorem joinWords_eq (joined token : Text) : joinWords joined token = joined ++ (separator joined token ++ token) := by
  rw [joinWords, separator]
  split <;> rfl

theorem separator_append (before : Text) (hne : joined ≠ []) (token : Text) :
    separator (before ++ joined) token = separator joined token := by
  rw [separator, separator, List.getLast?_append_of_ne_nil _ hne]

theorem foldl_joinWords_append (before : Text) (hne : joined ≠ []) (rest : List Text) :
    rest.foldl joinWords (before ++ joined) = before ++ rest.foldl joinWords joined := by
  induction rest generalizing joined with
  | nil => rfl
  | cons token rest ih =>
    have hstep : joinWords (before ++ joined) token = before ++ joinWords joined token := by
      rw [joinWords_eq, joinWords_eq, separator_append before hne, List.append_assoc]
    have hne' : joinWords joined token ≠ [] := by
      rw [joinWords_eq]
      simp [hne]
    rw [List.foldl_cons, List.foldl_cons, hstep, ih hne']

/-- The first word, what separates it from the next one, and the others joined. -/
theorem joinAll_cons_cons (hnext : next ≠ []) (word : Text) (rest : List Text) :
    joinAll (word :: next :: rest) = word ++ (separator word next ++ joinAll (next :: rest)) := by
  rw [joinAll, List.foldl_cons, joinWords_eq, ← List.append_assoc, foldl_joinWords_append _ hnext, List.append_assoc]
  rfl

theorem prefix_foldl_joinWords (joined : Text) (rest : List Text) : joined <+: rest.foldl joinWords joined := by
  induction rest generalizing joined with
  | nil => exact List.prefix_rfl
  | cons token rest ih =>
    refine List.IsPrefix.trans ?_ (ih (joinWords joined token))
    rw [joinWords_eq]
    exact List.prefix_append joined _

theorem head?_joinAll (hword : word ≠ []) (rest : List Text) : (joinAll (word :: rest)).head? = word.head? := by
  obtain ⟨tail, htail⟩ := prefix_foldl_joinWords word rest
  rw [joinAll, ← htail, List.head?_append_of_ne_nil _ hword]

theorem splitWords_cons {c d : Char} (hc : isSpace c = false) (hd : isSpace d = false) {rest first : Text}
    {others : List Text} (h : splitWords (d :: rest) = first :: others) :
    splitWords (c :: d :: rest) = (c :: first) :: others := by
  have hnot : ¬isSpace c := by rw [hc]; decide
  have hunfold : splitWords (c :: d :: rest) = _ := if_neg hnot
  rw [hunfold, h]
  exact if_neg (by rw [hd]; decide)

theorem splitWords_cons_space {c d : Char} (hc : isSpace c = false) (hd : isSpace d) (rest : Text) :
    splitWords (c :: d :: rest) = [c] :: splitWords (d :: rest) := by
  have hnot : ¬isSpace c := by rw [hc]; decide
  have hunfold : splitWords (c :: d :: rest) = _ := if_neg hnot
  rw [hunfold]
  cases splitWords (d :: rest) with
  | nil => rfl
  | cons first others => exact if_pos hd

theorem splitWords_singleton {c : Char} (hc : isSpace c = false) : splitWords [c] = [[c]] := by
  have hnot : ¬isSpace c := by rw [hc]; decide
  exact if_neg hnot

theorem splitWords_word_space (hword : IsWord word) (text : Text) :
    splitWords (word ++ ' ' :: text) = word :: splitWords text := by
  obtain ⟨hne, hspace⟩ := hword
  induction word with
  | nil => exact absurd rfl hne
  | cons c rest ih =>
    have hc := hspace c (by simp)
    cases rest with
    | nil =>
      have hblank : splitWords (' ' :: text) = splitWords text := splitWords_of_isSpace (by decide) text
      rw [List.singleton_append, splitWords_cons_space hc (by decide), hblank]
    | cons d rest =>
      have hrest := ih (by simp) fun e he => hspace e (List.mem_cons_of_mem _ he)
      exact splitWords_cons hc (hspace d (by simp)) hrest

theorem splitWords_word_append (hword : IsWord word) {d : Char} (hd : isSpace d = false) {text first : Text}
    {others : List Text} (h : splitWords (d :: text) = first :: others) :
    splitWords (word ++ d :: text) = (word ++ first) :: others := by
  obtain ⟨hne, hspace⟩ := hword
  induction word with
  | nil => exact absurd rfl hne
  | cons c rest ih =>
    have hc := hspace c (by simp)
    cases rest with
    | nil => exact splitWords_cons hc hd h
    | cons e rest =>
      have hrest := ih (by simp) fun f hf => hspace f (List.mem_cons_of_mem _ hf)
      exact splitWords_cons hc (hspace e (by simp)) hrest

theorem splitWords_word (hword : IsWord word) : splitWords word = [word] := by
  obtain ⟨hne, hspace⟩ := hword
  induction word with
  | nil => exact absurd rfl hne
  | cons c rest ih =>
    have hc := hspace c (by simp)
    cases rest with
    | nil => exact splitWords_singleton hc
    | cons d rest =>
      exact splitWords_cons hc (hspace d (by simp)) (ih (by simp) fun e he => hspace e (List.mem_cons_of_mem _ he))

theorem IsWord.head (hword : IsWord word) : ∃ c rest, word = c :: rest ∧ isSpace c = false := by
  obtain ⟨c, rest, rfl⟩ := List.exists_cons_of_ne_nil hword.ne_nil
  exact ⟨c, rest, rfl, hword.not_isSpace c (by simp)⟩

/-- Splitting what is joined and joining it again changes nothing. -/
theorem joinAll_splitWords_joinAll (hwords : ∀ word ∈ words, IsWord word) :
    joinAll (splitWords (joinAll words)) = joinAll words := by
  induction words with
  | nil => rfl
  | cons word rest ih =>
    have hword := hwords word (by simp)
    have ih := ih fun other hother => hwords other (List.mem_cons_of_mem _ hother)
    rcases rest with _ | ⟨next, rest⟩
    · have hsingle : joinAll [word] = word := rfl
      rw [hsingle, splitWords_word hword]
      rfl
    have hnext := hwords next (by simp)
    have hhead := head?_joinAll hnext.ne_nil rest
    obtain ⟨d, more, hd, hspace⟩ := hnext.head
    obtain ⟨tail, htail⟩ : ∃ tail, joinAll (next :: rest) = d :: tail :=
      List.head?_eq_some_iff.mp (hhead.trans (congrArg List.head? hd))
    obtain ⟨first, others, hsplit⟩ : ∃ first others, splitWords (d :: tail) = first :: others := by
      have hnot : ¬isSpace d := by rw [hspace]; decide
      rcases splitWords_of_not_isSpace hnot tail with h | ⟨first, others, -, h⟩
      · exact ⟨_, _, h⟩
      · exact ⟨_, _, h⟩
    have hfirst : IsWord first := isWord_of_mem_splitWords (hsplit ▸ List.mem_cons_self)
    rw [htail, hsplit] at ih
    have hfirst_head : first.head? = next.head? := by
      rw [← head?_joinAll hfirst.ne_nil others, ih, hd]
      rfl
    rw [joinAll_cons_cons hnext.ne_nil, htail]
    by_cases hjoined : word.getLast?.any isCjkContextChar && next.head?.any isCjkContextChar
    · have hnone : separator word next = [] := if_pos hjoined
      rw [hnone, List.nil_append, splitWords_word_append hword hspace hsplit]
      rw [joinAll, foldl_joinWords_append word hfirst.ne_nil]
      exact congrArg _ ih
    · have hblank : separator word next = [' '] := if_neg hjoined
      have hblank' : separator word first = [' '] := by rw [separator, hfirst_head, ← separator, hblank]
      rw [hblank, List.singleton_append, splitWords_word_space hword, hsplit, joinAll_cons_cons hfirst.ne_nil,
        hblank', ih]
      rfl

/-- What is between the words: single spaces, and none of them between two Japanese characters. -/
structure Spaced (text : Text) : Prop where
  blank : ∀ c ∈ text, isSpace c → c = ' '
  single : text.IsChain fun c d => ¬(isSpace c ∧ isSpace d)
  between : ∀ before c d after, text = before ++ c :: ' ' :: d :: after →
    ¬(isCjkContextChar c ∧ isCjkContextChar d)

theorem spaced_nil : Spaced [] := ⟨by simp, by simp, by simp⟩

/-- A character before a spaced text. -/
theorem Spaced.cons {text : Text} (h : Spaced text) {c : Char} (hblank : isSpace c → c = ' ')
    (hsingle : ∀ d ∈ text.head?, ¬(isSpace c ∧ isSpace d))
    (hbetween : ∀ d after, text = ' ' :: d :: after → ¬(isCjkContextChar c ∧ isCjkContextChar d)) :
    Spaced (c :: text) where
  blank d hd hspace := by
    rcases List.mem_cons.mp hd with rfl | hd
    · exact hblank hspace
    · exact h.blank d hd hspace
  single := by
    cases text with
    | nil => exact .singleton c
    | cons d rest => exact List.isChain_cons_cons.mpr ⟨hsingle d rfl, h.single⟩
  between before a b after heq := by
    rcases before with _ | ⟨_, before⟩
    · obtain ⟨rfl, hrest⟩ := List.cons.inj heq
      exact hbetween b after hrest
    · exact h.between before a b after (List.cons.inj heq).2

theorem Spaced.cons_of_not_isSpace {text : Text} (h : Spaced text) {c : Char} (hc : isSpace c = false)
    (hbetween : ∀ d after, text = ' ' :: d :: after → ¬(isCjkContextChar c ∧ isCjkContextChar d)) :
    Spaced (c :: text) := by
  have hnot : ¬isSpace c := by rw [hc]; decide
  exact h.cons (fun hspace => absurd hspace hnot) (fun d _ hspace => hnot hspace.1) hbetween

theorem IsWord.spaced (hword : IsWord word) : Spaced word := by
  obtain ⟨-, hnot⟩ := hword
  induction word with
  | nil => exact spaced_nil
  | cons c rest ih =>
    have hrest := ih fun d hd => hnot d (List.mem_cons_of_mem _ hd)
    refine hrest.cons_of_not_isSpace (hnot c (by simp)) fun d after heq => ?_
    have hblank := hnot ' ' (by simp [heq])
    exact absurd hblank (by decide)

/-- A word and a spaced text that begins with a word. -/
theorem Spaced.join {text : Text} (hspaced : Spaced text) (hword : IsWord word) (hnext : IsWord next)
    (hhead : text.head? = next.head?) : Spaced (word ++ (separator word next ++ text)) := by
  obtain ⟨d, more, hd, hspace⟩ := hnext.head
  obtain ⟨tail, rfl⟩ : ∃ tail, text = d :: tail := List.head?_eq_some_iff.mp (hhead.trans (congrArg List.head? hd))
  have hblank (e : Char) (he : isSpace e = false) (hcontext : Prop) (rest after : Text) :
      e :: rest = ' ' :: after → hcontext := by
    intro heq
    rw [(List.cons.inj heq).1] at he
    exact absurd he (by decide)
  obtain ⟨hne, hnot⟩ := hword
  induction word with
  | nil => exact absurd rfl hne
  | cons c rest ih =>
    have hc := hnot c (by simp)
    cases rest with
    | nil =>
      by_cases hjoined : ([c] : Text).getLast?.any isCjkContextChar && next.head?.any isCjkContextChar
      · rw [separator, if_pos hjoined]
        exact hspaced.cons_of_not_isSpace hc fun b after => hblank d hspace _ _ _
      · rw [separator, if_neg hjoined]
        have hafter : Spaced (' ' :: d :: tail) := by
          refine hspaced.cons (fun _ => rfl) (fun b hb hboth => ?_) (fun b after => hblank d hspace _ _ _)
          rw [← Option.mem_some.mp hb, hspace] at hboth
          exact absurd hboth.2 (by decide)
        refine hafter.cons_of_not_isSpace hc fun b after heq hboth => hjoined ?_
        obtain ⟨rfl, -⟩ := List.cons.inj (List.cons.inj heq).2
        rw [hd]
        simp [hboth.1, hboth.2]
    | cons e rest =>
      have hsame : separator (c :: e :: rest) next = separator (e :: rest) next :=
        separator_append [c] (by simp) next
      rw [hsame]
      exact (ih (by simp) fun f hf => hnot f (List.mem_cons_of_mem _ hf)).cons_of_not_isSpace hc
        fun b after => hblank e (hnot e (by simp)) _ _ _

theorem spaced_joinAll (hwords : ∀ word ∈ words, IsWord word) : Spaced (joinAll words) := by
  induction words with
  | nil => exact spaced_nil
  | cons word rest ih =>
    have hword := hwords word (by simp)
    have hrest := ih fun other hother => hwords other (List.mem_cons_of_mem _ hother)
    rcases rest with _ | ⟨next, rest⟩
    · have hsingle : joinAll [word] = word := rfl
      rw [hsingle]
      exact hword.spaced
    · have hnext := hwords next (by simp)
      rw [joinAll_cons_cons hnext.ne_nil]
      exact hrest.join hword hnext (head?_joinAll hnext.ne_nil rest)

end

/-! ## Wrapping and collapsing together -/

/-- What a wrapped text is: every character in its line, the lines within the limit and well cut. -/
structure WrappedAt (limit : ℕ) (text : Text) (lines : List Text) : Prop where
  flatten : lines.flatten = text
  ne_nil : ∀ line ∈ lines, line ≠ []
  within : ∀ line ∈ lines, line.length ≤ limit
  wellCut : ∀ line ∈ lines.dropLast, WellCut limit line

/-- Wrapping loses nothing and cuts well, and collapsing is idempotent and leaves the text spaced. -/
theorem wrapCjk_collapseWhitespace {limit : ℕ} (hlimit : 1 ≤ limit) (text : Text) :
    WrappedAt limit text (wrapCjk limit text) ∧
      splitCjkLines limit text = ((wrapCjk limit text).map stripText).filter (fun line => line ≠ []) ∧
      collapseWhitespace (collapseWhitespace text) = collapseWhitespace text ∧
      visible (collapseWhitespace text) = visible text ∧ Spaced (collapseWhitespace text) := by
  obtain ⟨hflatten, hne⟩ := wrapCjk_spec limit text
  obtain ⟨hwithin, hcut⟩ := wrapCjk_wellCut hlimit text
  have hwords : ∀ word ∈ splitWords text, IsWord word := fun word hword => isWord_of_mem_splitWords hword
  refine ⟨⟨hflatten, hne, hwithin, hcut⟩, rfl, ?_, visible_collapseWhitespace text, ?_⟩
  · rw [collapseWhitespace_eq, collapseWhitespace_eq]
    exact joinAll_splitWords_joinAll hwords
  · rw [collapseWhitespace_eq]
    exact spaced_joinAll hwords

/-- Three lines of at most four characters; of the three spaces one is left. -/
theorem wrapCjk_collapseWhitespace_seasons :
    WrappedAt 4 "春、夏 秋。a  b".toList (wrapCjk 4 "春、夏 秋。a  b".toList) ∧
      splitCjkLines 4 "春、夏 秋。a  b".toList =
        ((wrapCjk 4 "春、夏 秋。a  b".toList).map stripText).filter (fun line => line ≠ []) ∧
      collapseWhitespace (collapseWhitespace "春、夏 秋。a  b".toList) = collapseWhitespace "春、夏 秋。a  b".toList ∧
      visible (collapseWhitespace "春、夏 秋。a  b".toList) = visible "春、夏 秋。a  b".toList ∧
      Spaced (collapseWhitespace "春、夏 秋。a  b".toList) :=
  wrapCjk_collapseWhitespace (by decide) _

end CreativeStudio.Story
