import CreativeStudio.Story.Stripping
import CreativeStudio.Data.Dict
import Mathlib.Data.Finset.Max

/-!
# The brief of a task prompt

`_brief` renders the fields of a task one on a line, and `parse_brief` reads them back from the
prompt. A value that goes on after a line break is not escaped: its later lines are lines of the
brief like any other one.
-/

namespace CreativeStudio.Generators
open Data Story

/-- `BRIEF_HEADING`. -/
def briefHeading : Text := "### BRIEF".toList

/-- `key.strip().lstrip("-").strip().lower().replace(" ", "_")`. -/
def normalizeKey (lower : String → String) (key : Text) : String :=
  .ofList ((lower (.ofList (stripText ((stripText key).dropWhile (· = '-'))))).toList.map
    fun c => if c = ' ' then '_' else c)

/-- `stripped.partition(":")`, without the colon. -/
def partitionColon (stripped : Text) : Text × Text :=
  (stripped.takeWhile (· ≠ ':'), (stripped.dropWhile (· ≠ ':')).drop 1)

/-- The loop of `parse_brief`. -/
def readLines (lower : String → String) : List Text → Bool → Dict String → Dict String
  | [], _, context => context
  | line :: rest, inBrief, context =>
    let stripped := stripText line
    if briefHeading.isPrefixOf stripped then readLines lower rest true context
    else if !inBrief then readLines lower rest inBrief context
    else if "###".toList.isPrefixOf stripped then context
    else if stripped = [] ∨ ':' ∉ stripped then readLines lower rest inBrief context
    else
      let (key, value) := partitionColon stripped
      let normalizedKey := normalizeKey lower key
      if normalizedKey ≠ "" then
        readLines lower rest inBrief (context.set normalizedKey (.ofList (stripText value)))
      else readLines lower rest inBrief context

/-- `parse_brief`. -/
def parseBrief (lower : String → String) (prompt : Text) : Dict String := readLines lower (splitlines prompt) false []

/-- The line of one field. -/
def fieldLine (key : String) (value : Text) : Text := "- ".toList ++ key.toList ++ ": ".toList ++ value

/-- `_brief`, of the fields that are not empty. -/
def brief (fields : List (String × Text)) : Text :=
  joinLines (briefHeading :: fields.map fun field => fieldLine field.1 field.2)

/-! ## The reader as a machine -/

/-- How far the reader is. -/
inductive Reading
  | before
  | inside (context : Dict String)
  | done (context : Dict String)

namespace Reading

/-- What the reader has read. -/
def context : Reading → Dict String
  | before => []
  | inside context => context
  | done context => context

end Reading

/-- The line starts a brief. -/
def isHeading (line : Text) : Bool := briefHeading.isPrefixOf (stripText line)

/-- The line ends a brief. -/
def isStop (line : Text) : Bool := !isHeading line && "###".toList.isPrefixOf (stripText line)

/-- What a line inside a brief sets. -/
def entry (lower : String → String) (line : Text) : Option (String × String) :=
  if isHeading line ∨ ':' ∉ stripText line then none
  else
    let parts := partitionColon (stripText line)
    if normalizeKey lower parts.1 = "" then none
    else some (normalizeKey lower parts.1, .ofList (stripText parts.2))

/-- The reader reads one line. -/
def Reading.step (lower : String → String) : Reading → Text → Reading
  | before, line => if isHeading line then inside [] else before
  | inside context, line =>
    if isStop line then done context
    else (entry lower line).elim (inside context) fun entry => inside (context.set entry.1 entry.2)
  | done context, _ => done context

/-- The reader reads lines. -/
def Reading.read (lower : String → String) (reading : Reading) (lines : List Text) : Reading :=
  lines.foldl (Reading.step lower) reading

section
variable {lower : String → String} {lines : List Text} {context : Dict String} {reading : Reading}

@[simp] theorem read_nil : reading.read lower [] = reading := rfl

@[simp] theorem read_cons (line : Text) :
    reading.read lower (line :: lines) = (reading.step lower line).read lower lines := rfl

theorem read_append (lines' : List Text) :
    reading.read lower (lines ++ lines') = (reading.read lower lines).read lower lines' :=
  List.foldl_append

@[simp] theorem read_done (lines : List Text) : (Reading.done context).read lower lines = .done context := by
  induction lines with
  | nil => rfl
  | cons line rest ih => rw [read_cons, Reading.step, ih]

theorem entry_of_not_mem {line : Text} (h : ':' ∉ stripText line) : entry lower line = none := if_pos (.inr h)

theorem readLines_inside (lines : List Text) (context : Dict String) :
    readLines lower lines true context = ((Reading.inside context).read lower lines).context := by
  induction lines generalizing context with
  | nil => rfl
  | cons line rest ih =>
    rw [readLines, read_cons, Reading.step]
    by_cases hheading : isHeading line
    · have hstop : isStop line = false := by simp [isStop, hheading]
      have hentry : entry lower line = none := if_pos (.inl hheading)
      rw [if_pos (show briefHeading.isPrefixOf (stripText line) from hheading), hstop, hentry, ih]
      rfl
    rw [if_neg (show ¬briefHeading.isPrefixOf (stripText line) from hheading)]
    by_cases hstop : isStop line
    · have hbegins : "###".toList.isPrefixOf (stripText line) := (Bool.and_eq_true _ _ ▸ hstop).2
      simp only [Bool.not_true, Bool.false_eq_true, if_false, hbegins, if_true, hstop, read_done]
      rfl
    have hbegins : ¬"###".toList.isPrefixOf (stripText line) := fun h =>
      hstop (by simp only [isStop, hheading, h, Bool.not_false, Bool.and_self])
    simp only [Bool.not_true, Bool.false_eq_true, if_false, hbegins, hstop]
    by_cases hcolon : ':' ∈ stripText line
    · rw [if_neg (by
        rintro (hnil | hnot)
        · rw [hnil] at hcolon
          cases hcolon
        · exact hnot hcolon)]
      unfold entry
      simp only [hheading, hcolon, not_true_eq_false, Bool.false_eq_true, or_self, if_false]
      by_cases hkey : normalizeKey lower (partitionColon (stripText line)).1 = ""
      · simp only [hkey, ne_eq, not_true_eq_false, if_false, if_true, ih]
        rfl
      · simp only [hkey, ne_eq, not_false_eq_true, if_false, if_true, ih]
        rfl
    · rw [if_pos (.inr hcolon), entry_of_not_mem hcolon, ih]
      rfl

theorem readLines_before (lines : List Text) :
    readLines lower lines false [] = (Reading.before.read lower lines).context := by
  induction lines with
  | nil => rfl
  | cons line rest ih =>
    rw [readLines, read_cons, Reading.step]
    by_cases hheading : isHeading line
    · rw [if_pos (show briefHeading.isPrefixOf (stripText line) from hheading), if_pos hheading, readLines_inside]
    · rw [if_neg (show ¬briefHeading.isPrefixOf (stripText line) from hheading), if_neg hheading, ← ih]
      rfl

theorem step_of_isBlank {line : Text} (h : isBlank line) : reading.step lower line = reading := by
  have hstrip := stripText_of_isBlank h
  have hheading : isHeading line = false := by
    rw [isHeading, hstrip]
    rfl
  have hstop : isStop line = false := by
    rw [isStop, hstrip]
    simp
  have hentry : entry lower line = none := entry_of_not_mem (by simp [hstrip])
  cases reading <;> simp [Reading.step, hheading, hstop, hentry]

theorem read_of_forall_isBlank (h : ∀ line ∈ lines, isBlank line) : reading.read lower lines = reading := by
  induction lines with
  | nil => rfl
  | cons line rest ih =>
    obtain ⟨hline, hrest⟩ := List.forall_mem_cons.mp h
    rw [read_cons, step_of_isBlank hline, ih hrest]

theorem read_filter (lines : List Text) :
    reading.read lower (lines.filter (!isBlank ·)) = reading.read lower lines := by
  induction lines generalizing reading with
  | nil => rfl
  | cons line rest ih =>
    by_cases hline : isBlank line
    · rw [List.filter_cons_of_neg (by simpa using hline), ih, read_cons, step_of_isBlank hline]
    · rw [List.filter_cons_of_pos (by simpa using hline), read_cons, read_cons, ih]

/-- The reader sees the pieces of the prompt. -/
theorem parseBrief_eq (prompt : Text) :
    parseBrief lower prompt = (Reading.before.read lower (pieces prompt)).context := by
  rw [parseBrief, readLines_before, ← read_filter, filter_splitlines, read_filter]

end

/-! ## The line of a field -/

/-- A key that reads back as it is rendered. -/
structure PlainKey (lower : String → String) (key : String) : Prop where
  colon : ':' ∉ key.toList
  lineBreak : ∀ c ∈ key.toList, isLineBreak c = false
  normalized : normalizeKey lower ("- ".toList ++ key.toList) = key
  nonempty : key ≠ ""

/-- `value.rstrip()` has no line break. -/
def OneLine (value : Text) : Prop := ∀ c ∈ rstrip value, isLineBreak c = false

instance (value : Text) : Decidable (OneLine value) := inferInstanceAs (Decidable (∀ c ∈ _, _))

section
variable {lower : String → String} {key : String} {value : Text}

theorem stripText_fieldLine (key : String) (value : Text) :
    stripText (fieldLine key value) = "- ".toList ++ key.toList ++ [':'] ++ rstrip (' ' :: value) := by
  have hline : fieldLine key value = ("- ".toList ++ key.toList ++ [':']) ++ ' ' :: value := by simp [fieldLine]
  have hhead : stripText (fieldLine key value) = rstrip (fieldLine key value) :=
    stripText_of_head (show isSpace '-' = false by decide) _
  rw [hhead, hline]
  by_cases hblank : isBlank (' ' :: value)
  · rw [rstrip_append_of_isBlank hblank, rstrip_of_isBlank hblank, List.append_nil]
    exact List.rdropWhile_concat_neg _ _ _ (by decide)
  · rw [rstrip_append_of_not_isBlank hblank]

theorem isHeading_fieldLine (key : String) (value : Text) : isHeading (fieldLine key value) = false := by
  rw [isHeading, stripText_fieldLine]
  rfl

theorem isStop_fieldLine (key : String) (value : Text) : isStop (fieldLine key value) = false := by
  rw [isStop, stripText_fieldLine]
  exact Bool.and_false _

theorem entry_fieldLine (h : PlainKey lower key) (value : Text) :
    entry lower (fieldLine key value) = some (key, .ofList (stripText value)) := by
  have hkey : ∀ c ∈ "- ".toList ++ key.toList, (c ≠ ':' : Bool) := by
    intro c hc
    rw [decide_eq_true_eq]
    rintro rfl
    rcases List.mem_append.mp hc with hc | hc
    · exact absurd hc (by decide)
    · exact h.colon hc
  have hparts : partitionColon (stripText (fieldLine key value)) =
      ("- ".toList ++ key.toList, rstrip (' ' :: value)) := by
    rw [stripText_fieldLine, partitionColon, List.append_assoc, List.takeWhile_append_of_pos hkey,
      List.dropWhile_append_of_pos hkey]
    simp
  unfold entry
  rw [if_neg, hparts]
  · simp only [h.normalized, h.nonempty, if_false, stripText_rstrip, stripText_cons (show isSpace ' ' by decide)]
  · rw [isHeading_fieldLine, stripText_fieldLine]
    simp

theorem pieces_fieldLine (h : PlainKey lower key) (value : Text) :
    ∃ first rest, pieces value = first :: rest ∧ pieces (fieldLine key value) = fieldLine key first :: rest := by
  obtain ⟨first, rest, hvalue⟩ := List.exists_cons_of_ne_nil (pieces_ne_nil value)
  refine ⟨first, rest, hvalue, ?_⟩
  rw [fieldLine, pieces_append, hvalue]
  · rfl
  · have hdash : ∀ c ∈ "- ".toList, isLineBreak c = false := by decide
    have hcolon : ∀ c ∈ ": ".toList, isLineBreak c = false := by decide
    intro c hc
    simp only [List.mem_append] at hc
    rcases hc with (hc | hc) | hc
    · exact hdash c hc
    · exact h.lineBreak c hc
    · exact hcolon c hc

/-- A text is blank when its pieces are. -/
theorem isBlank_iff_pieces (text : Text) : isBlank text ↔ ∀ piece ∈ pieces text, isBlank piece := by
  constructor
  · exact fun h piece hpiece => isBlank_iff.mpr fun c hc => isBlank_iff.mp h c ((infix_of_mem_pieces hpiece).subset hc)
  · induction text with
    | nil => exact fun _ => rfl
    | cons c rest ih =>
      obtain ⟨first, more, hrest⟩ := List.exists_cons_of_ne_nil (pieces_ne_nil rest)
      rw [pieces_cons]
      intro h
      split at h
      next hbreak =>
        refine isBlank_iff.mpr (List.forall_mem_cons.mpr ⟨isSpace_of_isLineBreak hbreak, isBlank_iff.mp (ih ?_)⟩)
        exact fun piece hpiece => h piece (List.mem_cons_of_mem _ hpiece)
      next =>
        rw [hrest, List.modifyHead_cons, List.forall_mem_cons, isBlank_iff, List.forall_mem_cons] at h
        refine isBlank_iff.mpr (List.forall_mem_cons.mpr ⟨h.1.1, isBlank_iff.mp (ih ?_)⟩)
        rw [hrest, List.forall_mem_cons, isBlank_iff]
        exact ⟨h.1.2, h.2⟩

/-- What follows the first piece is blank when the later pieces are. -/
theorem exists_append_of_pieces {first : Text} {rest : List Text} (h : pieces value = first :: rest) :
    ∃ after, value = first ++ after ∧ (isBlank after ↔ ∀ piece ∈ rest, isBlank piece) ∧
      (∀ c ∈ first, isLineBreak c = false) ∧ ∀ c ∈ after.head?, isLineBreak c := by
  rcases pieces_cases value with ⟨hvalue, hall⟩ | ⟨first', c, after, rfl, hc, hfirst, hvalue⟩
  · rw [hvalue] at h
    obtain ⟨rfl, rfl⟩ := List.cons.inj h
    exact ⟨[], (List.append_nil _).symm, by simp [isBlank], hall, by simp⟩
  · rw [hvalue] at h
    obtain ⟨rfl, rfl⟩ := List.cons.inj h
    refine ⟨c :: after, rfl, ?_, hfirst, by simpa using hc⟩
    rw [← isBlank_iff_pieces, isBlank_iff, isBlank_iff, List.forall_mem_cons]
    exact and_iff_right (isSpace_of_isLineBreak hc)

/-- A value is one line when nothing shows after its first line break. -/
theorem oneLine_iff {first : Text} {rest : List Text} (h : pieces value = first :: rest) :
    OneLine value ↔ ∀ piece ∈ rest, isBlank piece := by
  obtain ⟨after, rfl, hafter, hfirst, hhead⟩ := exists_append_of_pieces h
  rw [← hafter]
  unfold OneLine
  by_cases hblank : isBlank after
  · rw [rstrip_append_of_isBlank hblank]
    exact ⟨fun _ => hblank, fun _ c hc => hfirst c ((List.rdropWhile_prefix ..).subset hc)⟩
  · refine ⟨fun hone => ?_, fun h => absurd h hblank⟩
    cases after with
    | nil => rfl
    | cons c after =>
      have hc : isLineBreak c := hhead c rfl
      have hblank : ¬isBlank after := fun h =>
        hblank (isBlank_iff.mpr (List.forall_mem_cons.mpr ⟨isSpace_of_isLineBreak hc, isBlank_iff.mp h⟩))
      rw [← List.singleton_append, ← List.append_assoc, rstrip_append_of_not_isBlank hblank] at hone
      have hmem := hone c (by simp)
      rw [hc] at hmem
      cases hmem

theorem stripText_first {first : Text} {rest : List Text} (h : pieces value = first :: rest) (hone : OneLine value) :
    stripText first = stripText value := by
  have hrest := (oneLine_iff h).mp hone
  obtain ⟨after, rfl, hafter, -⟩ := exists_append_of_pieces h
  rw [stripText_append_of_isBlank (hafter.mpr hrest)]

/-- How much of a text shows. -/
def weight (text : Text) : ℕ := (visible text).length

@[simp] theorem weight_stripText (text : Text) : weight (stripText text) = weight text := by
  rw [weight, visible_stripText]
  rfl

theorem weight_append (before after : Text) : weight (before ++ after) = weight before + weight after := by
  simp [weight]

theorem weight_pos {text : Text} : 0 < weight text ↔ ¬isBlank text := by
  rw [← visible_eq_nil, weight, List.length_pos_iff]

theorem weight_piece_le {piece : Text} (h : piece ∈ pieces value) : weight piece ≤ weight value := by
  obtain ⟨before, after, rfl⟩ := infix_of_mem_pieces h
  rw [weight_append, weight_append]
  omega

/-- The first piece of a value of several lines shows less than the value. -/
theorem weight_first {first : Text} {rest : List Text} (h : pieces value = first :: rest) (hmany : ¬OneLine value) :
    weight first < weight value := by
  rw [oneLine_iff h] at hmany
  obtain ⟨after, rfl, hafter, -⟩ := exists_append_of_pieces h
  have hpos := weight_pos.mpr (mt hafter.mp hmany)
  rw [weight_append]
  omega

/-- The value that a line sets shows less than the line. -/
theorem weight_entry {line : Text} {name text : String} (h : entry lower line = some (name, text)) :
    weight text.toList < weight line := by
  unfold entry at h
  split at h
  · cases h
  next hcolon =>
    dsimp only at h
    split at h
    · cases h
    obtain ⟨-, rfl⟩ := Prod.mk.inj (Option.some.inj h)
    rw [not_or, not_not] at hcolon
    rw [String.toList_ofList, weight_stripText, ← weight_stripText line]
    have hsplit := List.takeWhile_append_dropWhile (p := (· ≠ ':')) (l := stripText line)
    have hhead := List.head?_dropWhile_not (· ≠ ':') (stripText line)
    conv_rhs => rw [← hsplit, weight_append]
    unfold partitionColon
    cases hdrop : (stripText line).dropWhile (· ≠ ':') with
    | nil => exact absurd (List.dropWhile_eq_nil_iff.mp hdrop _ hcolon.2) (by simp)
    | cons c rest =>
      rw [hdrop] at hhead
      obtain rfl : c = ':' := by simpa using hhead
      have hcons : weight (':' :: rest) = weight rest + 1 := rfl
      rw [hcons]
      change weight rest < _
      omega

end

/-! ## What a brief reads back as -/

/-- The lines that the fields become. -/
def fieldLines (fields : List (String × Text)) : List Text :=
  fields.flatMap fun field => pieces (fieldLine field.1 field.2)

/-- What the reader should return. -/
def stripped (fields : List (String × Text)) : Dict String :=
  fields.map fun field => (field.1, .ofList (stripText field.2))

section
variable {lower : String → String} {fields : List (String × Text)} {context : Dict String}

theorem pieces_brief (fields : List (String × Text)) : pieces (brief fields) = briefHeading :: fieldLines fields := by
  rw [brief, pieces_joinLines (List.cons_ne_nil _ _), List.flatMap_cons, pieces_of_forall (by decide),
    List.flatMap_map]
  rfl

theorem step_fieldLine {key : String} (h : PlainKey lower key) (value : Text) :
    (Reading.inside context).step lower (fieldLine key value) =
      .inside (context.set key (.ofList (stripText value))) := by
  rw [Reading.step, isStop_fieldLine, entry_fieldLine h]
  rfl

/-- A field of one line is read as it is. -/
theorem read_of_oneLine {key : String} {value : Text} (h : PlainKey lower key) (hvalue : OneLine value) :
    (Reading.inside context).read lower (pieces (fieldLine key value)) =
      .inside (context.set key (.ofList (stripText value))) := by
  obtain ⟨first, rest, hpieces, hline⟩ := pieces_fieldLine h value
  rw [hline, read_cons, step_fieldLine h, read_of_forall_isBlank ((oneLine_iff hpieces).mp hvalue),
    stripText_first hpieces hvalue]

/-- Fields of one line are read as they are. -/
theorem read_fieldLines (hkeys : ∀ field ∈ fields, PlainKey lower field.1) (hone : ∀ field ∈ fields, OneLine field.2) :
    (Reading.inside context).read lower (fieldLines fields) =
      .inside ((stripped fields).foldl (fun context entry => context.set entry.1 entry.2) context) := by
  induction fields generalizing context with
  | nil => rfl
  | cons field rest ih =>
    obtain ⟨hkey, hkeys⟩ := List.forall_mem_cons.mp hkeys
    obtain ⟨hfield, hone⟩ := List.forall_mem_cons.mp hone
    rw [fieldLines, List.flatMap_cons, read_append, read_of_oneLine hkey hfield]
    exact ih hkeys hone

/-- Setting distinct keys one after the other. -/
theorem get?_foldl_set {entries : Dict String} (h : (entries.map Prod.fst).Nodup) (key : String) :
    (entries.foldl (fun context entry => context.set entry.1 entry.2) context).get? key =
      (entries.get? key).or (context.get? key) := by
  induction entries generalizing context with
  | nil => rfl
  | cons entry rest ih =>
    obtain ⟨hentry, hrest⟩ := List.nodup_cons.mp h
    rw [List.foldl_cons, ih hrest, Dict.get?_set]
    by_cases hkey : entry.1 = key
    · subst hkey
      rw [Dict.get?_eq_none_of_notMem hentry, if_pos rfl]
      simp [Dict.get?]
    · rw [if_neg hkey]
      simp [Dict.get?, hkey]

/-- What a reading comes to, where the lines before it do not end the brief: a key that gets a
value it did not have gets it from a line. -/
theorem exists_entry {lines : List Text} {key : String} {value : String}
    (hread : ((Reading.inside context).read lower lines).context.get? key = some value)
    (hnot : context.get? key ≠ some value) :
    ∃ before line after, lines = before ++ line :: after ∧ (∀ line ∈ before, isStop line = false) ∧
      entry lower line = some (key, value) := by
  induction lines generalizing context with
  | nil => exact absurd hread hnot
  | cons line rest ih =>
    rw [read_cons, Reading.step] at hread
    by_cases hstop : isStop line
    · rw [if_pos hstop, read_done] at hread
      exact absurd hread hnot
    rw [if_neg hstop] at hread
    by_cases hentry : entry lower line = some (key, value)
    · exact ⟨[], line, rest, rfl, fun _ h => absurd h List.not_mem_nil, hentry⟩
    have hnext : ∃ context', (entry lower line).elim (Reading.inside context)
        (fun entry => .inside (context.set entry.1 entry.2)) = .inside context' ∧ context'.get? key ≠ some value := by
      cases hline : entry lower line with
      | none => exact ⟨context, rfl, hnot⟩
      | some entry =>
        refine ⟨_, rfl, ?_⟩
        rw [Dict.get?_set]
        split
        next hkey =>
          rintro hvalue
          exact hentry (by rw [hline, ← hkey, ← Option.some.inj hvalue])
        next => exact hnot
    obtain ⟨context', hcontext, hnot'⟩ := hnext
    rw [hcontext] at hread
    obtain ⟨before, line', after, rfl, hbefore, hline'⟩ := ih hread hnot'
    refine ⟨line :: before, line', after, rfl, List.forall_mem_cons.mpr ⟨?_, hbefore⟩, hline'⟩
    simpa using hstop

/-- An element of a list of lists joined stands in one of the lists. -/
theorem flatMap_eq_append_cons {α β : Type} {f : α → List β} {items : List α} {before after : List β} {b : β}
    (h : items.flatMap f = before ++ b :: after) :
    ∃ prev item next start stop, items = prev ++ item :: next ∧ f item = start ++ b :: stop ∧
      before = prev.flatMap f ++ start := by
  induction items generalizing before with
  | nil => simp at h
  | cons item rest ih =>
    rw [List.flatMap_cons] at h
    rcases List.append_eq_append_iff.mp h with ⟨start, hbefore, hrest⟩ | ⟨stop, hitem, hrest⟩
    · obtain ⟨prev, item', next, start', stop, rfl, hitem', rfl⟩ := ih hrest
      refine ⟨item :: prev, item', next, start', stop, rfl, hitem', ?_⟩
      rw [hbefore, List.flatMap_cons, List.append_assoc]
    · cases stop with
      | nil =>
        obtain ⟨prev, item', next, start', stop, rfl, hitem', hstart⟩ := @ih [] hrest.symm
        refine ⟨item :: prev, item', next, start', stop, rfl, hitem', ?_⟩
        rw [List.append_nil] at hitem
        rw [List.flatMap_cons, List.append_assoc, ← hstart, List.append_nil, hitem]
      | cons b' stop =>
        obtain ⟨rfl, -⟩ := List.cons.inj hrest
        exact ⟨[], item, rest, before, stop, rfl, hitem, rfl⟩

theorem read_of_not_stop {lines : List Text} (h : ∀ line ∈ lines, isStop line = false) :
    ∃ context', (Reading.inside context).read lower lines = .inside context' := by
  induction lines generalizing context with
  | nil => exact ⟨context, rfl⟩
  | cons line rest ih =>
    obtain ⟨hline, hrest⟩ := List.forall_mem_cons.mp h
    rw [read_cons, Reading.step, hline]
    cases entry lower line with
    | none => exact ih hrest
    | some entry => exact ih hrest

/-- The reader gets as far as the line of the field. -/
def Reached (fields : List (String × Text)) (field : String × Text) : Prop :=
  ∃ before after, fields = before ++ field :: after ∧ ∀ line ∈ fieldLines before, isStop line = false

/-- When the brief reads back as it should, the value that a field of several lines gets stands in
a later line of a field that shows more. -/
theorem exists_longer (hkeys : ∀ field ∈ fields, PlainKey lower field.1) (hdistinct : (fields.map Prod.fst).Nodup)
    (hread : ∀ field ∈ fields, ((Reading.inside context).read lower (fieldLines fields)).context.get? field.1 =
      some (.ofList (stripText field.2)))
    {field : String × Text} (hfield : Reached fields field) (hmany : ¬OneLine field.2) :
    ∃ longer, Reached fields longer ∧ ¬OneLine longer.2 ∧ weight field.2 < weight longer.2 := by
  obtain ⟨before, after, rfl, hbefore⟩ := hfield
  obtain ⟨key, value⟩ := field
  have hmem : (key, value) ∈ before ++ (key, value) :: after := by simp
  have hkey : PlainKey lower key := hkeys _ hmem
  obtain ⟨first, rest, hvalue, hline⟩ := pieces_fieldLine hkey value
  have hlines : fieldLines ((key, value) :: after) = fieldLine key first :: (rest ++ fieldLines after) := by
    rw [fieldLines, List.flatMap_cons, hline]
    rfl
  -- the line of the field itself sets less than the value
  obtain ⟨context', hcontext⟩ := @read_of_not_stop lower context _ hbefore
  have hread := hread _ hmem
  have happend : fieldLines (before ++ (key, value) :: after) =
      fieldLines before ++ fieldLines ((key, value) :: after) :=
    List.flatMap_append
  rw [happend, read_append, hcontext, hlines, read_cons, step_fieldLine hkey] at hread
  have hless := weight_first hvalue hmany
  have hnot : (context'.set key (.ofList (stripText first))).get? key ≠ some (.ofList (stripText value)) := by
    rw [Dict.get?_set, if_pos rfl]
    intro hsame
    have hsame := congrArg (fun text => weight text.toList) (Option.some.inj hsame)
    simp only [String.toList_ofList, weight_stripText] at hsame
    omega
  obtain ⟨between, line, stop, hsplit, hbetween, hentry⟩ := exists_entry hread hnot
  have hweight := weight_entry hentry
  rw [String.toList_ofList, weight_stripText] at hweight
  -- so a later line does, and it is not the line of another field
  have hwhole : fieldLines ((key, value) :: after) = (fieldLine key first :: between) ++ line :: stop := by
    rw [hlines, hsplit]
    rfl
  obtain ⟨prev, ⟨key', value'⟩, next, start, stop', hafter, hstart, hprev⟩ := flatMap_eq_append_cons hwhole
  have hmem' : (key', value') ∈ before ++ (key, value) :: after := by simp [hafter]
  have hkey' : PlainKey lower key' := hkeys _ hmem'
  obtain ⟨first', rest', hvalue', hline'⟩ := pieces_fieldLine hkey' value'
  dsimp only at hstart
  rw [hline'] at hstart
  have hreached : Reached (before ++ (key, value) :: after) (key', value') := by
    refine ⟨before ++ prev, next, by rw [hafter, List.append_assoc], fun line hmem => ?_⟩
    have hlines : line ∈ fieldLines before ++ fieldLines prev := by
      rwa [fieldLines, List.flatMap_append] at hmem
    rcases List.mem_append.mp hlines with hmem | hmem
    · exact hbefore line hmem
    · have hmem : line ∈ fieldLine key first :: between := by
        rw [hprev]
        exact List.mem_append_left _ hmem
      rcases List.mem_cons.mp hmem with rfl | hmem
      · exact isStop_fieldLine key first
      · exact hbetween line hmem
  refine ⟨_, hreached, ?_⟩
  have hline_mem : line ∈ rest' := by
    cases start with
    | cons _ start =>
      have htail := (List.cons.inj hstart).2
      rw [htail]
      simp
    | nil =>
      have hhead := (List.cons.inj hstart).1
      rw [← hhead, entry_fieldLine hkey'] at hentry
      obtain rfl : key' = key := (Prod.mk.inj (Option.some.inj hentry)).1
      cases prev with
      | nil => cases hprev
      | cons _ prev =>
        obtain ⟨-, rfl⟩ := List.cons.inj hafter
        rw [List.map_append, List.map_cons, List.nodup_append] at hdistinct
        exact absurd (by simp) (List.nodup_cons.mp hdistinct.2.1).1
  have hweight' : weight line ≤ weight value' := weight_piece_le (hvalue' ▸ List.mem_cons_of_mem _ hline_mem)
  refine ⟨fun hone => ?_, hweight.trans_le hweight'⟩
  have hblank := (oneLine_iff hvalue').mp hone line hline_mem
  exact weight_pos.mp (by omega) hblank

/-- A brief that reads back as it should has fields of one line. -/
theorem oneLine_of_read (hkeys : ∀ field ∈ fields, PlainKey lower field.1) (hdistinct : (fields.map Prod.fst).Nodup)
    (hread : ∀ field ∈ fields, ((Reading.inside context).read lower (fieldLines fields)).context.get? field.1 =
      some (.ofList (stripText field.2))) :
    ∀ field ∈ fields, OneLine field.2 := by
  by_contra hmany
  push Not at hmany
  obtain ⟨field, hmem, hmany⟩ := hmany
  -- the first such field is reached
  obtain ⟨first, hfind⟩ := Option.isSome_iff_exists.mp
    ((List.find?_isSome (p := fun field : String × Text => !decide (OneLine field.2))).mpr
      ⟨field, hmem, by simpa using hmany⟩)
  obtain ⟨hfirst, before, after, hfields, hbefore⟩ := List.find?_eq_some_iff_append.mp hfind
  have hreached : Reached fields first := by
    refine ⟨before, after, hfields, fun line hline => ?_⟩
    obtain ⟨⟨key, value⟩, hfield, hline⟩ := List.mem_flatMap.mp hline
    have hkey : PlainKey lower key := hkeys (key, value) (by rw [hfields]; simp [hfield])
    have hone : OneLine value := by simpa using hbefore _ hfield
    obtain ⟨head, rest, hvalue, hlines⟩ := pieces_fieldLine hkey value
    rw [hlines, List.mem_cons] at hline
    rcases hline with rfl | hline
    · exact isStop_fieldLine key head
    · have hblank := (oneLine_iff hvalue).mp hone line hline
      rw [isStop, stripText_of_isBlank hblank]
      simp
  -- among those reached, one shows the most
  classical
  let many := fields.toFinset.filter fun field => Reached fields field ∧ ¬OneLine field.2
  have hmem_of {field} (h : Reached fields field) : field ∈ fields := by
    obtain ⟨before, after, rfl, -⟩ := h
    simp
  have hnonempty : many.Nonempty := by
    refine ⟨first, ?_⟩
    simp only [many, Finset.mem_filter, List.mem_toFinset]
    exact ⟨hmem_of hreached, hreached, by simpa using hfirst⟩
  obtain ⟨longest, hlongest, hmax⟩ := many.exists_max_image (fun field => weight field.2) hnonempty
  obtain ⟨-, hlongest, hmany⟩ := Finset.mem_filter.mp hlongest
  obtain ⟨longer, hlonger, hmany', hlt⟩ := exists_longer hkeys hdistinct hread hlongest hmany
  have hle := hmax longer (Finset.mem_filter.mpr ⟨List.mem_toFinset.mpr (hmem_of hlonger), hlonger, hmany'⟩)
  omega

theorem mem_of_mem_stripText {text : Text} {c : Char} (h : c ∈ stripText text) : c ∈ text :=
  (List.dropWhile_suffix _).subset ((List.rdropWhile_prefix ..).subset h)

theorem mem_of_entry {line : Text} {name text : String} {c : Char} (h : entry lower line = some (name, text))
    (hc : c ∈ text.toList) : c ∈ line := by
  unfold entry at h
  split at h
  · cases h
  · dsimp only at h
    split at h
    · cases h
    obtain ⟨-, rfl⟩ := Prod.mk.inj (Option.some.inj h)
    rw [String.toList_ofList] at hc
    exact mem_of_mem_stripText ((List.dropWhile_suffix _).subset (List.mem_of_mem_drop (mem_of_mem_stripText hc)))

/-- What is read from lines has no line break in it. -/
theorem not_isLineBreak_of_read {reading : Reading} {lines : List Text}
    (hlines : ∀ line ∈ lines, ∀ c ∈ line, isLineBreak c = false)
    (hreading : ∀ key value, reading.context.get? key = some value → ∀ c ∈ value.toList, isLineBreak c = false) :
    ∀ key value, (reading.read lower lines).context.get? key = some value →
      ∀ c ∈ value.toList, isLineBreak c = false := by
  induction lines generalizing reading with
  | nil => exact hreading
  | cons line rest ih =>
    obtain ⟨hline, hrest⟩ := List.forall_mem_cons.mp hlines
    refine ih hrest ?_
    cases reading with
    | before =>
      rw [Reading.step]
      split <;> exact fun key value h => hreading key value h
    | done context => exact hreading
    | inside context =>
      rw [Reading.step]
      split
      · exact hreading
      · cases hentry : entry lower line with
        | none => exact hreading
        | some pair =>
          intro key value h c hc
          rw [Option.elim_some, Reading.context, Dict.get?_set] at h
          split at h
          · obtain rfl := Option.some.inj h
            exact hline c (mem_of_entry hentry hc)
          · exact hreading key value h c hc

/-- What has been read above a brief allows the brief to be read as it should. -/
def Allows (fields : List (String × Text)) : Reading → Prop
  | .before => ∀ field ∈ fields, OneLine field.2
  | .inside context =>
    (∀ field ∈ fields, OneLine field.2) ∧ ∀ key, (context.get? key).isSome → key ∈ fields.map Prod.fst
  | .done context => ∀ key, context.get? key = (stripped fields).get? key

theorem names_stripped (fields : List (String × Text)) : (stripped fields).map Prod.fst = fields.map Prod.fst := by
  simp [stripped]

theorem read_inside_iff (hkeys : ∀ field ∈ fields, PlainKey lower field.1) (hdistinct : (fields.map Prod.fst).Nodup) :
    (∀ key, ((Reading.inside context).read lower (fieldLines fields)).context.get? key = (stripped fields).get? key) ↔
      (∀ field ∈ fields, OneLine field.2) ∧ ∀ key, (context.get? key).isSome → key ∈ fields.map Prod.fst := by
  have hstripped : ((stripped fields).map Prod.fst).Nodup := by rwa [names_stripped]
  constructor
  · intro hread
    have hone := oneLine_of_read hkeys hdistinct fun field hfield => by
      rw [hread]
      exact Dict.get?_of_mem hstripped (List.mem_map_of_mem hfield)
    refine ⟨hone, fun key hkey => ?_⟩
    have hkey' := hread key
    rw [read_fieldLines hkeys hone, Reading.context, get?_foldl_set hstripped] at hkey'
    rw [← names_stripped, Dict.mem_names_iff]
    cases hget : (stripped fields).get? key with
    | some _ => rfl
    | none =>
      rw [hget, Option.none_or] at hkey'
      rw [hkey'] at hkey
      cases hkey
  · rintro ⟨hone, hnames⟩ key
    rw [read_fieldLines hkeys hone, Reading.context, get?_foldl_set hstripped]
    cases hget : (stripped fields).get? key with
    | some _ => rfl
    | none =>
      rw [Option.none_or]
      by_contra hsome
      have hmem := hnames key (Option.isSome_iff_ne_none.mpr hsome)
      rw [← names_stripped, Dict.mem_names_iff, hget] at hmem
      cases hmem

/-- Exactly when a prompt reads back as the fields of its brief. -/
theorem parseBrief_iff (hkeys : ∀ field ∈ fields, PlainKey lower field.1) (hdistinct : (fields.map Prod.fst).Nodup)
    (intro : List Text) :
    (∀ key, (parseBrief lower (joinLines (intro ++ [brief fields]))).get? key = (stripped fields).get? key) ↔
      Allows fields (Reading.before.read lower (intro.flatMap pieces)) := by
  have hpieces : pieces (joinLines (intro ++ [brief fields])) =
      intro.flatMap pieces ++ briefHeading :: fieldLines fields := by
    rw [pieces_joinLines (by simp), List.flatMap_append, List.flatMap_singleton, pieces_brief]
  have hheading : isHeading briefHeading := by decide
  have hstop : isStop briefHeading = false := by simp [isStop, hheading]
  have hentry : entry lower briefHeading = none := if_pos (.inl hheading)
  simp only [parseBrief_eq, hpieces, read_append, read_cons]
  cases Reading.before.read lower (intro.flatMap pieces) with
  | before =>
    rw [Reading.step, if_pos hheading, read_inside_iff hkeys hdistinct]
    simp [Allows, Dict.get?]
  | inside context =>
    rw [Reading.step, hstop, hentry]
    exact read_inside_iff hkeys hdistinct
  | done context =>
    simp only [Reading.step, read_done]
    rfl

end

end CreativeStudio.Generators
