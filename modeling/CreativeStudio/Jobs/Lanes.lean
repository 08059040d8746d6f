import CreativeStudio.Jobs.LaneQueue
import CreativeStudio.Story.Stripping
import Mathlib.Data.List.Forall2

/-!
# The lane configuration

A configuration is spelled as a list of names and counts, and each job is given the lane of its kind.
What is accepted is well formed, and every well-formed configuration has a spelling that is read back
as it was.
-/

namespace CreativeStudio.Jobs
open Data Storage Story

/-- What reading a configuration uses of the language. -/
structure LaneLibrary where
  /-- `repr(text)`. -/
  quote : String → String
  /-- `int(text)`, if the text is an integer. -/
  parseInt : String → Option ℤ

/-- `LANE_HEAVY`. -/
def laneHeavy : String := "heavy"

/-- `LANE_LIGHT`. -/
def laneLight : String := "light"

/-- `DEFAULT_JOB_LANES`. -/
def defaultJobLanes : String := "heavy:1,light:1"

/-- `_LIGHT_TASK_TYPE_OVERRIDES`. -/
def lightTaskTypeOverrides : List (String × String) := [("audio", "text-to-speech"), ("video", "assembly")]

/-- `_MEDIA_TYPE_LANES`. -/
def mediaTypeLanes : Dict String :=
  [("image", laneHeavy), ("video", laneHeavy), ("audio", laneHeavy), ("text", laneLight)]

/-- `LaneConfig`: how many workers each lane has. -/
structure LaneConfig where
  concurrency : Dict ℤ
  deriving DecidableEq, Repr

namespace LaneConfig

/-- `lane_names`. -/
def laneNames (lanes : LaneConfig) : List String := lanes.concurrency.map Prod.fst

/-- `is_single_lane`. -/
def isSingleLane (lanes : LaneConfig) : Bool := lanes.concurrency.length == 1

end LaneConfig

/-! ## Reading -/

namespace LaneLibrary
variable (lib : LaneLibrary) (raw : String)

/-- One entry of a list, after the lanes that `seen` has. -/
def parseEntry (seen : Dict ℤ) (segment : Text) : Except Exc (String × ℤ) :=
  let entry := stripText segment
  let shown := lib.quote (.ofList entry)
  let name := String.ofList (stripText (entry.takeWhile (· != ':')))
  let countText := String.ofList (stripText (entry.dropWhile (· != ':')).tail)
  if entry = [] then
    .error (.value (s!"JOB_LANES={lib.quote raw} contains an empty lane entry; expected " ++
      s!"comma-separated name:concurrency pairs such as {lib.quote defaultJobLanes}."))
  else if ':' ∉ entry then
    .error (.value (s!"JOB_LANES entry {shown} is missing ':concurrency' (from " ++
      s!"JOB_LANES={lib.quote raw}); expected a form like 'heavy:1'."))
  else if name = "" then
    .error (.value s!"JOB_LANES entry {shown} has an empty lane name (from JOB_LANES={lib.quote raw}).")
  else if name ∈ seen.map Prod.fst then
    .error (.value s!"JOB_LANES defines lane {lib.quote name} more than once (from JOB_LANES={lib.quote raw}).")
  else match lib.parseInt countText with
    | none => .error (.value (s!"JOB_LANES lane {lib.quote name} has a non-integer concurrency " ++
        s!"{lib.quote countText} (from JOB_LANES={lib.quote raw})."))
    | some count =>
      if count < 1 then .error (.value (s!"JOB_LANES lane {lib.quote name} concurrency must be >= 1; got " ++
        s!"{count} (from JOB_LANES={lib.quote raw})."))
      else .ok (name, count)

/-- The entries of a list, one after the other. -/
def parseEntries : Dict ℤ → List Text → Except Exc (Dict ℤ)
  | seen, [] => .ok seen
  | seen, segment :: rest => do
    let lane ← lib.parseEntry raw seen segment
    parseEntries (seen.set lane.1 lane.2) rest

/-- `parse_job_lanes`, where `environ` is what the environment has for `JOB_LANES`. -/
def parseJobLanes (environ rawValue : Option String) : Except Exc LaneConfig :=
  let raw := rawValue.getD (environ.getD defaultJobLanes)
  let normalized := stripText raw.toList
  if normalized = [] then
    .error (.value s!"JOB_LANES must not be empty; use a lane list such as {lib.quote defaultJobLanes}.")
  else (lib.parseEntries raw [] (normalized.splitOn ',')).map LaneConfig.mk

end LaneLibrary

/-! ## The lane of a job -/

/-- The text of a list of strings. -/
def listText (quote : String → String) (names : List String) : String :=
  "[" ++ ", ".intercalate (names.map quote) ++ "]"

/-- `resolve_lane`. -/
def resolveLane (quote : String → String) (mediaType : String) (taskType : Option String) : Except Exc String :=
  if taskType.any fun task => (mediaType, task) ∈ lightTaskTypeOverrides then .ok laneLight
  else match mediaTypeLanes.get? mediaType with
    | some lane => .ok lane
    | none => .error (.value (s!"No lane mapping for media_type={quote mediaType}; known media types are " ++
        s!"{listText quote (Dict.sortByName mediaTypeLanes |>.map Prod.fst)}."))

/-- `repr(task_type)`. -/
def taskTypeText (quote : String → String) : Option String → String
  | none => "None"
  | some task => quote task

/-- `assign_lane`. -/
def assignLane (quote : String → String) (mediaType : String) (taskType : Option String) (lanes : LaneConfig) :
    Except Exc String :=
  match lanes.laneNames with
  | [only] => .ok only
  | names => do
    let lane ← resolveLane quote mediaType taskType
    if lane ∉ names then
      .error (.value (s!"Lane {quote lane} (resolved for media_type={quote mediaType}, " ++
        s!"task_type={taskTypeText quote taskType}) is not defined in JOB_LANES; configured lanes " ++
        s!"are {listText quote (Dict.sortByName lanes.concurrency |>.map Prod.fst)}."))
    else .ok lane

/-! ## Well-formed configurations -/

/-- A name that can stand in a list of lanes. -/
structure LaneName (name : String) : Prop where
  nonempty : name ≠ ""
  stripped : stripText name.toList = name.toList
  colon : ':' ∉ name.toList
  comma : ',' ∉ name.toList

/-- The lanes are named apart, and each has a worker and a count that can be written. -/
structure LaneConfig.WellFormed (lib : LaneLibrary) (lanes : LaneConfig) : Prop where
  nonempty : lanes.concurrency ≠ []
  nodup : lanes.laneNames.Nodup
  named : ∀ name ∈ lanes.laneNames, LaneName name
  counts : ∀ lane ∈ lanes.concurrency, 1 ≤ lane.2 ∧ lib.parseInt (toString lane.2) = some lane.2

/-- An entry as it is written. -/
def entryText (lane : String × ℤ) : Text := lane.1.toList ++ ':' :: (toString lane.2).toList

/-- A configuration as it is written. -/
def LaneConfig.spell (lanes : LaneConfig) : String :=
  .ofList ([','].intercalate (lanes.concurrency.map entryText))

/-- The text stands for a lane. -/
structure LaneLibrary.Spells (lib : LaneLibrary) (segment : Text) (lane : String × ℤ) : Prop where
  split : ∃ before after, stripText segment = before ++ ':' :: after ∧ ':' ∉ before ∧
    lane.1.toList = stripText before ∧ lib.parseInt (.ofList (stripText after)) = some lane.2
  nonempty : lane.1 ≠ ""
  positive : 1 ≤ lane.2

theorem head?_stripText (text : Text) : ∀ c ∈ (stripText text).head?, isSpace c = false := by
  intro c hc
  obtain ⟨after, hafter⟩ := List.rdropWhile_prefix isSpace (text.dropWhile isSpace)
  have hkept := List.head?_dropWhile_not isSpace text
  rw [← hafter, List.head?_append, show (List.rdropWhile isSpace _).head? = some c from hc] at hkept
  exact hkept

theorem mem_of_mem_stripText {c : Char} {text : Text} (h : c ∈ stripText text) : c ∈ text :=
  (List.dropWhile_suffix isSpace).mem ((List.rdropWhile_prefix isSpace _).mem h)

/-- A text that shows its first and its last character is left as it is. -/
theorem stripText_eq_self {text : Text} (hhead : ∀ c ∈ text.head?, isSpace c = false)
    (hlast : ∀ c ∈ text.getLast?, isSpace c = false) : stripText text = text := by
  have hdrop : text.dropWhile isSpace = text := by
    cases text with
    | nil => rfl
    | cons c rest => exact List.dropWhile_cons_of_neg (by simp [hhead c rfl])
  rw [stripText_eq, hdrop, rstrip, List.rdropWhile_eq_self_iff]
  intro hne
  rw [Bool.not_eq_true]
  exact hlast _ (List.getLast?_eq_some_getLast hne)

theorem stripText_stripText (text : Text) : stripText (stripText text) = stripText text := by
  have hhead : (stripText text).dropWhile isSpace = stripText text := by
    cases hstripped : stripText text with
    | nil => rfl
    | cons c rest =>
      have hc := head?_stripText text c (by rw [hstripped]; rfl)
      exact List.dropWhile_cons_of_neg (by simp [hc])
  rw [stripText_eq, hhead, stripText_eq]
  exact List.rdropWhile_idempotent isSpace _

theorem not_mem_of_mem_splitOn {text segment : Text} {c : Char} (h : segment ∈ text.splitOn c) : c ∉ segment := by
  induction text generalizing segment with
  | nil =>
    rw [List.splitOn_nil, List.mem_singleton] at h
    simp [h]
  | cons first rest ih =>
    rw [List.splitOn_cons_eq_if_modifyHead] at h
    split at h
    · rcases List.mem_cons.mp h with rfl | h
      · exact List.not_mem_nil
      · exact ih h
    next hfirst =>
      obtain ⟨head, tail, hsplit⟩ := List.exists_cons_of_ne_nil (List.splitOn_ne_nil c rest)
      rw [hsplit, List.modifyHead_cons] at h
      rcases List.mem_cons.mp h with rfl | h
      · have hhead := ih (hsplit ▸ List.mem_cons_self)
        intro hmem
        rcases List.mem_cons.mp hmem with rfl | hmem
        · exact hfirst (beq_self_eq_true _)
        · exact hhead hmem
      · exact ih (hsplit ▸ List.mem_cons_of_mem _ h)

/-- A text is what stands before its first colon, and the rest. -/
theorem split_colon {text : Text} (h : ':' ∈ text) :
    text = text.takeWhile (· != ':') ++ ':' :: (text.dropWhile (· != ':')).tail := by
  have hne : text.dropWhile (· != ':') ≠ [] := by
    intro hnil
    have hall := List.dropWhile_eq_nil_iff.mp hnil ':' h
    simp at hall
  obtain ⟨c, rest, hrest⟩ := List.exists_cons_of_ne_nil hne
  have hhead := List.head?_dropWhile_not (· != ':') text
  rw [hrest] at hhead
  have hc : c = ':' := by simpa using hhead
  have hsplit := (List.takeWhile_append_dropWhile (p := (· != ':')) (l := text)).symm
  rw [hrest, hc] at hsplit
  rw [hrest]
  exact hsplit

section
variable {lib : LaneLibrary} {raw : String} {seen : Dict ℤ} {segment : Text} {lane : String × ℤ}

theorem parseEntry_eq_ok_iff :
    lib.parseEntry raw seen segment = .ok lane ↔ lib.Spells segment lane ∧ lane.1 ∉ seen.map Prod.fst := by
  obtain ⟨name, count⟩ := lane
  constructor
  · intro h
    simp only [LaneLibrary.parseEntry] at h
    split at h
    next => cases h
    split at h
    next => cases h
    next hcolon =>
    split at h
    next => cases h
    next hname =>
    split at h
    next => cases h
    next hseen =>
    split at h
    next => cases h
    next parsed hparse =>
    split at h
    next => cases h
    next hpositive =>
    obtain ⟨rfl, rfl⟩ := Prod.mk.inj (Except.ok.inj h)
    have hsplit := split_colon (not_not.mp hcolon)
    have hbefore : ':' ∉ (stripText segment).takeWhile (· != ':') := fun hmem => by
      simpa using List.mem_takeWhile_imp hmem
    refine ⟨⟨⟨_, _, hsplit, hbefore, String.toList_ofList, hparse⟩, hname, not_lt.mp hpositive⟩, hseen⟩
  · rintro ⟨⟨⟨before, after, hsplit, hbefore, hname, hparse⟩, hne, hpositive⟩, hseen⟩
    have hall : ∀ c ∈ before, (c != ':') = true := by
      intro c hc
      rw [bne_iff_ne]
      intro heq
      exact hbefore (heq ▸ hc)
    have htake : (stripText segment).takeWhile (· != ':') = before := by
      rw [hsplit, List.takeWhile_append_of_pos hall]
      simp
    have hdrop : ((stripText segment).dropWhile (· != ':')).tail = after := by
      rw [hsplit, List.dropWhile_append_of_pos hall]
      simp
    have hnonempty : stripText segment ≠ [] := by
      rw [hsplit]
      simp
    have hcolon : ':' ∈ stripText segment := by
      rw [hsplit]
      simp
    have hshown : String.ofList (stripText before) = name := by
      rw [← hname, String.ofList_toList]
    simp only [LaneLibrary.parseEntry, htake, hdrop, hshown, hparse]
    rw [if_neg hnonempty, if_neg (not_not.mpr hcolon), if_neg hne, if_neg hseen, if_neg (not_lt.mpr hpositive)]

/-- The entries are read when each stands for a lane and no lane comes twice. -/
theorem parseEntries_eq_ok_iff {segments : List Text} {d : Dict ℤ} (hseen : (seen.map Prod.fst).Nodup) :
    lib.parseEntries raw seen segments = .ok d ↔
      ∃ lanes, List.Forall₂ lib.Spells segments lanes ∧ d = seen ++ lanes ∧ (d.map Prod.fst).Nodup := by
  induction segments generalizing seen with
  | nil =>
    rw [LaneLibrary.parseEntries, Except.ok.injEq]
    constructor
    · rintro rfl
      exact ⟨[], .nil, (List.append_nil _).symm, hseen⟩
    · rintro ⟨lanes, hlanes, rfl, -⟩
      rw [List.forall₂_nil_left_iff.mp hlanes, List.append_nil]
  | cons segment rest ih =>
    rw [LaneLibrary.parseEntries, bind_eq_ok]
    constructor
    · rintro ⟨lane, hlane, hrest⟩
      obtain ⟨hspells, hnew⟩ := parseEntry_eq_ok_iff.mp hlane
      rw [ih (Dict.nodup_set hseen _ _), Dict.set_of_notMem hnew] at hrest
      obtain ⟨lanes, hlanes, rfl, hnodup⟩ := hrest
      exact ⟨lane :: lanes, .cons hspells hlanes, List.append_cons .. |>.symm, hnodup⟩
    · rintro ⟨lanes, hlanes, rfl, hnodup⟩
      obtain ⟨lane, lanes, hspells, hrest, rfl⟩ := List.forall₂_cons_left_iff.mp hlanes
      have hnew : lane.1 ∉ seen.map Prod.fst := by
        rw [List.map_append, List.nodup_append] at hnodup
        exact fun hmem => hnodup.2.2 _ hmem _ List.mem_cons_self rfl
      refine ⟨lane, parseEntry_eq_ok_iff.mpr ⟨hspells, hnew⟩, ?_⟩
      rw [ih (Dict.nodup_set hseen _ _), Dict.set_of_notMem hnew]
      exact ⟨lanes, hrest, List.append_cons .., hnodup⟩

end

section
variable {lib : LaneLibrary} {lanes : LaneConfig}

theorem parseJobLanes_eq_ok_iff {environ rawValue : Option String} :
    lib.parseJobLanes environ rawValue = .ok lanes ↔
      stripText (rawValue.getD (environ.getD defaultJobLanes)).toList ≠ [] ∧
        List.Forall₂ lib.Spells ((stripText (rawValue.getD (environ.getD defaultJobLanes)).toList).splitOn ',')
          lanes.concurrency ∧ lanes.laneNames.Nodup := by
  simp only [LaneLibrary.parseJobLanes]
  split
  next hempty =>
    constructor
    · intro h
      cases h
    · rintro ⟨hne, -⟩
      exact absurd hempty hne
  next hne =>
    constructor
    · intro h
      obtain ⟨d, hd, rfl⟩ := ok_of_map h
      obtain ⟨read, hread, rfl, hnodup⟩ := (@parseEntries_eq_ok_iff lib _ [] _ _ List.nodup_nil).mp hd
      exact ⟨hne, hread, hnodup⟩
    · rintro ⟨-, hread, hnodup⟩
      rw [(@parseEntries_eq_ok_iff lib _ [] _ _ List.nodup_nil).mpr ⟨_, hread, rfl, hnodup⟩]
      rfl

/-- The name of a lane that an entry without a comma stands for. -/
theorem LaneLibrary.Spells.laneName {segment : Text} {lane : String × ℤ} (h : lib.Spells segment lane)
    (hcomma : ',' ∉ segment) : LaneName lane.1 := by
  obtain ⟨before, after, hsplit, hbefore, hname, -⟩ := h.split
  refine ⟨h.nonempty, ?_, ?_, ?_⟩
  · rw [hname, stripText_stripText]
  · intro hmem
    rw [hname] at hmem
    exact hbefore (mem_of_mem_stripText hmem)
  · intro hmem
    rw [hname] at hmem
    have hentry : ',' ∈ stripText segment := by
      rw [hsplit]
      exact List.mem_append_left _ (mem_of_mem_stripText hmem)
    exact hcomma (mem_of_mem_stripText hentry)

/-- Every lane that is read stands in an entry. -/
theorem exists_spells {text : Text} {d : Dict ℤ} (h : List.Forall₂ lib.Spells (text.splitOn ',') d)
    {lane : String × ℤ} (hlane : lane ∈ d) : ∃ segment, ',' ∉ segment ∧ lib.Spells segment lane := by
  obtain ⟨i, hi, rfl⟩ := List.mem_iff_getElem.mp hlane
  have hlength := h.length_eq
  exact ⟨_, not_mem_of_mem_splitOn (List.getElem_mem (hlength ▸ hi)), h.get (hlength ▸ hi) hi⟩

/-- What is accepted is well formed, where a number that was read can be written and read again. -/
theorem wellFormed_of_parseJobLanes (hint : ∀ text n, lib.parseInt text = some n → lib.parseInt (toString n) = some n)
    {environ rawValue : Option String} (h : lib.parseJobLanes environ rawValue = .ok lanes) :
    lanes.WellFormed lib := by
  obtain ⟨-, hread, hnodup⟩ := parseJobLanes_eq_ok_iff.mp h
  refine ⟨?_, hnodup, ?_, ?_⟩
  · intro hnil
    rw [hnil, List.forall₂_nil_right_iff] at hread
    exact List.splitOn_ne_nil _ _ hread
  · intro name hname
    obtain ⟨lane, hlane, rfl⟩ := List.mem_map.mp hname
    obtain ⟨segment, hcomma, hspells⟩ := exists_spells hread hlane
    exact hspells.laneName hcomma
  · intro lane hlane
    obtain ⟨segment, -, hspells⟩ := exists_spells hread hlane
    obtain ⟨before, after, -, -, -, hparse⟩ := hspells.split
    exact ⟨hspells.positive, hint _ _ hparse⟩

/-- The digits of a count. -/
theorem isDigit_of_mem_toString {count : ℤ} (h : 1 ≤ count) {c : Char} (hc : c ∈ (toString count).toList) :
    c.isDigit = true := by
  obtain ⟨n, rfl⟩ := Int.eq_ofNat_of_zero_le (Int.le_trans Int.one_nonneg h)
  have htext : toString (n : ℤ) = toString n := rfl
  rw [htext] at hc
  exact Nat.isDigit_of_mem_toDigits (b := 10) (by decide) (by decide) (by simpa using hc)

theorem isSpace_of_isDigit {c : Char} (h : c.isDigit = true) : isSpace c = false := by
  have hrange : 48 ≤ c.toNat ∧ c.toNat ≤ 57 := by
    simpa [Char.isDigit, UInt32.le_iff_toNat_le] using h
  simp only [isSpace, Bool.or_eq_false_iff, Bool.and_eq_false_iff, decide_eq_false_iff_not, beq_eq_false_iff_ne]
  omega

theorem toString_ne_nil {count : ℤ} (h : 1 ≤ count) : (toString count).toList ≠ [] := by
  obtain ⟨n, rfl⟩ := Int.eq_ofNat_of_zero_le (Int.le_trans Int.one_nonneg h)
  have htext : toString (n : ℤ) = toString n := rfl
  rw [htext]
  simp [Nat.toDigits_ne_nil]

/-- The text shows its first and its last character. -/
structure Shown (text : Text) : Prop where
  nonempty : text ≠ []
  head : ∀ c ∈ text.head?, isSpace c = false
  last : ∀ c ∈ text.getLast?, isSpace c = false

theorem Shown.append {before after : Text} (hbefore : Shown before) (hafter : Shown after) (between : Text) :
    Shown (before ++ between ++ after) := by
  refine ⟨?_, ?_, ?_⟩
  · simp [hbefore.nonempty]
  · rw [List.append_assoc, List.head?_append_of_ne_nil _ hbefore.nonempty]
    exact hbefore.head
  · rw [List.getLast?_append_of_ne_nil _ hafter.nonempty]
    exact hafter.last

theorem Shown.intercalate {texts : List Text} (hne : texts ≠ []) (h : ∀ text ∈ texts, Shown text) :
    Shown ([','].intercalate texts) := by
  induction texts with
  | nil => exact absurd rfl hne
  | cons first rest ih =>
    have hfirst := h first List.mem_cons_self
    by_cases hrest : rest = []
    · rw [hrest, List.intercalate_singleton]
      exact hfirst
    · rw [List.intercalate_cons_of_ne_nil hrest]
      exact hfirst.append (ih hrest fun text htext => h text (List.mem_cons_of_mem _ htext)) _

theorem shown_entryText {lane : String × ℤ} (hname : LaneName lane.1) (hcount : 1 ≤ lane.2) :
    Shown (entryText lane) := by
  have hdigits : ∀ c ∈ (toString lane.2).toList, isSpace c = false := fun c hc =>
    isSpace_of_isDigit (isDigit_of_mem_toString hcount hc)
  have hbefore : lane.1.toList ≠ [] := fun hnil => hname.nonempty (String.toList_inj.mp hnil)
  refine ⟨?_, ?_, ?_⟩
  · simp [entryText]
  · rw [entryText, List.head?_append_of_ne_nil _ hbefore, ← hname.stripped]
    exact head?_stripText lane.1.toList
  · rw [entryText, List.append_cons, List.getLast?_append_of_ne_nil _ (toString_ne_nil hcount)]
    exact fun c hc => hdigits c (List.mem_of_getLast? hc)

theorem spells_entryText {lane : String × ℤ} (hname : LaneName lane.1) (hcount : 1 ≤ lane.2)
    (hparse : lib.parseInt (toString lane.2) = some lane.2) : lib.Spells (entryText lane) lane := by
  have hshown := shown_entryText hname hcount
  have hdigits : ∀ c ∈ (toString lane.2).toList, isSpace c = false := fun c hc =>
    isSpace_of_isDigit (isDigit_of_mem_toString hcount hc)
  refine ⟨⟨lane.1.toList, (toString lane.2).toList, ?_, hname.colon, hname.stripped.symm, ?_⟩, hname.nonempty, hcount⟩
  · exact stripText_eq_self hshown.head hshown.last
  · have hkept : stripText (toString lane.2).toList = (toString lane.2).toList :=
      stripText_eq_self (fun c hc => hdigits c (List.mem_of_head? hc)) fun c hc => hdigits c (List.mem_of_getLast? hc)
    rw [hkept, String.ofList_toList, hparse]

theorem not_comma_mem_entryText {lane : String × ℤ} (hname : LaneName lane.1) (hcount : 1 ≤ lane.2) :
    ',' ∉ entryText lane := by
  intro hmem
  rcases List.mem_append.mp hmem with hmem | hmem
  · exact hname.comma hmem
  · rcases List.mem_cons.mp hmem with heq | hmem
    · exact absurd heq (by decide)
    · exact absurd (isDigit_of_mem_toString hcount hmem) (by decide)

/-- A well-formed configuration is read back from its spelling. -/
theorem parseJobLanes_spell (h : lanes.WellFormed lib) (environ : Option String) :
    lib.parseJobLanes environ (some lanes.spell) = .ok lanes := by
  have hname : ∀ lane ∈ lanes.concurrency, LaneName lane.1 := fun lane hlane =>
    h.named _ (List.mem_map_of_mem hlane)
  have hshown : Shown ([','].intercalate (lanes.concurrency.map entryText)) := by
    refine Shown.intercalate (by simpa using h.nonempty) fun text htext => ?_
    obtain ⟨lane, hlane, rfl⟩ := List.mem_map.mp htext
    exact shown_entryText (hname lane hlane) (h.counts lane hlane).1
  have hstrip : stripText lanes.spell.toList = [','].intercalate (lanes.concurrency.map entryText) := by
    rw [LaneConfig.spell, String.toList_ofList]
    exact stripText_eq_self hshown.head hshown.last
  have hsplit : ([','].intercalate (lanes.concurrency.map entryText)).splitOn ',' =
      lanes.concurrency.map entryText := by
    refine List.splitOn_intercalate ',' (fun text htext => ?_) (by simpa using h.nonempty)
    obtain ⟨lane, hlane, rfl⟩ := List.mem_map.mp htext
    exact not_comma_mem_entryText (hname lane hlane) (h.counts lane hlane).1
  rw [parseJobLanes_eq_ok_iff, Option.getD_some, hstrip, hsplit]
  refine ⟨hshown.nonempty, ?_, h.nodup⟩
  rw [List.forall₂_map_left_iff, List.forall₂_same]
  intro lane hlane
  exact spells_entryText (hname lane hlane) (h.counts lane hlane).1 (h.counts lane hlane).2

/-- **The lane configuration is a format.** The configurations that some text is accepted for are the
well-formed ones, and each of them is what its own spelling is read as. -/
theorem parseJobLanes_accepts
    (hint : ∀ text n, lib.parseInt text = some n → lib.parseInt (toString n) = some n) (environ : Option String)
    (lanes : LaneConfig) :
    ((∃ rawValue, lib.parseJobLanes environ rawValue = .ok lanes) ↔ lanes.WellFormed lib) ∧
      ∀ rawValue, lib.parseJobLanes environ rawValue = .ok lanes →
        lib.parseJobLanes environ (some lanes.spell) = .ok lanes := by
  refine ⟨⟨?_, ?_⟩, ?_⟩
  · rintro ⟨rawValue, h⟩
    exact wellFormed_of_parseJobLanes hint h
  · intro h
    exact ⟨_, parseJobLanes_spell h environ⟩
  · intro rawValue h
    exact parseJobLanes_spell (wellFormed_of_parseJobLanes hint h) environ

end

/-- Only plain digits are read. -/
def plainLaneLibrary : LaneLibrary where
  quote := id
  parseInt text :=
    if text.toList ≠ [] ∧ ∀ c ∈ text.toList, c.isDigit then some (Nat.ofDigitChars 10 text.toList 0) else none

theorem parseInt_plain {text : String} {n : ℤ} (h : plainLaneLibrary.parseInt text = some n) :
    plainLaneLibrary.parseInt (toString n) = some n := by
  simp only [plainLaneLibrary] at h
  split at h
  next =>
    obtain rfl := Option.some.inj h
    generalize Nat.ofDigitChars 10 text.toList 0 = k
    have htext : toString (k : ℤ) = toString k := rfl
    have hlist : (toString k).toList = Nat.toDigits 10 k := by simp
    have hdigits : ∀ c ∈ Nat.toDigits 10 k, c.isDigit := fun c hc =>
      Nat.isDigit_of_mem_toDigits (b := 10) (by decide) (by decide) hc
    simp only [plainLaneLibrary, htext, hlist, Nat.ofDigitChars_ten_toDigits]
    rw [if_pos ⟨Nat.toDigits_ne_nil, hdigits⟩]
  next => cases h

theorem parseJobLanes_heavyLight :
    plainLaneLibrary.parseJobLanes none (some " heavy : 2 , light : 1 ") = .ok ⟨[("heavy", 2), ("light", 1)]⟩ ∧
      plainLaneLibrary.parseJobLanes none (some "heavy:2,light:1") = .ok ⟨[("heavy", 2), ("light", 1)]⟩ := by
  have hread : plainLaneLibrary.parseJobLanes none (some " heavy : 2 , light : 1 ") =
      .ok ⟨[("heavy", 2), ("light", 1)]⟩ := by decide +kernel
  have haccepts := parseJobLanes_accepts (fun _ _ => parseInt_plain) none ⟨[("heavy", 2), ("light", 1)]⟩
  have hspell : LaneConfig.spell ⟨[("heavy", 2), ("light", 1)]⟩ = "heavy:2,light:1" := by decide +kernel
  have hagain := haccepts.2 _ hread
  rw [hspell] at hagain
  exact ⟨hread, hagain⟩

/-! ## Routing -/

theorem isSingleLane_iff {lanes : LaneConfig} : lanes.isSingleLane ↔ ∃ only, lanes.laneNames = [only] := by
  rw [LaneConfig.isSingleLane, beq_iff_eq, ← List.length_map Prod.fst, List.length_eq_one_iff]
  rfl

/-- A job goes to a lane that the configuration has. -/
theorem assignLane_mem {quote : String → String} {mediaType : String} {taskType : Option String} {lanes : LaneConfig}
    {lane : String} (h : assignLane quote mediaType taskType lanes = .ok lane) : lane ∈ lanes.laneNames := by
  rw [assignLane] at h
  split at h
  next only hnames =>
    rw [hnames, Except.ok.inj h]
    exact List.mem_singleton_self _
  next =>
    obtain ⟨resolved, -, hresolved⟩ := bind_eq_ok.mp h
    split at hresolved
    · cases hresolved
    next hmem =>
      rw [← Except.ok.inj hresolved]
      exact not_not.mp hmem

end CreativeStudio.Jobs
