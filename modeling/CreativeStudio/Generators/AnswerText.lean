import CreativeStudio.Generators.Answer

/-!
# Which answers are recovered

An object comes back from an answer when no fence in its own strings is taken for one around it, and
when the prose around it does not make the whole a JSON document. Otherwise what is read lacks
backticks that the object has, or is no object.
-/

namespace CreativeStudio.Generators
open Data Story

/-! ## The regular expression -/

/-- Two markers with something between them. -/
def Fenced (text : Text) : Prop := ∃ before c group after, text = before ++ fence ++ (c :: group) ++ fence ++ after

theorem beforeFence_eq_some {text group : Text} (h : beforeFence text = some group) :
    ∃ after, text = group ++ fence ++ after := by
  induction text generalizing group with
  | nil => cases h
  | cons c rest ih =>
    rw [beforeFence] at h
    split at h
    next hfence =>
      obtain ⟨after, hafter⟩ := hfence
      exact ⟨after, by rw [← Option.some.inj h, List.nil_append, hafter]⟩
    next =>
      obtain ⟨inner, hinner, rfl⟩ := Option.map_eq_some_iff.mp h
      obtain ⟨after, rfl⟩ := ih hinner
      exact ⟨after, rfl⟩

theorem beforeFence_isSome {text : Text} : (beforeFence text).isSome ↔ fence <:+: text := by
  induction text with
  | nil => exact iff_of_false (by simp [beforeFence]) (by simp [fence])
  | cons c rest ih =>
    rw [beforeFence, List.infix_cons_iff]
    split
    next hfence => exact iff_of_true rfl (.inl hfence)
    next hfence => rw [Option.isSome_map, ih, or_iff_right hfence]

theorem fenceGroup_eq_some {text group : Text} (h : fenceGroup text = some group) :
    ∃ after, text = group ++ fence ++ after := by
  cases text with
  | nil => cases h
  | cons c rest =>
    obtain ⟨inner, hinner, rfl⟩ := Option.map_eq_some_iff.mp h
    obtain ⟨after, rfl⟩ := beforeFence_eq_some hinner
    exact ⟨after, rfl⟩

theorem fenceGroup_isSome {text : Text} : (fenceGroup text).isSome ↔ ∃ c rest, text = c :: rest ∧ fence <:+: rest := by
  cases text with
  | nil => simp [fenceGroup]
  | cons c rest => simp [fenceGroup, beforeFence_isSome]

theorem groupAfterSpaces_eq_some {text group : Text} (h : groupAfterSpaces text = some group) :
    ∃ before after, text = before ++ group ++ fence ++ after := by
  induction text with
  | nil => cases h
  | cons c rest ih =>
    rw [groupAfterSpaces] at h
    split at h
    · rcases Option.or_eq_some_iff.mp h with h | ⟨-, h⟩
      · obtain ⟨before, after, rfl⟩ := ih h
        exact ⟨c :: before, after, rfl⟩
      · obtain ⟨after, hafter⟩ := fenceGroup_eq_some h
        exact ⟨[], after, hafter⟩
    · obtain ⟨after, hafter⟩ := fenceGroup_eq_some h
      exact ⟨[], after, hafter⟩

/-- Giving back all whitespace is the last resort. -/
theorem groupAfterSpaces_isSome {text : Text} : (groupAfterSpaces text).isSome ↔ (fenceGroup text).isSome := by
  induction text with
  | nil => rfl
  | cons c rest ih =>
    rw [groupAfterSpaces]
    split
    · rw [Option.isSome_or, Bool.or_eq_true, ih]
      refine or_iff_right_of_imp ?_
      rw [fenceGroup_isSome, fenceGroup_isSome]
      rintro ⟨d, rest, rfl, hwithin⟩
      exact ⟨c, d :: rest, rfl, hwithin.trans (List.suffix_cons d rest).isInfix⟩
    · rfl

theorem groupAfterFence_eq_some {text group : Text} (h : groupAfterFence text = some group) :
    ∃ before after, text = before ++ group ++ fence ++ after := by
  rcases Option.or_eq_some_iff.mp h with h | ⟨-, h⟩
  · split at h
    next htag =>
      obtain ⟨before, after, hrest⟩ := groupAfterSpaces_eq_some h
      refine ⟨jsonTag ++ before, after, ?_⟩
      rw [← List.prefix_iff_eq_append.mp htag, hrest]
      simp only [List.append_assoc]
    next => cases h
  · exact groupAfterSpaces_eq_some h

theorem groupAfterFence_isSome {text : Text} : (groupAfterFence text).isSome ↔ (fenceGroup text).isSome := by
  rw [groupAfterFence, Option.isSome_or, Bool.or_eq_true, groupAfterSpaces_isSome]
  refine or_iff_right_of_imp ?_
  split
  next htag =>
    rw [groupAfterSpaces_isSome, fenceGroup_isSome, fenceGroup_isSome]
    rintro ⟨c, rest, hdrop, hwithin⟩
    rw [← List.prefix_iff_eq_append.mp htag, hdrop]
    exact ⟨'j', _, rfl, hwithin.trans (List.suffix_append ['s', 'o', 'n', c] rest).isInfix⟩
  next => exact fun h => absurd h (by simp)

theorem searchFence_eq_some {text group : Text} (h : searchFence text = some group) :
    ∃ before between after, text = before ++ fence ++ between ++ group ++ fence ++ after := by
  induction text with
  | nil => cases h
  | cons c rest ih =>
    rw [searchFence] at h
    rcases Option.or_eq_some_iff.mp h with h | ⟨-, h⟩
    · split at h
      next hfence =>
        obtain ⟨between, after, hrest⟩ := groupAfterFence_eq_some h
        refine ⟨[], between, after, ?_⟩
        rw [← List.prefix_iff_eq_append.mp hfence, hrest]
        simp only [List.append_assoc, List.nil_append]
      next => cases h
    · obtain ⟨before, between, after, rfl⟩ := ih h
      exact ⟨c :: before, between, after, rfl⟩

/-- The expression matches just when there are two markers with something between them. -/
theorem searchFence_isSome {text : Text} : (searchFence text).isSome ↔ Fenced text := by
  induction text with
  | nil =>
    refine iff_of_false (by simp [searchFence]) ?_
    rintro ⟨before, c, group, after, h⟩
    have := congrArg List.length h
    simp only [List.length_append, List.length_nil, List.length_cons] at this
    omega
  | cons c rest ih =>
    rw [searchFence, Option.isSome_or, Bool.or_eq_true, ih]
    constructor
    · rintro (h | ⟨before, d, group, after, rfl⟩)
      · split at h
        next hfence =>
          rw [groupAfterFence_isSome, fenceGroup_isSome] at h
          obtain ⟨d, tail, hdrop, group, after, rfl⟩ := h
          refine ⟨[], d, group, after, ?_⟩
          rw [← List.prefix_iff_eq_append.mp hfence, hdrop]
          simp only [List.append_assoc, List.nil_append, List.cons_append]
        next => cases h
      · exact ⟨c :: before, d, group, after, rfl⟩
    · rintro ⟨before, d, group, after, h⟩
      cases before with
      | nil =>
        left
        have hfence : fence <+: c :: rest := ⟨(d :: group) ++ fence ++ after, by simpa using h.symm⟩
        rw [if_pos hfence, groupAfterFence_isSome, fenceGroup_isSome, h]
        exact ⟨d, group ++ fence ++ after, by simp [fence], ⟨group, after, rfl⟩⟩
      | cons e before =>
        right
        exact ⟨before, d, group, after, (List.cons.inj h).2⟩

theorem searchFence_eq_none {text : Text} : searchFence text = none ↔ ¬Fenced text := by
  rw [← searchFence_isSome, Bool.not_eq_true, Option.isSome_eq_false_iff, Option.isNone_iff_eq_none]

/-! ## What surrounds an object -/

/-- A character that a marker does not have keeps what is on its two sides apart. -/
theorem prefix_append_cons_iff {marker : Text} {c : Char} (hc : c ∉ marker) (before after : Text) :
    marker <+: before ++ c :: after ↔ marker <+: before := by
  refine ⟨fun h => ?_, fun h => h.trans (List.prefix_append before _)⟩
  induction marker generalizing before with
  | nil => exact List.nil_prefix
  | cons d marker ih =>
    cases before with
    | nil => exact absurd (List.cons_prefix_cons.mp h).1.symm (List.ne_of_not_mem_cons hc)
    | cons e before =>
      obtain ⟨rfl, hrest⟩ := List.cons_prefix_cons.mp h
      exact List.cons_prefix_cons.mpr ⟨rfl, ih (List.not_mem_of_not_mem_cons hc) before hrest⟩

theorem infix_append_cons_iff {marker : Text} {c : Char} (hc : c ∉ marker) (before after : Text) :
    marker <:+: before ++ c :: after ↔ marker <:+: before ∨ marker <:+: after := by
  induction before with
  | nil =>
    rw [List.nil_append, List.infix_cons_iff, ← List.nil_append (c :: after), prefix_append_cons_iff hc]
    refine or_congr_left ?_
    rw [List.prefix_nil, List.infix_nil]
  | cons d before ih =>
    rw [List.cons_append, List.infix_cons_iff, ih, ← List.cons_append, prefix_append_cons_iff hc, List.infix_cons_iff,
      or_assoc]

theorem drop_append_cons {marker before : Text} (h : marker <+: before) (c : Char) (after : Text) :
    (before ++ c :: after).drop marker.length = before.drop marker.length ++ c :: after :=
  List.drop_append_of_le_length h.length_le

/-- A character that a marker does not have: the first marker is before it or after it. -/
theorem beforeFence_append_cons {c : Char} (hc : c ∉ fence) (before after : Text) :
    beforeFence (before ++ c :: after) =
      (beforeFence before).or ((beforeFence after).map fun group => before ++ c :: group) := by
  induction before with
  | nil =>
    have hfence : ¬fence <+: c :: after := fun h => by
      rw [← List.nil_append (c :: after), prefix_append_cons_iff hc] at h
      exact absurd h (by decide)
    change (if fence <+: c :: after then some [] else (beforeFence after).map (c :: ·)) = _
    rw [if_neg hfence]
    rfl
  | cons d before ih =>
    rw [List.cons_append, beforeFence, beforeFence, ih, ← List.cons_append]
    simp only [prefix_append_cons_iff hc]
    split
    · rfl
    · rw [Option.map_or, Option.map_map]
      rfl

section
variable {after : Text} (hafter : ¬fence <:+: after)
include hafter

theorem beforeFence_append (before : Text) : beforeFence (before ++ '}' :: after) = beforeFence before := by
  have hnone : beforeFence after = none := Option.not_isSome_iff_eq_none.mp (mt beforeFence_isSome.mp hafter)
  rw [beforeFence_append_cons (by decide), hnone, Option.map_none, Option.or_none]

theorem fenceGroup_append (before : Text) : fenceGroup (before ++ '}' :: after) = fenceGroup before := by
  cases before with
  | nil =>
    have hnone : beforeFence after = none := Option.not_isSome_iff_eq_none.mp (mt beforeFence_isSome.mp hafter)
    change (beforeFence after).map _ = none
    rw [hnone]
    rfl
  | cons c before => rw [List.cons_append, fenceGroup, fenceGroup, beforeFence_append hafter]

theorem groupAfterSpaces_append (before : Text) :
    groupAfterSpaces (before ++ '}' :: after) = groupAfterSpaces before := by
  induction before with
  | nil =>
    have hgroup := fenceGroup_append hafter []
    change (if isSpace '}' then _ else fenceGroup ([] ++ '}' :: after)) = none
    rw [if_neg (by decide), hgroup]
    rfl
  | cons c before ih =>
    have hgroup := fenceGroup_append hafter (c :: before)
    rw [List.cons_append] at hgroup
    rw [List.cons_append, groupAfterSpaces, groupAfterSpaces, ih, hgroup]

theorem groupAfterFence_append (before : Text) : groupAfterFence (before ++ '}' :: after) = groupAfterFence before := by
  rw [groupAfterFence, groupAfterFence, groupAfterSpaces_append hafter]
  by_cases htag : jsonTag <+: before
  · rw [if_pos htag, if_pos ((prefix_append_cons_iff (by decide) _ _).mpr htag), drop_append_cons htag,
      groupAfterSpaces_append hafter]
  · rw [if_neg htag, if_neg (mt (prefix_append_cons_iff (by decide) _ _).mp htag)]

theorem searchFence_append (before : Text) : searchFence (before ++ '}' :: after) = searchFence before := by
  induction before with
  | nil =>
    have hnone : searchFence after = none := by
      rw [searchFence_eq_none]
      rintro ⟨start, c, group, rest, rfl⟩
      exact hafter ⟨start, (c :: group) ++ fence ++ rest, by simp only [List.append_assoc]⟩
    have hfence : ¬fence <+: '}' :: after := by simp [fence]
    change (if fence <+: '}' :: after then _ else none).or (searchFence after) = none
    rw [if_neg hfence, hnone]
    rfl
  | cons c before ih =>
    rw [List.cons_append, searchFence, searchFence, ih, ← List.cons_append]
    by_cases hfence : fence <+: c :: before
    · rw [if_pos hfence, if_pos ((prefix_append_cons_iff (by decide) _ _).mpr hfence), drop_append_cons hfence,
        groupAfterFence_append hafter]
    · rw [if_neg hfence, if_neg (mt (prefix_append_cons_iff (by decide) _ _).mp hfence)]

end

/-- What comes before an object has no marker. -/
theorem searchFence_prepend {before : Text} (h : ¬fence <:+: before) (after : Text) :
    searchFence (before ++ '{' :: after) = searchFence after := by
  induction before with
  | nil =>
    rw [List.nil_append, searchFence, if_neg (by simp [fence])]
    rfl
  | cons c before ih =>
    rw [List.infix_cons_iff, not_or] at h
    rw [List.cons_append, searchFence, ih h.2, ← List.cons_append,
      if_neg (mt (prefix_append_cons_iff (by decide) _ _).mp h.1)]
    rfl

/-! ## The scanner -/

/-- The scanner passes over the text at any depth, outside of a string before and after it. -/
def Passes (text : Text) : Prop :=
  ∀ depth : ℤ, 0 < depth → ∀ rest,
    scanFrom depth false false (text ++ rest) = (scanFrom depth false false rest).map (text ++ ·)

/-- The scanner passes over the text within a string. -/
def PassesInString (text : Text) : Prop :=
  ∀ depth rest, scanFrom depth true false (text ++ rest) = (scanFrom depth true false rest).map (text ++ ·)

theorem Passes.append {before after : Text} (h : Passes before) (hafter : Passes after) : Passes (before ++ after) := by
  intro depth hdepth rest
  rw [List.append_assoc, h depth hdepth, hafter depth hdepth, Option.map_map]
  simp only [Function.comp_def, List.append_assoc]

theorem PassesInString.append {before after : Text} (h : PassesInString before) (hafter : PassesInString after) :
    PassesInString (before ++ after) := by
  intro depth rest
  rw [List.append_assoc, h depth, hafter depth, Option.map_map]
  simp only [Function.comp_def, List.append_assoc]

theorem passes_nil : Passes [] := by
  intro depth _ rest
  simp only [List.nil_append, Option.map_id']

theorem passesInString_nil : PassesInString [] := by
  intro depth rest
  simp only [List.nil_append, Option.map_id']

/-- What is neither a quote nor a brace. -/
theorem passes_of_forall {text : Text} (h : ∀ c ∈ text, c ≠ '"' ∧ c ≠ '{' ∧ c ≠ '}') : Passes text := by
  induction text with
  | nil => exact passes_nil
  | cons c text ih =>
    obtain ⟨⟨hquote, hopen, hclose⟩, htext⟩ := List.forall_mem_cons.mp h
    intro depth hdepth rest
    rw [List.cons_append, scanFrom, if_neg (by simp), if_neg hquote, if_neg hopen, if_neg hclose,
      ih htext depth hdepth, Option.map_map]
    rfl

theorem passes_of_isNumeric {text : Text} (h : ∀ c ∈ text, isNumeric c) : Passes text :=
  passes_of_forall fun c hc => ⟨ne_of_isNumeric (h c hc) (by decide), ne_of_isNumeric (h c hc) (by decide),
    ne_of_isNumeric (h c hc) (by decide)⟩

theorem passesInString_of_forall {text : Text} (h : ∀ c ∈ text, c ≠ '\\' ∧ c ≠ '"') : PassesInString text := by
  induction text with
  | nil => exact passesInString_nil
  | cons c text ih =>
    obtain ⟨⟨hslash, hquote⟩, htext⟩ := List.forall_mem_cons.mp h
    intro depth rest
    rw [List.cons_append, scanFrom, if_pos rfl, if_neg (by simp), if_neg hslash, if_neg hquote, ih htext,
      Option.map_map]
    rfl

/-- A backslash and the character after it. -/
theorem passesInString_escape (c : Char) : PassesInString ['\\', c] := by
  intro depth rest
  change scanFrom depth true false ('\\' :: c :: rest) = _
  rw [scanFrom, if_pos rfl, if_neg (by simp), if_pos rfl, scanFrom, if_pos rfl, if_pos rfl, Option.map_map]
  rfl

theorem passesInString_escapeUnicode (n : ℕ) : PassesInString (escapeUnicode n) := by
  rw [escapeUnicode_eq]
  refine (passesInString_escape 'u').append (passesInString_of_forall fun c hc => ?_)
  have hnumeric := isNumeric_of_isAlphanum (isAlphanum_of_mem_hexDigits hc)
  exact ⟨ne_of_isNumeric hnumeric (by decide), ne_of_isNumeric hnumeric (by decide)⟩

theorem passesInString_escapeChar (c : Char) : PassesInString (escapeChar c) := by
  have h := escapeOf_escapeChar c
  generalize escapeChar c = text at h
  cases h with
  | itself hslash hquote => exact passesInString_of_forall (List.forall_mem_singleton.mpr ⟨hslash, hquote⟩)
  | @short e h hc => exact passesInString_escape e
  | units h hc =>
    induction utf16 c.toNat with
    | nil => exact passesInString_nil
    | cons n ns ih =>
      rw [List.flatMap_cons]
      exact (passesInString_escapeUnicode n).append ih

theorem passes_encodeString (s : String) : Passes (encodeString s) := by
  have hbody : PassesInString (s.toList.flatMap escapeChar) := by
    induction s.toList with
    | nil => exact passesInString_nil
    | cons c cs ih =>
      rw [List.flatMap_cons]
      exact (passesInString_escapeChar c).append ih
  intro depth hdepth rest
  change scanFrom depth false false ('"' :: (_ ++ ['"'] ++ rest)) = _
  rw [scanFrom, if_neg (by simp), if_pos rfl, List.append_assoc, hbody]
  change ((scanFrom depth true false ('"' :: rest)).map _).map _ = _
  rw [scanFrom, if_pos rfl, if_neg (by simp), if_neg (by simp), if_pos rfl, Option.map_map, Option.map_map]
  refine congrArg (fun f => Option.map f _) (funext fun found => ?_)
  simp only [Function.comp_def, encodeString, List.cons_append, List.append_assoc, List.nil_append]

/-- The brace that opens, what the scanner passes over, and the brace that closes. -/
theorem scanFrom_braces {body : Text} (h : Passes body) {depth : ℤ} (hdepth : 0 ≤ depth) (rest : Text) :
    scanFrom depth false false ('{' :: (body ++ '}' :: rest)) =
      if depth = 0 then some ('{' :: (body ++ ['}']))
      else (scanFrom depth false false rest).map (('{' :: (body ++ ['}'])) ++ ·) := by
  rw [scanFrom, if_neg (by simp), if_neg (by decide), if_pos rfl, h _ (by omega), scanFrom, if_neg (by simp),
    if_neg (by decide), if_neg (by decide), if_pos rfl, add_sub_cancel_right]
  split
  · rfl
  · rw [Option.map_map, Option.map_map]
    refine congrArg (fun f => Option.map f _) (funext fun found => ?_)
    simp only [Function.comp_def, List.cons_append, List.append_assoc, List.nil_append]

section
variable (floats : FloatText)

theorem passes_separator : ∀ c ∈ [',', ' '], c ≠ '"' ∧ c ≠ '{' ∧ c ≠ '}' := by decide

theorem passes_colon : ∀ c ∈ [':', ' '], c ≠ '"' ∧ c ≠ '{' ∧ c ≠ '}' := by decide

theorem passes_brackets : ∀ c ∈ ['[', ']'], c ≠ '"' ∧ c ≠ '{' ∧ c ≠ '}' := by decide

theorem isNumeric_null : ∀ c ∈ ['n', 'u', 'l', 'l'], isNumeric c := by decide

theorem isNumeric_true : ∀ c ∈ ['t', 'r', 'u', 'e'], isNumeric c := by decide

theorem isNumeric_false : ∀ c ∈ ['f', 'a', 'l', 's', 'e'], isNumeric c := by decide

theorem Passes.brackets {body : Text} (h : Passes body) : Passes ('[' :: (body ++ [']'])) := by
  have hopen : Passes ['['] := passes_of_forall (List.forall_mem_singleton.mpr (passes_brackets _ (by simp)))
  have hclose : Passes [']'] := passes_of_forall (List.forall_mem_singleton.mpr (passes_brackets _ (by simp)))
  exact hopen.append (h.append hclose)

theorem Passes.braces {body : Text} (h : Passes body) : Passes ('{' :: (body ++ ['}'])) := by
  intro depth hdepth rest
  have hscan := scanFrom_braces h hdepth.le rest
  rw [if_neg (by omega)] at hscan
  rw [← hscan]
  simp only [List.cons_append, List.append_assoc, List.nil_append]

mutual
/-- The scanner passes over a value that is written out. -/
theorem passes_dumps : ∀ v : Value, Passes (dumps floats v)
  | .null => passes_of_isNumeric isNumeric_null
  | .bool true => passes_of_isNumeric isNumeric_true
  | .bool false => passes_of_isNumeric isNumeric_false
  | .int _ => passes_of_isNumeric fun _ => isNumeric_of_mem_toString
  | .float x => passes_of_isNumeric (floats.isNumeric_of_mem x)
  | .str s => passes_encodeString s
  | .arr xs => (passes_dumpsItems passes_nil xs).brackets
  | .obj members => (passes_dumpsMembers passes_nil members).braces
theorem passes_dumpsItems {separator : Text} (h : Passes separator) :
    ∀ xs : List Value, Passes (dumpsItems floats separator xs)
  | [] => passes_nil
  | x :: rest => (h.append (passes_dumps x)).append (passes_dumpsItems (passes_of_forall passes_separator) rest)
theorem passes_dumpsMembers {separator : Text} (h : Passes separator) :
    ∀ members : List (String × Value), Passes (dumpsMembers floats separator members)
  | [] => passes_nil
  | (key, x) :: rest =>
    (((h.append (passes_encodeString key)).append (passes_of_forall passes_colon)).append (passes_dumps x)).append
      (passes_dumpsMembers (passes_of_forall passes_separator) rest)
end

/-- The scanner finds the end of an object that is written out. -/
theorem scanFrom_dumps (members : Dict Value) (rest : Text) :
    scanFrom 0 false false (dumps floats (.obj members) ++ rest) = some (dumps floats (.obj members)) := by
  have hscan := scanFrom_braces (passes_dumpsMembers floats passes_nil members) le_rfl rest
  rw [if_pos rfl] at hscan
  rw [dumps, ← hscan]
  simp only [List.cons_append, List.append_assoc, List.nil_append]

end

end CreativeStudio.Generators
