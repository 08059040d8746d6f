import CreativeStudio.Data.Floats

/-!
# Values written as JSON

`json.dumps` with its defaults: a space after every comma and colon, and an escape for every
character in a string that is not printable ASCII. What is written spells a backtick only as itself.
-/

namespace CreativeStudio.Data

/-- A character that a number is written with. -/
def isNumeric (c : Char) : Bool := c.isAlphanum || c = '+' || c = '-' || c = '.'

/-- How floats are written: `float.__repr__`, and `NaN` or `Infinity`. -/
structure FloatText where
  write : PyFloat → List Char
  isNumeric_of_mem : ∀ x, ∀ c ∈ write x, isNumeric c

/-- A hexadecimal digit. -/
def hexDigit (n : ℕ) : Char := if n < 10 then Char.ofNat (48 + n) else Char.ofNat (87 + n)

/-- `"\\u{0:04x}".format(n)`. -/
def escapeUnicode (n : ℕ) : List Char :=
  ['\\', 'u', hexDigit (n / 4096 % 16), hexDigit (n / 256 % 16), hexDigit (n / 16 % 16), hexDigit (n % 16)]

/-- A code point in one or two units of sixteen bits. -/
def utf16 (n : ℕ) : List ℕ :=
  if n < 0x10000 then [n] else [0xd800 + (n - 0x10000) / 1024 % 1024, 0xdc00 + (n - 0x10000) % 1024]

/-- A character in a string, as `py_encode_basestring_ascii` writes it. -/
def escapeChar (c : Char) : List Char :=
  if c = '\\' then ['\\', '\\']
  else if c = '"' then ['\\', '"']
  else if c = '\n' then ['\\', 'n']
  else if c = '\r' then ['\\', 'r']
  else if c = '\t' then ['\\', 't']
  else if c = '\x08' then ['\\', 'b']
  else if c = '\x0c' then ['\\', 'f']
  else if 0x20 ≤ c.toNat ∧ c.toNat ≤ 0x7e then [c]
  else (utf16 c.toNat).flatMap escapeUnicode

/-- A string with its quotes. -/
def encodeString (s : String) : List Char := '"' :: (s.toList.flatMap escapeChar ++ ['"'])

section
variable (floats : FloatText)

mutual
/-- `json.dumps`. -/
def dumps : Value → List Char
  | .null => ['n', 'u', 'l', 'l']
  | .bool true => ['t', 'r', 'u', 'e']
  | .bool false => ['f', 'a', 'l', 's', 'e']
  | .int n => (toString n).toList
  | .float x => floats.write x
  | .str s => encodeString s
  | .arr xs => '[' :: (dumpsItems [] xs ++ [']'])
  | .obj members => '{' :: (dumpsMembers [] members ++ ['}'])
/-- The elements of an array, with the separator before the first. -/
def dumpsItems (separator : List Char) : List Value → List Char
  | [] => []
  | x :: rest => separator ++ dumps x ++ dumpsItems [',', ' '] rest
/-- The members of an object, with the separator before the first. -/
def dumpsMembers (separator : List Char) : List (String × Value) → List Char
  | [] => []
  | (key, x) :: rest =>
    separator ++ encodeString key ++ [':', ' '] ++ dumps x ++ dumpsMembers [',', ' '] rest
end

end

/-! ## Escapes -/

theorem isAlphanum_hexDigit : ∀ n < 16, (hexDigit n).isAlphanum := by decide

theorem hexDigit_injective : ∀ m < 16, ∀ n < 16, hexDigit m = hexDigit n → m = n := by decide

/-- The digits of an escape. -/
def hexDigits (n : ℕ) : List Char :=
  [hexDigit (n / 4096 % 16), hexDigit (n / 256 % 16), hexDigit (n / 16 % 16), hexDigit (n % 16)]

theorem escapeUnicode_eq (n : ℕ) : escapeUnicode n = '\\' :: 'u' :: hexDigits n := rfl

theorem isAlphanum_of_mem_hexDigits {n : ℕ} {c : Char} (h : c ∈ hexDigits n) : c.isAlphanum := by
  simp only [hexDigits, List.mem_cons, List.not_mem_nil, or_false] at h
  rcases h with rfl | rfl | rfl | rfl <;> exact isAlphanum_hexDigit _ (Nat.mod_lt _ (by omega))

/-- The digits tell which unit it is. -/
theorem hexDigits_injective {m n : ℕ} (hm : m < 0x10000) (hn : n < 0x10000) (h : hexDigits m = hexDigits n) :
    m = n := by
  simp only [hexDigits, List.cons.injEq, and_true] at h
  obtain ⟨h₃, h₂, h₁, h₀⟩ := h
  have h₃ := hexDigit_injective _ (Nat.mod_lt _ (by omega)) _ (Nat.mod_lt _ (by omega)) h₃
  have h₂ := hexDigit_injective _ (Nat.mod_lt _ (by omega)) _ (Nat.mod_lt _ (by omega)) h₂
  have h₁ := hexDigit_injective _ (Nat.mod_lt _ (by omega)) _ (Nat.mod_lt _ (by omega)) h₁
  have h₀ := hexDigit_injective _ (Nat.mod_lt _ (by omega)) _ (Nat.mod_lt _ (by omega)) h₀
  omega

/-- What the escape of a character is made of. -/
inductive EscapeOf (c : Char) : List Char → Prop
  | itself (hslash : c ≠ '\\') (hquote : c ≠ '"') : EscapeOf c [c]
  | short {e : Char} (h : e ∈ ['\\', '"', 'n', 'r', 't', 'b', 'f']) (hc : c ≠ '\x60') : EscapeOf c ['\\', e]
  | units (h : ∀ n ∈ utf16 c.toNat, n < 0x10000 ∧ n ≠ 0x60) (hc : c ≠ '\x60') :
    EscapeOf c ((utf16 c.toNat).flatMap escapeUnicode)

theorem mem_utf16 {c : Char} (h : ¬(0x20 ≤ c.toNat ∧ c.toNat ≤ 0x7e)) {n : ℕ} (hn : n ∈ utf16 c.toNat) :
    n < 0x10000 ∧ n ≠ 0x60 := by
  unfold utf16 at hn
  split at hn
  · obtain rfl := List.mem_singleton.mp hn
    omega
  · simp only [List.mem_cons, List.not_mem_nil, or_false] at hn
    omega

theorem escapeOf_escapeChar (c : Char) : EscapeOf c (escapeChar c) := by
  unfold escapeChar
  split
  next h => exact .short (by simp) (by rw [h]; decide)
  next hslash =>
    split
    next h => exact .short (by simp) (by rw [h]; decide)
    next hquote =>
      split
      next h => exact .short (by simp) (by rw [h]; decide)
      split
      next h => exact .short (by simp) (by rw [h]; decide)
      split
      next h => exact .short (by simp) (by rw [h]; decide)
      split
      next h => exact .short (by simp) (by rw [h]; decide)
      split
      next h => exact .short (by simp) (by rw [h]; decide)
      split
      next => exact .itself hslash hquote
      next h =>
        refine .units (fun n => mem_utf16 h) ?_
        rintro rfl
        exact h (by decide)

/-! ## Numbers -/

theorem isNumeric_of_mem_toString {n : ℤ} {c : Char} (h : c ∈ (toString n).toList) : isNumeric c := by
  have hnat {n : ℕ} {c : Char} (hc : c ∈ n.repr.toList) : isNumeric c := by
    rw [Nat.toList_repr] at hc
    have hdigit := Nat.isDigit_of_mem_toDigits (by omega) (by omega) hc
    simp [isNumeric, Char.isAlphanum, hdigit]
  cases n with
  | ofNat n => exact hnat h
  | negSucc n =>
    have h : c ∈ ("-" ++ (n + 1).repr).toList := h
    rw [String.toList_append, List.mem_append] at h
    rcases h with h | h
    · obtain rfl : c = '-' := by simpa using h
      decide
    · exact hnat h

theorem ne_of_isNumeric {c d : Char} (h : isNumeric c) (hd : isNumeric d = false) : c ≠ d := by
  rintro rfl
  rw [h] at hd
  cases hd

theorem isNumeric_of_isAlphanum {c : Char} (h : c.isAlphanum) : isNumeric c := by
  simp [isNumeric, h]

/-! ## Backticks -/

section
variable {floats : FloatText}

mutual
/-- The backticks in the strings of a value. -/
def backticks : Value → ℕ
  | .null => 0
  | .bool _ => 0
  | .int _ => 0
  | .float _ => 0
  | .str s => s.toList.count '\x60'
  | .arr xs => backticksItems xs
  | .obj members => backticksMembers members
/-- `backticks` of the elements of an array. -/
def backticksItems : List Value → ℕ
  | [] => 0
  | x :: rest => backticks x + backticksItems rest
/-- `backticks` of the members of an object. -/
def backticksMembers : List (String × Value) → ℕ
  | [] => 0
  | (key, x) :: rest => key.toList.count '\x60' + backticks x + backticksMembers rest
end

theorem count_hexDigits (n : ℕ) : (hexDigits n).count '\x60' = 0 :=
  List.count_eq_zero.mpr fun h => absurd (isAlphanum_of_mem_hexDigits h) (by decide)

theorem count_escapeUnicode (n : ℕ) : (escapeUnicode n).count '\x60' = 0 := by
  rw [escapeUnicode_eq, List.count_cons_of_ne (by decide), List.count_cons_of_ne (by decide), count_hexDigits]

/-- A backtick is written as itself, and nothing else is written with one. -/
theorem count_escapeChar (c : Char) : (escapeChar c).count '\x60' = if c = '\x60' then 1 else 0 := by
  have h := escapeOf_escapeChar c
  generalize escapeChar c = text at h
  cases h with
  | itself hslash hquote =>
    rw [List.count_singleton]
    simp only [beq_iff_eq]
  | @short e h hc =>
    rw [if_neg hc, List.count_cons_of_ne (by decide)]
    refine List.count_eq_zero.mpr ?_
    rintro he
    obtain rfl := List.mem_singleton.mp he
    revert h
    decide
  | units h hc =>
    rw [if_neg hc, List.count_flatMap]
    exact List.sum_eq_zero (by simp [count_escapeUnicode])

theorem count_flatMap_escapeChar (cs : List Char) : (cs.flatMap escapeChar).count '\x60' = cs.count '\x60' := by
  induction cs with
  | nil => rfl
  | cons c cs ih =>
    rw [List.flatMap_cons, List.count_append, ih, count_escapeChar, List.count_cons, Nat.add_comm]
    simp only [beq_iff_eq]

theorem count_encodeString (s : String) : (encodeString s).count '\x60' = s.toList.count '\x60' := by
  rw [encodeString, List.count_cons_of_ne (by decide), List.count_append, count_flatMap_escapeChar]
  rfl

theorem count_of_isNumeric {text : List Char} (h : ∀ c ∈ text, isNumeric c) : text.count '\x60' = 0 :=
  List.count_eq_zero.mpr fun hmem => ne_of_isNumeric (h _ hmem) (by decide) rfl

mutual
/-- All backticks that are written are those of the strings. -/
theorem count_dumps : ∀ v : Value, (dumps floats v).count '\x60' = backticks v
  | .null => by rw [dumps, backticks]; decide
  | .bool true => by rw [dumps, backticks]; decide
  | .bool false => by rw [dumps, backticks]; decide
  | .int n => by rw [dumps, backticks, count_of_isNumeric fun c => isNumeric_of_mem_toString]
  | .float x => by rw [dumps, backticks, count_of_isNumeric (floats.isNumeric_of_mem x)]
  | .str s => by rw [dumps, backticks, count_encodeString]
  | .arr xs => by
    rw [dumps, backticks, List.count_cons_of_ne (by decide), List.count_append, count_dumpsItems [] rfl xs]
    rfl
  | .obj members => by
    rw [dumps, backticks, List.count_cons_of_ne (by decide), List.count_append, count_dumpsMembers [] rfl members]
    rfl
theorem count_dumpsItems (separator : List Char) (h : separator.count '\x60' = 0) :
    ∀ xs : List Value, (dumpsItems floats separator xs).count '\x60' = backticksItems xs
  | [] => rfl
  | x :: rest => by
    rw [dumpsItems, backticksItems, List.count_append, List.count_append, h, Nat.zero_add, count_dumps x,
      count_dumpsItems [',', ' '] rfl rest]
theorem count_dumpsMembers (separator : List Char) (h : separator.count '\x60' = 0) :
    ∀ members : List (String × Value), (dumpsMembers floats separator members).count '\x60' = backticksMembers members
  | [] => rfl
  | (key, x) :: rest => by
    have hcolon : ([':', ' '] : List Char).count '\x60' = 0 := rfl
    simp only [dumpsMembers, backticksMembers, List.count_append, h, hcolon, Nat.zero_add, Nat.add_zero,
      count_encodeString, count_dumps x, count_dumpsMembers [',', ' '] rfl rest]
end

end

/-! ## What a text spells -/

/-- The digits of the escape for a backtick. -/
def backtickDigits : List Char := ['0', '0', '6', '0']

/-- How many backticks a JSON reader can find in a text: those that stand there, and the escapes. -/
def spelledBackticks : List Char → ℕ
  | [] => 0
  | ['\\'] => 0
  | '\\' :: c :: rest => (if c = 'u' ∧ rest.take 4 = backtickDigits then 1 else 0) + spelledBackticks rest
  | c :: rest => (if c = '\x60' then 1 else 0) + spelledBackticks rest

/-- No escape in the text is one for a backtick or a brace. -/
inductive Spelled : List Char → Prop
  | nil : Spelled []
  | char {c : Char} {rest : List Char} (h : c ≠ '\\') : Spelled rest → Spelled (c :: rest)
  | escape {c : Char} {rest : List Char} (hbrace : c ≠ '{')
      (hunit : c = 'u' → 4 ≤ rest.length ∧ rest.take 4 ≠ backtickDigits) :
      Spelled rest → Spelled ('\\' :: c :: rest)

theorem spelledBackticks_cons {c : Char} (h : c ≠ '\\') (rest : List Char) :
    spelledBackticks (c :: rest) = (if c = '\x60' then 1 else 0) + spelledBackticks rest := by
  rw [spelledBackticks]
  · rintro rfl
    exact absurd rfl h
  · rintro d rest rfl
    exact absurd rfl h

/-- What a text spells that is cut off from a spelled one is what stands there. -/
theorem Spelled.spelledBackticks_le {text : List Char} (h : Spelled text) {before after : List Char}
    (heq : text = before ++ after) : spelledBackticks before ≤ before.count '\x60' := by
  induction h generalizing before with
  | nil =>
    rw [(List.append_eq_nil_iff.mp heq.symm).1]
    exact le_refl _
  | @char c rest hc _ ih =>
    cases before with
    | nil => exact le_refl _
    | cons d before =>
      obtain ⟨rfl, htail⟩ := List.cons.inj heq
      have hrest := ih htail
      rw [spelledBackticks_cons hc, List.count_cons]
      simp only [beq_iff_eq]
      omega
  | @escape c rest hbrace hunit _ ih =>
    rcases before with _ | ⟨d, _ | ⟨e, before⟩⟩
    · exact le_refl _
    · have hslash : '\\' = d := (List.cons.inj heq).1
      rw [← hslash, spelledBackticks]
      exact Nat.zero_le _
    · obtain ⟨hslash, htail⟩ := List.cons.inj heq
      obtain ⟨rfl, hrest⟩ := List.cons.inj htail
      subst hslash
      have hle := ih hrest
      have hnot : ¬(c = 'u' ∧ before.take 4 = backtickDigits) := by
        rintro ⟨hu, htake⟩
        refine (hunit hu).2 ?_
        have hlength : 4 ≤ before.length := by
          have := congrArg List.length htake
          rw [List.length_take, show backtickDigits.length = 4 from rfl] at this
          omega
        rw [hrest, List.append_eq, List.take_append_of_le_length hlength, htake]
      rw [spelledBackticks, if_neg hnot, List.count_cons, List.count_cons]
      omega

/-- A brace is not part of an escape. -/
theorem Spelled.of_append {before rest : List Char} (h : Spelled (before ++ '{' :: rest)) : Spelled ('{' :: rest) := by
  generalize htext : before ++ '{' :: rest = text at h
  induction h generalizing before with
  | nil => exact absurd htext (by simp)
  | @char c text hc hspelled ih =>
    cases before with
    | nil =>
      rw [List.nil_append] at htext
      rw [htext]
      exact .char hc hspelled
    | cons d before => exact ih (List.cons.inj htext).2
  | @escape c text hbrace hunit hspelled ih =>
    rcases before with _ | ⟨d, _ | ⟨e, before⟩⟩
    · exact absurd (List.cons.inj htext).1 (by decide)
    · exact absurd (List.cons.inj (List.cons.inj htext).2).1.symm hbrace
    · exact ih (List.cons.inj (List.cons.inj htext).2).2

theorem Spelled.append {before after : List Char} (h : Spelled before) (hafter : Spelled after) :
    Spelled (before ++ after) := by
  induction h with
  | nil => exact hafter
  | char hc _ ih => exact .char hc ih
  | escape hbrace hunit _ ih =>
    refine .escape hbrace (fun hu => ?_) ih
    obtain ⟨hlength, hdigits⟩ := hunit hu
    rw [List.append_eq, List.length_append, List.take_append_of_le_length hlength]
    exact ⟨by omega, hdigits⟩

theorem spelled_of_forall {text : List Char} (h : ∀ c ∈ text, c ≠ '\\') : Spelled text := by
  induction text with
  | nil => exact .nil
  | cons c rest ih =>
    obtain ⟨hc, hrest⟩ := List.forall_mem_cons.mp h
    exact .char hc (ih hrest)

theorem spelled_of_isNumeric {text : List Char} (h : ∀ c ∈ text, isNumeric c) : Spelled text :=
  spelled_of_forall fun c hc => ne_of_isNumeric (h c hc) (by decide)

theorem spelled_escapeUnicode {n : ℕ} (hn : n < 0x10000) (h : n ≠ 0x60) : Spelled (escapeUnicode n) := by
  rw [escapeUnicode_eq]
  refine .escape (by decide) (fun _ => ⟨le_refl _, fun hdigits => h ?_⟩)
    (spelled_of_isNumeric fun c hc => isNumeric_of_isAlphanum (isAlphanum_of_mem_hexDigits hc))
  exact hexDigits_injective hn (by decide) hdigits

theorem spelled_escapeChar (c : Char) : Spelled (escapeChar c) := by
  have h := escapeOf_escapeChar c
  generalize escapeChar c = text at h
  cases h with
  | itself hslash hquote => exact .char hslash .nil
  | @short e h hc =>
    refine .escape ?_ ?_ .nil
    · rintro rfl
      exact absurd h (by decide)
    · rintro rfl
      exact absurd h (by decide)
  | units h hc =>
    generalize utf16 c.toNat = ns at h
    induction ns with
    | nil => exact .nil
    | cons n ns ih =>
      obtain ⟨hn, hns⟩ := List.forall_mem_cons.mp h
      exact (spelled_escapeUnicode hn.1 hn.2).append (ih hns)

theorem spelled_encodeString (s : String) : Spelled (encodeString s) := by
  refine .char (by decide) (Spelled.append ?_ (.char (by decide) .nil))
  induction s.toList with
  | nil => exact .nil
  | cons c cs ih => exact (spelled_escapeChar c).append ih

section
variable (floats : FloatText)

theorem spelled_null : ∀ c ∈ ['n', 'u', 'l', 'l'], c ≠ '\\' := by decide

theorem spelled_true : ∀ c ∈ ['t', 'r', 'u', 'e'], c ≠ '\\' := by decide

theorem spelled_false : ∀ c ∈ ['f', 'a', 'l', 's', 'e'], c ≠ '\\' := by decide

mutual
/-- What is written spells a backtick only as itself. -/
theorem spelled_dumps : ∀ v : Value, Spelled (dumps floats v)
  | .null => spelled_of_forall spelled_null
  | .bool true => spelled_of_forall spelled_true
  | .bool false => spelled_of_forall spelled_false
  | .int n => spelled_of_isNumeric fun c => isNumeric_of_mem_toString
  | .float x => spelled_of_isNumeric (floats.isNumeric_of_mem x)
  | .str s => spelled_encodeString s
  | .arr xs => .char (by decide) ((spelled_dumpsItems .nil xs).append (.char (by decide) .nil))
  | .obj members => .char (by decide) ((spelled_dumpsMembers .nil members).append (.char (by decide) .nil))
theorem spelled_dumpsItems {separator : List Char} (h : Spelled separator) :
    ∀ xs : List Value, Spelled (dumpsItems floats separator xs)
  | [] => .nil
  | x :: rest => (h.append (spelled_dumps x)).append (spelled_dumpsItems (spelled_of_forall (by decide)) rest)
theorem spelled_dumpsMembers {separator : List Char} (h : Spelled separator) :
    ∀ members : List (String × Value), Spelled (dumpsMembers floats separator members)
  | [] => .nil
  | (key, x) :: rest =>
    (((h.append (spelled_encodeString key)).append (spelled_of_forall (by decide))).append (spelled_dumps x)).append
      (spelled_dumpsMembers (spelled_of_forall (by decide)) rest)
end

end

end CreativeStudio.Data
