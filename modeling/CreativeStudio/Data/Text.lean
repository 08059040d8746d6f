import Mathlib.Data.String.Basic
import Mathlib.Algebra.Order.Floor.Ring
import Mathlib.Data.Rat.Floor
import Mathlib.Tactic.Linarith

/-!
# Texts and numbers as the program handles them

Stripping and splitting text at whitespace, rounding to the even neighbour, and the
checksum that seeds a scene's clip.
-/

namespace CreativeStudio.Data

/-- The characters of a text are gone through, rather than all that there are. -/
instance (priority := high) decidableForallChar (text : List Char) (p : Char → Prop) [DecidablePred p] :
    Decidable (∀ c ∈ text, p c) := List.decidableBAll p text

/-- `str.isspace` of one character. -/
def isSpace (c : Char) : Bool :=
  let n := c.toNat
  (9 ≤ n && n ≤ 13) || (28 ≤ n && n ≤ 32) || n == 0x85 || n == 0xa0 || n == 0x1680 ||
    (0x2000 ≤ n && n ≤ 0x200a) || n == 0x2028 || n == 0x2029 || n == 0x202f || n == 0x205f ||
    n == 0x3000

/-- `text.strip()`. -/
def strip (text : String) : String :=
  .ofList ((((text.toList.dropWhile isSpace).reverse).dropWhile isSpace).reverse)

/-- `text.split()`: the longest runs of characters that are not whitespace. -/
def splitWords : List Char → List (List Char)
  | [] => []
  | c :: rest =>
    if isSpace c then splitWords rest
    else
      match rest, splitWords rest with
      | next :: _, word :: words => if isSpace next then [c] :: word :: words else (c :: word) :: words
      | _, words => [c] :: words

theorem splitWords_of_isSpace {c : Char} (h : isSpace c) (rest : List Char) :
    splitWords (c :: rest) = splitWords rest :=
  if_pos h

/-- A character that is not whitespace is a word of its own or joins the next one. -/
theorem splitWords_of_not_isSpace {c : Char} (h : ¬isSpace c) (rest : List Char) :
    splitWords (c :: rest) = [c] :: splitWords rest ∨
      ∃ word words, splitWords rest = word :: words ∧ splitWords (c :: rest) = (c :: word) :: words := by
  have hunfold : splitWords (c :: rest) = _ := if_neg h
  rw [hunfold]
  split
  next next more word words hsplit =>
    split
    · exact .inl (by rw [hsplit])
    · exact .inr ⟨word, words, hsplit, rfl⟩
  next => exact .inl rfl

/-- `round(value)`: a tie goes to the even neighbour. -/
def roundHalfEven (value : ℚ) : ℤ :=
  let lower := ⌊value⌋
  let rest := value - lower
  if rest < 1 / 2 then lower
  else if 1 / 2 < rest then lower + 1
  else if lower % 2 = 0 then lower else lower + 1

theorem roundHalfEven_le {value : ℚ} {n : ℤ} (h : value ≤ n) : roundHalfEven value ≤ n := by
  have hfloor : ⌊value⌋ ≤ n := Int.floor_le_iff.mpr (by linarith)
  have hup (hrest : 0 < value - ⌊value⌋) : ⌊value⌋ + 1 ≤ n := by
    have hlt : (⌊value⌋ : ℚ) < n := by linarith
    exact_mod_cast hlt
  unfold roundHalfEven
  simp only
  split
  · exact hfloor
  · split
    · exact hup (by linarith)
    · split
      · exact hfloor
      · exact hup (by linarith)

theorem le_roundHalfEven {value : ℚ} {n : ℤ} (h : n ≤ value) : n ≤ roundHalfEven value := by
  have hfloor : n ≤ ⌊value⌋ := Int.le_floor.mpr h
  unfold roundHalfEven
  simp only
  split
  · exact hfloor
  · split
    · omega
    · split
      · exact hfloor
      · omega

/-- One bit of a CRC-32 register. -/
def crcBit (register : ℕ) : ℕ :=
  if register % 2 = 1 then (register / 2) ^^^ 0xEDB88320 else register / 2

/-- `zlib.crc32` of the UTF-8 bytes of a text. -/
def crc32 (text : String) : ℕ :=
  (text.toUTF8.toList.foldl (fun register byte => crcBit^[8] (register ^^^ byte.toNat)) 0xFFFFFFFF)
    ^^^ 0xFFFFFFFF

/-- `number` in decimal, with zeros in front up to `width` digits. -/
def zeroPadded (width number : ℕ) : String :=
  let digits := toString number
  String.ofList (List.replicate (width - digits.length) '0') ++ digits

theorem toList_zeroPadded (width n : ℕ) :
    (zeroPadded width n).toList = List.replicate (width - (toString n).length) '0' ++ Nat.toDigits 10 n := by
  simp [zeroPadded, String.toList_append]

/-- Padding keeps the number. -/
theorem zeroPadded_injective (width : ℕ) : Function.Injective (zeroPadded width) := by
  intro m n h
  have hlist : (zeroPadded width m).toList = (zeroPadded width n).toList := congrArg String.toList h
  have hvalue := congrArg (fun cs => Nat.ofDigitChars 10 cs 0) hlist
  simpa [toList_zeroPadded, Nat.ofDigitChars_append, Nat.ofDigitChars_ten_toDigits] using hvalue

end CreativeStudio.Data
