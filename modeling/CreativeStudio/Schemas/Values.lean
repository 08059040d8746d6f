import CreativeStudio.Data.Floats
import CreativeStudio.Schemas.Errors

/-!
# Numbers from values

`float(value)` of anything a JSON document may hold, and what the program makes of it where it
takes junk for zero. An integer out of the range of a float raises an exception that neither
expects.
-/

namespace CreativeStudio
open Data

/-- How Python prints a value and reads a number from a text. -/
structure ValueLibrary where
  str : Value → String
  repr : Value → String
  /-- `format(x, "g")`. -/
  general : PyFloat → String
  /-- `format(x, ".4f")`. -/
  fixed4 : ℚ → String
  /-- `float(text)`, if the text is a number. -/
  parseFloat : String → Option PyFloat
  /-- `10.0 ** x`, if it is not too large. -/
  pow10 : ℚ → Option ℚ
  str_str : ∀ s, str (.str s) = s

/-- The text of a string, and nothing for other values. -/
def stringText : Value → String
  | .str s => s
  | _ => ""

theorem stringText_str (s : String) : stringText (.str s) = s := rfl

/-- `type(value).__name__`. -/
def typeName : Value → String
  | .null => "NoneType"
  | .bool _ => "bool"
  | .int _ => "int"
  | .float _ => "float"
  | .str _ => "str"
  | .arr _ => "list"
  | .obj _ => "dict"

/-- Why `float(value)` fails. -/
inductive FloatError
  /-- `TypeError` and `ValueError`. -/
  | unreadable
  /-- `OverflowError`. -/
  | overflow
  deriving DecidableEq, Repr

section
variable (lib : ValueLibrary)

/-- `float(value)`. -/
def toPyFloat : Value → Except FloatError PyFloat
  | .bool b => .ok (.finite (if b then 1 else 0))
  | .int n => if PyFloat.overflow ≤ |(n : ℚ)| then .error .overflow else .ok (.finite n)
  | .float x => .ok x
  | .str s => match lib.parseFloat s with
    | some x => .ok x
    | none => .error .unreadable
  | _ => .error .unreadable

/-- `_as_float`. -/
def asFloat (value : Value) : Except Exc ℚ :=
  match toPyFloat lib value with
  | .ok (.finite q) => .ok q
  | .ok _ => .ok 0
  | .error .unreadable => .ok 0
  | .error .overflow => .error (.other "int too large to convert to float")

/-- `float(value)` does not overflow. -/
def InFloatRange (value : Value) : Prop := toPyFloat lib value ≠ .error .overflow

instance (value : Value) : Decidable (InFloatRange lib value) := inferInstanceAs (Decidable (_ ≠ _))

/-- The number that `_as_float` takes a value for. -/
def floatValue (value : Value) : ℚ :=
  match toPyFloat lib value with
  | .ok x => match x with
    | .finite q => q
    | _ => 0
  | .error _ => 0

variable {lib} {value : Value}

theorem asFloat_eq_ok {q : ℚ} : asFloat lib value = .ok q ↔ InFloatRange lib value ∧ floatValue lib value = q := by
  unfold asFloat InFloatRange floatValue
  rcases toPyFloat lib value with (_ | _) | (_ | _ | _ | _) <;> simp

theorem asFloat_of_inFloatRange (h : InFloatRange lib value) : asFloat lib value = .ok (floatValue lib value) :=
  asFloat_eq_ok.mpr ⟨h, rfl⟩

theorem exists_asFloat_iff : (∃ q, asFloat lib value = .ok q) ↔ InFloatRange lib value := by
  simp [asFloat_eq_ok]

end

/-- `round(x * factor)`, which an infinite product does not survive. -/
def roundScaled (x : ℚ) (factor : ℕ) : Except Exc ℤ :=
  if PyFloat.overflow ≤ |x * factor| then .error (.other "cannot convert float infinity to integer")
  else .ok (roundHalfEven (x * factor))

theorem roundScaled_eq_ok {x : ℚ} {factor : ℕ} {n : ℤ} :
    roundScaled x factor = .ok n ↔ |x * factor| < PyFloat.overflow ∧ roundHalfEven (x * factor) = n := by
  unfold roundScaled
  split
  next h => exact ⟨nofun, fun hok => absurd hok.1 (not_lt.mpr h)⟩
  next h => simp only [Except.ok.injEq, lt_of_not_ge h, true_and]

/-- `int(x)`. -/
def truncate (x : ℚ) : ℤ := if 0 ≤ x then ⌊x⌋ else ⌈x⌉

end CreativeStudio
