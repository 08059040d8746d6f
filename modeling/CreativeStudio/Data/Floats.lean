import CreativeStudio.Data.Text
import CreativeStudio.Data.Json
import Mathlib.Algebra.Order.BigOperators.Group.List

/-!
# Floats that may not be finite

A finite float is exact: rounding to a double is not modelled, but its range is. A number too
large for a double becomes infinite in arithmetic and in a literal, and an error where an
integer is converted.
-/

namespace CreativeStudio.Data

/-- A float, finite or not. -/
inductive PyFloat
  | finite (q : ℚ)
  | nan
  | posInf
  | negInf
  deriving DecidableEq, Repr

/-- A JSON value as `json.loads` reads it: a number may be NaN or infinite. -/
abbrev Value := JsonOf PyFloat

namespace PyFloat

instance : Zero PyFloat := ⟨.finite 0⟩
instance : Inhabited PyFloat := ⟨0⟩

/-- The first number that rounds to infinity: halfway between the largest double and `2 ^ 1024`. -/
def overflow : ℚ := 2 ^ 1024 - 2 ^ 970

/-- The double of an exact number. -/
def ofRat (q : ℚ) : PyFloat := if overflow ≤ q then .posInf else if q ≤ -overflow then .negInf else .finite q

/-- `x + y`. -/
def add : PyFloat → PyFloat → PyFloat
  | .finite p, .finite q => ofRat (p + q)
  | .nan, _ | _, .nan | .posInf, .negInf | .negInf, .posInf => .nan
  | .posInf, _ | _, .posInf => .posInf
  | .negInf, _ | _, .negInf => .negInf

instance : Add PyFloat := ⟨add⟩

/-- `x <= 0`, which does not hold of NaN. -/
def nonpos : PyFloat → Bool
  | .finite q => q ≤ 0
  | .negInf => true
  | .nan | .posInf => false

/-- `x > bound`, which does not hold of NaN. -/
def exceeds (x : PyFloat) (bound : ℚ) : Bool :=
  match x with
  | .finite q => bound < q
  | .posInf => true
  | .nan | .negInf => false

/-- `math.isfinite`. -/
def isFinite : PyFloat → Bool
  | .finite _ => true
  | _ => false

/-! ## Adding floats up -/

theorem overflow_pos : 0 < overflow := sub_pos.mpr (pow_lt_pow_right₀ one_lt_two (by omega))

theorem isFinite_ofRat {q : ℚ} (h : 0 ≤ q) : (ofRat q).isFinite ↔ q < overflow := by
  have hlow : ¬q ≤ -overflow := by linarith [overflow_pos]
  unfold ofRat
  split
  next hover => simp [isFinite, hover]
  next hover => simp [isFinite, not_le.mp hover]

theorem ofRat_add_finite {p q : ℚ} (hp : 0 ≤ p) (hq : 0 ≤ q) : ofRat p + finite q = ofRat (p + q) := by
  have hlow : ¬p ≤ -overflow := by linarith [overflow_pos]
  by_cases hover : overflow ≤ p
  · have hsum : overflow ≤ p + q := by linarith
    rw [ofRat, ofRat, if_pos hover, if_pos hsum]
    rfl
  · rw [ofRat, if_neg hover, if_neg hlow]
    rfl

/-- What is not negative adds up as numbers do, until it is too much. -/
theorem foldl_add_finite {qs : List ℚ} (h : ∀ q ∈ qs, 0 ≤ q) {start : ℚ} (hstart : 0 ≤ start) :
    (qs.map finite).foldl (· + ·) (ofRat start) = ofRat (start + qs.sum) := by
  induction qs generalizing start with
  | nil => rw [List.map_nil, List.foldl_nil, List.sum_nil, add_zero]
  | cons q qs ih =>
    obtain ⟨hq, hqs⟩ := List.forall_mem_cons.mp h
    rw [List.map_cons, List.foldl_cons, ofRat_add_finite hstart hq, ih hqs (add_nonneg hstart hq), List.sum_cons,
      add_assoc]

theorem ofRat_zero : ofRat 0 = 0 := by
  have hpos := overflow_pos
  rw [ofRat, if_neg (by linarith), if_neg (by linarith)]
  rfl

/-! ## Adding floats of both signs -/

section
variable {x : PyFloat} {qs : List ℚ} {start total : ℚ}

theorem foldl_add_infinite (h : x.isFinite = false) (qs : List ℚ) : (qs.map finite).foldl (· + ·) x = x := by
  induction qs with
  | nil => rfl
  | cons q rest ih =>
    have hstep : x + finite q = x := by
      cases x with
      | finite p => cases h
      | nan | posInf | negInf => rfl
    rw [List.map_cons, List.foldl_cons, hstep, ih]

theorem ofRat_ne_nan (q : ℚ) : ofRat q ≠ .nan := by
  intro h
  unfold ofRat at h
  split at h
  · cases h
  · split at h <;> cases h

/-- Numbers do not add up to NaN. -/
theorem foldl_add_ne_nan (h : x ≠ .nan) (qs : List ℚ) : (qs.map finite).foldl (· + ·) x ≠ .nan := by
  induction qs generalizing x with
  | nil => exact h
  | cons q rest ih =>
    refine ih ?_
    cases x with
    | finite p => exact ofRat_ne_nan (p + q)
    | nan => exact absurd rfl h
    | posInf | negInf => exact fun h => by cases h

/-- A sum that is a number is the sum of the numbers. -/
theorem sum_of_foldl_add (h : (qs.map finite).foldl (· + ·) (finite start) = finite total) :
    start + qs.sum = total := by
  induction qs generalizing start with
  | nil => simpa using h
  | cons q rest ih =>
    rw [List.map_cons, List.foldl_cons] at h
    cases hnext : finite start + finite q with
    | finite next =>
      rw [hnext] at h
      have hsum : start + q = next := by
        change ofRat (start + q) = finite next at hnext
        unfold ofRat at hnext
        split at hnext
        · cases hnext
        · split at hnext
          · cases hnext
          · exact finite.inj hnext
      rw [List.sum_cons, ← ih h, ← hsum, add_assoc]
    | nan | posInf | negInf =>
      rw [hnext, foldl_add_infinite rfl] at h
      cases h

/-- Numbers add up to a number while what is positive of them, and what is negative, stays in range. -/
theorem foldl_add_of_bounded (hhigh : start + (qs.map (max 0)).sum < overflow)
    (hlow : -overflow < start + (qs.map (min 0)).sum) :
    (qs.map finite).foldl (· + ·) (finite start) = finite (start + qs.sum) := by
  induction qs generalizing start with
  | nil => simp
  | cons q rest ih =>
    have hpos : 0 ≤ (rest.map (max 0)).sum := List.sum_nonneg fun r hr => by
      obtain ⟨r', -, rfl⟩ := List.mem_map.mp hr
      exact le_max_left 0 r'
    have hneg : (rest.map (min 0)).sum ≤ 0 := by
      refine (List.sum_le_card_nsmul _ 0 fun r hr => ?_).trans_eq (nsmul_zero _)
      obtain ⟨r', -, rfl⟩ := List.mem_map.mp hr
      exact min_le_left 0 r'
    rw [List.map_cons, List.sum_cons] at hhigh hlow
    have hmax := le_max_right 0 q
    have hmin := min_le_right 0 q
    have hstep : finite start + finite q = finite (start + q) := by
      change ofRat (start + q) = _
      rw [ofRat, if_neg (by linarith), if_neg (by linarith)]
    rw [List.map_cons, List.foldl_cons, hstep, ih (by linarith) (by linarith), List.sum_cons, add_assoc]

end

end PyFloat

/-! ## Values that are stored -/

namespace JsonOf
variable {φ ψ : Type} (f : φ → Option ψ)

mutual
/-- Put other floats in the place of those of a value, or null. -/
def mapFloats : JsonOf φ → JsonOf ψ
  | .null => .null
  | .bool b => .bool b
  | .int n => .int n
  | .float x => (f x).elim .null .float
  | .str s => .str s
  | .arr items => .arr (mapItems items)
  | .obj members => .obj (mapMembers members)
/-- `mapFloats` on the items of a list. -/
def mapItems : List (JsonOf φ) → List (JsonOf ψ)
  | [] => []
  | value :: rest => mapFloats value :: mapItems rest
/-- `mapFloats` on the members of a dictionary. -/
def mapMembers : List (String × JsonOf φ) → List (String × JsonOf ψ)
  | [] => []
  | (key, value) :: rest => (key, mapFloats value) :: mapMembers rest
end

theorem mapItems_eq (items : List (JsonOf φ)) : mapItems f items = items.map (mapFloats f) := by
  induction items with
  | nil => rfl
  | cons value rest ih => rw [mapItems, ih, List.map_cons]

theorem get?_mapMembers (members : Dict (JsonOf φ)) (key : String) :
    Dict.get? (mapMembers f members) key = (members.get? key).map (mapFloats f) := by
  induction members with
  | nil => rfl
  | cons member rest ih =>
    obtain ⟨name, value⟩ := member
    by_cases hname : name = key
    · simp [mapMembers, Dict.get?, hname]
    · simpa [mapMembers, Dict.get?, hname] using ih

theorem obj?_mapFloats (value : JsonOf φ) : (mapFloats f value).obj? = value.obj?.map (mapMembers f) := by
  cases value with
  | float x => rw [mapFloats]; cases f x <;> rfl
  | _ => rfl

mutual
private theorem mapFloats_comp {χ : Type} (g : ψ → Option χ) :
    ∀ value : JsonOf φ, mapFloats g (mapFloats f value) = mapFloats (fun x => (f x).bind g) value
  | .null => rfl
  | .bool _ => rfl
  | .int _ => rfl
  | .float x => by
    rw [mapFloats, mapFloats]
    cases f x <;> rfl
  | .str _ => rfl
  | .arr items => by rw [mapFloats, mapFloats, mapFloats, mapItems_comp g items]
  | .obj members => by rw [mapFloats, mapFloats, mapFloats, mapMembers_comp g members]
private theorem mapItems_comp {χ : Type} (g : ψ → Option χ) :
    ∀ items : List (JsonOf φ), mapItems g (mapItems f items) = mapItems (fun x => (f x).bind g) items
  | [] => rfl
  | value :: rest => by rw [mapItems, mapItems, mapItems, mapFloats_comp g value, mapItems_comp g rest]
private theorem mapMembers_comp {χ : Type} (g : ψ → Option χ) :
    ∀ members : List (String × JsonOf φ), mapMembers g (mapMembers f members) = mapMembers (fun x => (f x).bind g) members
  | [] => rfl
  | (_, value) :: rest => by rw [mapMembers, mapMembers, mapMembers, mapFloats_comp g value, mapMembers_comp g rest]
end

theorem mapFloats_mapFloats {χ : Type} (g : ψ → Option χ) (value : JsonOf φ) :
    mapFloats g (mapFloats f value) = mapFloats (fun x => (f x).bind g) value := mapFloats_comp f g value

end JsonOf

/-- The number that a float is, if it is one. -/
def PyFloat.rat? : PyFloat → Option ℚ
  | .finite q => some q
  | _ => none

/-- A float that is a number. -/
def PyFloat.ofStored (q : ℚ) : Option PyFloat := some (.finite q)

/-- A stored value, as it is read. -/
def readValue : Json → Value := JsonOf.mapFloats PyFloat.ofStored

/-- A value as it is stored: a float that is not finite is dropped. -/
def storedValue : Value → Json := JsonOf.mapFloats PyFloat.rat?

end CreativeStudio.Data
