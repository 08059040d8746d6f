import Mathlib.Algebra.Order.Field.Rat
import Mathlib.Data.Rat.Floor
import Mathlib.Order.Bounds.Basic
import Mathlib.Tactic.Linarith

/-!
# Arrays of exact numbers

The array operations that audio is processed with: an even ramp, a minimum taken over a slice
in place, rows of one length, and linear interpolation. Numbers are rationals. A prefix of an
array has a prefix of its rows, and interpolates to the same as far as it goes.
-/

namespace CreativeStudio.Data

/-- `np.linspace(start, stop, num)`. -/
def linspace (start stop : ℚ) (num : ℕ) : List ℚ :=
  (List.range num).map fun k : ℕ => start + k * ((stop - start) / (num - 1 : ℕ))

/-- `array[start:stop] = np.minimum(array[start:stop], segment)`, of a segment as long as the
slice. -/
def minimumSlice (array : List ℚ) (start : ℕ) (segment : List ℚ) : List ℚ :=
  array.take start ++ List.zipWith min (array.drop start) segment ++ array.drop (start + segment.length)

@[simp] theorem length_linspace (start stop : ℚ) (num : ℕ) : (linspace start stop num).length = num := by
  simp [linspace]

theorem getElem?_linspace {start stop : ℚ} {num k : ℕ} (h : k < num) :
    (linspace start stop num)[k]? = some (start + k * ((stop - start) / (num - 1 : ℕ))) := by
  simp [linspace, h]

/-! ## Arrays that are lowered -/

/-- `array'` holds the smaller one of what `array` holds and a level. -/
structure Lowered (level : ℕ → ℚ) (array array' : List ℚ) : Prop where
  length : array'.length = array.length
  value : ∀ i value, array[i]? = some value → array'[i]? = some (min value (level i))

variable {array array' array'' segment : List ℚ} {level level' : ℕ → ℚ} {start : ℕ} {top : ℚ}

theorem Lowered.trans (h : Lowered level array array') (h' : Lowered level' array' array'') :
    Lowered (fun i => min (level i) (level' i)) array array'' where
  length := h'.length.trans h.length
  value i value hvalue := by
    rw [h'.value i _ (h.value i value hvalue), min_assoc]

theorem Lowered.le (h : Lowered level array array') (hle : ∀ value ∈ array, value ≤ top) :
    ∀ value ∈ array', value ≤ top := by
  intro value hvalue
  obtain ⟨i, hi⟩ := List.mem_iff_getElem?.mp hvalue
  obtain ⟨hlt, -⟩ := List.getElem?_eq_some_iff.mp hi
  have hold := List.getElem?_eq_getElem (l := array) (i := i) (h.length ▸ hlt)
  rw [h.value i _ hold] at hi
  obtain rfl := Option.some.inj hi
  exact (min_le_left _ _).trans (hle _ (List.getElem_mem _))

theorem Lowered.congr (h : Lowered level array array') (heq : ∀ i < array.length, level i = level' i) :
    Lowered level' array array' where
  length := h.length
  value i value hvalue := by
    obtain ⟨hlt, -⟩ := List.getElem?_eq_some_iff.mp hvalue
    rw [h.value i value hvalue, heq i hlt]

/-- A level that is not below any value changes nothing. -/
theorem lowered_refl (hle : ∀ value ∈ array, value ≤ top) (hlevel : ∀ i < array.length, level i = top) :
    Lowered level array array where
  length := rfl
  value i value hvalue := by
    obtain ⟨hlt, -⟩ := List.getElem?_eq_some_iff.mp hvalue
    rw [hvalue, hlevel i hlt, min_eq_left (hle value (List.mem_of_getElem? hvalue))]

/-- Taking the minimum over a slice lowers the array to what the segment says there. -/
theorem lowered_minimumSlice (h : start + segment.length ≤ array.length) (hle : ∀ value ∈ array, value ≤ top)
    (hin : ∀ k < segment.length, segment[k]? = some (level (start + k)))
    (hout : ∀ i < array.length, i < start ∨ start + segment.length ≤ i → level i = top) :
    Lowered level array (minimumSlice array start segment) := by
  have htake : (array.take start).length = start := by
    rw [List.length_take]
    omega
  have hzip : (List.zipWith min (array.drop start) segment).length = segment.length := by
    rw [List.length_zipWith, List.length_drop]
    omega
  refine ⟨?_, fun i value hvalue => ?_⟩
  · rw [minimumSlice, List.length_append, List.length_append, htake, hzip, List.length_drop]
    omega
  obtain ⟨hlt, -⟩ := List.getElem?_eq_some_iff.mp hvalue
  have hkept : i < start ∨ start + segment.length ≤ i → min value (level i) = value := fun hside => by
    rw [hout i hlt hside, min_eq_left (hle value (List.mem_of_getElem? hvalue))]
  rw [minimumSlice, List.append_assoc]
  rcases lt_or_ge i start with hbefore | hstart
  · rw [List.getElem?_append_left (by omega), List.getElem?_take_of_lt hbefore, hvalue, hkept (.inl hbefore)]
  rw [List.getElem?_append_right (by omega), htake]
  rcases lt_or_ge (i - start) segment.length with hinside | hbehind
  · have hsegment := hin (i - start) hinside
    rw [show start + (i - start) = i by omega] at hsegment
    rw [List.getElem?_append_left (by omega), List.getElem?_zipWith, List.getElem?_drop,
      show start + (i - start) = i by omega, hvalue, hsegment]
  · rw [List.getElem?_append_right (by omega), hzip, List.getElem?_drop,
      show start + segment.length + (i - start - segment.length) = i by omega, hvalue, hkept (.inr (by omega))]

/-! ## Least values -/

/-- The least of two families of values, each with a value that is always there. -/
theorem IsLeast.insert_image_union {ι : Type} {f : ι → ℚ} {top a b : ℚ} {s t : Set ι}
    (hs : IsLeast (insert top (f '' s)) a) (ht : IsLeast (insert top (f '' t)) b) :
    IsLeast (insert top (f '' (s ∪ t))) (min a b) := by
  rw [Set.image_union, Set.insert_union_distrib]
  exact hs.union ht

/-! ## Rows -/

section
variable {α : Type}

/-- `array[:usable].reshape(-1, width)`: the rows of an array, without what does not fill one. -/
def reshape (width : ℕ) (array : List α) : List (List α) :=
  (List.range (array.length / width)).map fun row => (array.drop (row * width)).take width

@[simp] theorem length_reshape (width : ℕ) (array : List α) : (reshape width array).length = array.length / width := by
  simp [reshape]

/-- The first rows are the rows of a prefix. -/
theorem reshape_take {width : ℕ} (hwidth : 0 < width) (array : List α) (count : ℕ) :
    reshape width (array.take (count * width)) = (reshape width array).take count := by
  have hcount : (array.take (count * width)).length / width = min count (array.length / width) := by
    rw [List.length_take]
    rcases le_total (count * width) array.length with hle | hle
    · rw [min_eq_left hle, Nat.mul_div_cancel _ hwidth, min_eq_left ((Nat.le_div_iff_mul_le hwidth).mpr hle)]
    · rw [min_eq_right hle, min_eq_right (Nat.div_le_of_le_mul (by rwa [mul_comm]))]
  rw [reshape, reshape, hcount, ← List.map_take, List.take_range]
  refine List.map_congr_left fun row hrow => ?_
  have hlt : row + 1 ≤ count := by
    rw [List.mem_range] at hrow
    omega
  have hend : row * width + width ≤ count * width := by
    rw [← Nat.succ_mul]
    exact Nat.mul_le_mul_right width hlt
  rw [List.drop_take, List.take_take, min_eq_left (by omega)]

end

/-! ## Interpolation -/

/-- `np.interp(x, np.arange(len(values)), values)`: linear, and the outermost values outside. -/
def interp (values : List ℚ) (x : ℚ) : ℚ :=
  if x < 0 then values.getD 0 0
  else if (values.length - 1 : ℕ) ≤ x then values.getD (values.length - 1) 0
  else
    let lower := ⌊x⌋.toNat
    values.getD lower 0 + (x - lower) * (values.getD (lower + 1) 0 - values.getD lower 0)

/-- Short of the last value of a prefix, the prefix interpolates to the same. -/
theorem interp_take {values : List ℚ} {x : ℚ} {count : ℕ} (hx : 0 ≤ x) (hcount : x + 1 < count)
    (hlength : count ≤ values.length) : interp (values.take count) x = interp values x := by
  have hfloor : (⌊x⌋.toNat : ℚ) ≤ x := by
    rw [← Int.cast_natCast, Int.toNat_of_nonneg (Int.floor_nonneg.mpr hx)]
    exact Int.floor_le x
  have hlower : ⌊x⌋.toNat + 1 < count := by
    have hlt : ((⌊x⌋.toNat + 1 : ℕ) : ℚ) < count := by
      push_cast
      linarith
    exact_mod_cast hlt
  have hinside (n : ℕ) (h : count ≤ n) : ¬((n - 1 : ℕ) : ℚ) ≤ x := by
    have hle : ((count - 1 : ℕ) : ℚ) ≤ (n - 1 : ℕ) := by exact_mod_cast (by omega : count - 1 ≤ n - 1)
    rw [Nat.cast_sub (by omega), Nat.cast_one] at hle
    rw [not_le]
    linarith
  have hkept (k : ℕ) (hk : k < count) : (values.take count).getD k 0 = values.getD k 0 := by
    rw [List.getD_eq_getElem?_getD, List.getD_eq_getElem?_getD, List.getElem?_take_of_lt hk]
  unfold interp
  rw [if_neg (not_lt.mpr hx), if_neg (not_lt.mpr hx), if_neg (hinside _ (by rw [List.length_take]; omega)),
    if_neg (hinside _ hlength)]
  dsimp only
  rw [hkept _ (by omega), hkept _ hlower]

end CreativeStudio.Data
