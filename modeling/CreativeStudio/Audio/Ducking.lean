import CreativeStudio.Data.Arrays
import CreativeStudio.Schemas.Values

/-!
# Ducking

The gain of the music dips where somebody speaks, and moves there and back along ramps. The
envelope takes the spans of the speech one by one; what it comes to is decided by the samples
that they cover.
-/

namespace CreativeStudio.Audio
open Data

/-- `_require_sample_rate`. -/
def requireSampleRate (sampleRate : ℤ) : Except Exc ℕ :=
  if sampleRate ≤ 0 then .error (.value s!"sample_rate must be positive, got {sampleRate}.") else .ok sampleRate.toNat

/-- `_db_to_amplitude`. -/
def dbToAmplitude (lib : ValueLibrary) (decibels : ℚ) : Except Exc ℚ :=
  match lib.pow10 (decibels / 20) with
  | some amplitude => .ok amplitude
  | none => .error (.other "(34, 'Numerical result out of range')")

/-- How many samples a ramp takes. -/
def rampSamples (seconds : ℚ) (rate : ℕ) : ℕ := (max 1 (roundHalfEven (max 0 seconds * rate))).toNat

/-- The ramp in front of a span. -/
def attackRamp (reduction : ℚ) (attack : ℕ) : List ℚ := (linspace 1 reduction (attack + 1)).dropLast

/-- The ramp behind a span. -/
def releaseRamp (reduction : ℚ) (release : ℕ) : List ℚ := (linspace reduction 1 (release + 1)).tail

/-- The three slices that a span lowers, once it is clipped to the buffer. -/
def duckSlices (reduction : ℚ) (attack release total : ℕ) (gain : List ℚ) (start stop : ℕ) : List ℚ :=
  let rampStart := start - attack
  let gain :=
    if rampStart < start then
      minimumSlice gain rampStart ((attackRamp reduction attack).drop (attack - (start - rampStart)))
    else gain
  let gain := minimumSlice gain start (List.replicate (stop - start) reduction)
  let releaseEnd := min total (stop + release)
  if stop < releaseEnd then minimumSlice gain stop ((releaseRamp reduction release).take (releaseEnd - stop))
  else gain

/-- One turn of the loop of `duck_envelope`. -/
def duckSpan (reduction : ℚ) (attack release total : ℕ) (gain : List ℚ) (span : ℤ × ℤ) : List ℚ :=
  let start := max 0 span.1
  let stop := min (total : ℤ) span.2
  if total ≤ start ∨ stop ≤ start then gain
  else duckSlices reduction attack release total gain start.toNat stop.toNat

/-- `duck_envelope`. -/
def duckEnvelope (lib : ValueLibrary) (spans : List (ℤ × ℤ)) (length sampleRate : ℤ) (reductionDb : ℚ := -12)
    (attackSeconds : ℚ := 15 / 100) (releaseSeconds : ℚ := 4 / 10) : Except Exc (List ℚ) := do
  let total := length.toNat
  let rate ← requireSampleRate sampleRate
  let gain := List.replicate total (1 : ℚ)
  if total = 0 then return gain
  let reduction ← dbToAmplitude lib reductionDb
  let attack := rampSamples attackSeconds rate
  let release := rampSamples releaseSeconds rate
  return spans.foldl (duckSpan reduction attack release total) gain

/-! ## What a covered sample does -/

/-- The samples that speech covers, inside the buffer. -/
def Covered (spans : List (ℤ × ℤ)) (total : ℕ) : Set ℕ :=
  {c | c < total ∧ ∃ span ∈ spans, span.1 ≤ c ∧ (c : ℤ) < span.2}

/-- The attack ramp at a distance from the first covered sample. -/
def attackValue (reduction : ℚ) (attack distance : ℕ) : ℚ :=
  if distance ≤ attack then 1 + (attack - distance : ℕ) * ((reduction - 1) / attack) else 1

/-- The release ramp at a distance from the last covered sample. -/
def releaseValue (reduction : ℚ) (release distance : ℕ) : ℚ :=
  if distance ≤ release then reduction + distance * ((1 - reduction) / release) else 1

/-- The gain that a covered sample asks for at a sample. -/
def duckAt (reduction : ℚ) (attack release i c : ℕ) : ℚ :=
  if c = i then reduction
  else if i < c then attackValue reduction attack (c - i)
  else releaseValue reduction release (i - c)

section
variable {reduction : ℚ} {attack release total start stop : ℕ} {gain gain' : List ℚ}

/-! ## Ramps -/

@[simp] theorem length_attackRamp (reduction : ℚ) (attack : ℕ) : (attackRamp reduction attack).length = attack := by
  simp [attackRamp]

@[simp] theorem length_releaseRamp (reduction : ℚ) (release : ℕ) :
    (releaseRamp reduction release).length = release := by
  simp [releaseRamp]

theorem getElem?_attackRamp {k : ℕ} (h : k < attack) :
    (attackRamp reduction attack)[k]? = some (attackValue reduction attack (attack - k)) := by
  rw [attackRamp, List.getElem?_dropLast, length_linspace, if_pos (by omega), getElem?_linspace (by omega),
    attackValue, if_pos (by omega), show attack - (attack - k) = k by omega, Nat.add_sub_cancel]

theorem getElem?_releaseRamp {k : ℕ} (h : k < release) :
    (releaseRamp reduction release)[k]? = some (releaseValue reduction release (k + 1)) := by
  rw [releaseRamp, List.getElem?_tail, getElem?_linspace (by omega), releaseValue, if_pos (by omega),
    Nat.add_sub_cancel]

theorem attackValue_of_le {distance : ℕ} (h : attack ≤ distance) : attackValue reduction attack distance = 1 := by
  unfold attackValue
  split
  next hle =>
    rw [Nat.sub_eq_zero_of_le h]
    simp
  next => rfl

theorem releaseValue_of_le (hrelease : 0 < release) {distance : ℕ} (h : release ≤ distance) :
    releaseValue reduction release distance = 1 := by
  unfold releaseValue
  split
  next hle =>
    obtain rfl : distance = release := le_antisymm hle h
    have hne : (distance : ℚ) ≠ 0 := by exact_mod_cast hrelease.ne'
    field_simp
    ring
  next => rfl

/-- Further away from the speech the music is not softer. -/
theorem attackValue_mono (hreduction : reduction ≤ 1) : Monotone (attackValue reduction attack) := by
  intro d d' hle
  rcases le_or_gt attack d' with hfar | hnear
  · rw [attackValue_of_le hfar]
    unfold attackValue
    split
    · have hstep : (reduction - 1) / attack ≤ 0 := div_nonpos_of_nonpos_of_nonneg (by linarith) (Nat.cast_nonneg _)
      have hdown := mul_nonpos_of_nonneg_of_nonpos (Nat.cast_nonneg (α := ℚ) (attack - d)) hstep
      linarith
    · exact le_refl 1
  · have hstep : (reduction - 1) / attack ≤ 0 := div_nonpos_of_nonpos_of_nonneg (by linarith) (Nat.cast_nonneg _)
    have hless : ((attack - d' : ℕ) : ℚ) ≤ (attack - d : ℕ) := by exact_mod_cast (by omega : attack - d' ≤ attack - d)
    unfold attackValue
    rw [if_pos (by omega), if_pos (by omega)]
    have hdown := mul_le_mul_of_nonpos_right hless hstep
    linarith

theorem releaseValue_mono (hreduction : reduction ≤ 1) (hrelease : 0 < release) :
    Monotone (releaseValue reduction release) := by
  intro d d' hle
  have hstep : 0 ≤ (1 - reduction) / release := div_nonneg (by linarith) (Nat.cast_nonneg _)
  have hmono (n n' : ℕ) (hn : n ≤ n') (hn' : n' ≤ release) :
      releaseValue reduction release n ≤ releaseValue reduction release n' := by
    have hless : (n : ℚ) ≤ n' := by exact_mod_cast hn
    unfold releaseValue
    rw [if_pos (by omega), if_pos hn']
    have hup := mul_le_mul_of_nonneg_right hless hstep
    linarith
  rcases le_or_gt release d' with hfar | hnear
  · rw [releaseValue_of_le hrelease hfar, ← releaseValue_of_le hrelease (le_refl release)]
    rcases le_or_gt d release with hin | hout
    · exact hmono d release hin (le_refl _)
    · rw [releaseValue_of_le hrelease hout.le, releaseValue_of_le hrelease (le_refl release)]
  · exact hmono d d' hle hnear.le

theorem reduction_le_attackValue (hreduction : reduction ≤ 1) (hattack : 0 < attack) (distance : ℕ) :
    reduction ≤ attackValue reduction attack distance := by
  refine le_trans (le_of_eq ?_) (attackValue_mono hreduction (Nat.zero_le distance))
  have hne : (attack : ℚ) ≠ 0 := by exact_mod_cast hattack.ne'
  rw [attackValue, if_pos (Nat.zero_le _), Nat.sub_zero]
  field_simp
  ring

theorem reduction_le_releaseValue (hreduction : reduction ≤ 1) (hrelease : 0 < release) (distance : ℕ) :
    reduction ≤ releaseValue reduction release distance := by
  refine le_trans (le_of_eq ?_) (releaseValue_mono hreduction hrelease (Nat.zero_le distance))
  simp [releaseValue]

theorem attackValue_le_one (hreduction : reduction ≤ 1) (distance : ℕ) : attackValue reduction attack distance ≤ 1 :=
  (attackValue_mono hreduction (Nat.le_add_right distance attack)).trans_eq
    (attackValue_of_le (Nat.le_add_left attack distance))

theorem releaseValue_le_one (hreduction : reduction ≤ 1) (hrelease : 0 < release) (distance : ℕ) :
    releaseValue reduction release distance ≤ 1 :=
  (releaseValue_mono hreduction hrelease (Nat.le_add_right distance release)).trans_eq
    (releaseValue_of_le hrelease (Nat.le_add_left release distance))

/-! ## One span -/

theorem lowered_attack (reduction : ℚ) (attack : ℕ) (hstart : start ≤ gain.length) (hle : ∀ value ∈ gain, value ≤ 1) :
    Lowered (fun i => if i < start then attackValue reduction attack (start - i) else 1) gain
      (if start - attack < start then
        minimumSlice gain (start - attack) ((attackRamp reduction attack).drop (attack - (start - (start - attack))))
      else gain) := by
  split
  next hramp =>
    refine lowered_minimumSlice ?_ hle (fun k hk => ?_) fun i hi hside => ?_
    · rw [List.length_drop, length_attackRamp]
      omega
    · rw [List.length_drop, length_attackRamp] at hk
      rw [List.getElem?_drop, getElem?_attackRamp (by omega), if_pos (by omega),
        show attack - (attack - (start - (start - attack)) + k) = start - (start - attack + k) by omega]
    · rw [List.length_drop, length_attackRamp] at hside
      split
      next hbefore => exact attackValue_of_le (by omega)
      next => rfl
  next hramp =>
    refine lowered_refl hle fun i hi => ?_
    split
    next hbefore => exact attackValue_of_le (by omega)
    next => rfl

theorem lowered_reduction (reduction : ℚ) (hspan : start ≤ stop) (hstop : stop ≤ gain.length) (hle : ∀ value ∈ gain, value ≤ 1) :
    Lowered (fun i => if start ≤ i ∧ i < stop then reduction else 1) gain
      (minimumSlice gain start (List.replicate (stop - start) reduction)) := by
  refine lowered_minimumSlice ?_ hle (fun k hk => ?_) fun i hi hside => ?_
  · rw [List.length_replicate]
    omega
  · rw [List.length_replicate] at hk
    rw [List.getElem?_replicate, if_pos hk, if_pos (by omega)]
  · rw [List.length_replicate] at hside
    exact if_neg (by omega)

theorem lowered_release (reduction : ℚ) (hpos : 0 < stop) (hrelease : 0 < release) (hstop : stop ≤ gain.length)
    (hle : ∀ value ∈ gain, value ≤ 1) :
    Lowered (fun i => if stop ≤ i then releaseValue reduction release (i - (stop - 1)) else 1) gain
      (if stop < min gain.length (stop + release) then
        minimumSlice gain stop ((releaseRamp reduction release).take (min gain.length (stop + release) - stop))
      else gain) := by
  split
  next hramp =>
    refine lowered_minimumSlice ?_ hle (fun k hk => ?_) fun i hi hside => ?_
    · rw [List.length_take, length_releaseRamp]
      omega
    · rw [List.length_take, length_releaseRamp] at hk
      rw [List.getElem?_take_of_lt (by omega), getElem?_releaseRamp (by omega), if_pos (by omega),
        show stop + k - (stop - 1) = k + 1 by omega]
    · rw [List.length_take, length_releaseRamp] at hside
      split
      next hbehind => exact releaseValue_of_le hrelease (by omega)
      next => rfl
  next hramp =>
    refine lowered_refl hle fun i hi => ?_
    split
    next hbehind => exact releaseValue_of_le hrelease (by omega)
    next => rfl

/-- The covered sample of a span that is nearest to a sample. -/
def nearest (start stop i : ℕ) : ℕ := max start (min i (stop - 1))

/-- A clipped span lowers the gain to what its nearest sample asks for. -/
theorem lowered_duckSlices (hspan : start < stop) (hstop : stop ≤ total) (hreduction : reduction ≤ 1)
    (hrelease : 0 < release) (hlength : gain.length = total) (hle : ∀ value ∈ gain, value ≤ 1) :
    Lowered (fun i => duckAt reduction attack release i (nearest start stop i)) gain
      (duckSlices reduction attack release total gain start stop) := by
  have hattack := lowered_attack reduction attack (hspan.le.trans (hstop.trans_eq hlength.symm)) hle
  have hreduced := hattack.trans
    (lowered_reduction reduction hspan.le (by rw [hattack.length]; omega) (hattack.le hle))
  have hreleased := hreduced.trans (lowered_release reduction (Nat.zero_lt_of_lt hspan) hrelease
    (by rw [hreduced.length]; omega) (hreduced.le hle))
  rw [hreduced.length, hlength] at hreleased
  refine hreleased.congr fun i hi => ?_
  have hattackLe : ∀ distance, attackValue reduction attack distance ≤ 1 := attackValue_le_one hreduction
  have hreleaseLe := releaseValue_le_one hreduction hrelease
  rcases lt_or_ge i start with hbefore | hstart
  · rw [if_pos hbefore, if_neg (by omega), if_neg (by omega), min_eq_left (hattackLe _),
      min_eq_left (hattackLe _), show nearest start stop i = start by unfold nearest; omega, duckAt,
      if_neg (by omega), if_pos hbefore]
  rcases lt_or_ge i stop with hin | hbehind
  · rw [if_neg (by omega), if_pos ⟨hstart, hin⟩, if_neg (by omega), min_eq_right hreduction,
      min_eq_left hreduction, show nearest start stop i = i by unfold nearest; omega, duckAt, if_pos rfl]
  · rw [if_neg (by omega), if_neg (by omega), if_pos hbehind, min_self, min_eq_right (hreleaseLe _),
      show nearest start stop i = stop - 1 by unfold nearest; omega, duckAt, if_neg (by omega), if_neg (by omega)]

/-- Among the samples of a span the nearest asks for the least. -/
theorem isLeast_nearest (hspan : start < stop) (hreduction : reduction ≤ 1) (hattack : 0 < attack)
    (hrelease : 0 < release) (i : ℕ) :
    IsLeast (insert 1 (duckAt reduction attack release i '' {c | start ≤ c ∧ c < stop}))
      (duckAt reduction attack release i (nearest start stop i)) := by
  refine ⟨.inr ⟨_, ⟨by unfold nearest; omega, by unfold nearest; omega⟩, rfl⟩, ?_⟩
  have hle : duckAt reduction attack release i (nearest start stop i) ≤ 1 := by
    unfold duckAt
    split
    · exact hreduction
    · split
      · exact attackValue_le_one hreduction _
      · exact releaseValue_le_one hreduction hrelease _
  rintro value (rfl | ⟨c, ⟨hstart, hstop⟩, rfl⟩)
  · exact hle
  rcases lt_trichotomy i c with hfront | rfl | hbehind
  · rw [duckAt, duckAt, if_neg hfront.ne', if_pos hfront]
    split
    · exact reduction_le_attackValue hreduction hattack _
    · rw [if_pos (by unfold nearest at *; omega)]
      exact attackValue_mono hreduction (by unfold nearest; omega)
  · rw [show nearest start stop i = i by unfold nearest; omega]
  · rw [duckAt, duckAt, if_neg hbehind.ne, if_neg (not_lt.mpr hbehind.le)]
    split
    · exact reduction_le_releaseValue hreduction hrelease _
    · rw [if_neg (by unfold nearest at *; omega)]
      exact releaseValue_mono hreduction hrelease (by unfold nearest; omega)

/-! ## All spans -/

/-- The gain is the least that the covered samples ask for, and 1 where they ask for nothing. -/
structure Ducked (reduction : ℚ) (attack release total : ℕ) (covered : Set ℕ) (gain : List ℚ) : Prop where
  length : gain.length = total
  least : ∀ i g, gain[i]? = some g → IsLeast (insert 1 (duckAt reduction attack release i '' covered)) g

theorem Ducked.le_one {covered : Set ℕ} (h : Ducked reduction attack release total covered gain) :
    ∀ g ∈ gain, g ≤ 1 := by
  intro g hg
  obtain ⟨i, hi⟩ := List.mem_iff_getElem?.mp hg
  exact (h.least i g hi).2 (Set.mem_insert _ _)

/-- The covered samples decide the gain. -/
theorem Ducked.unique {covered : Set ℕ} (h : Ducked reduction attack release total covered gain)
    (h' : Ducked reduction attack release total covered gain') : gain = gain' := by
  refine List.ext_getElem? fun i => ?_
  rcases lt_or_ge i total with hlt | hge
  · have hgain := List.getElem?_eq_getElem (l := gain) (h.length ▸ hlt)
    have hgain' := List.getElem?_eq_getElem (l := gain') (h'.length ▸ hlt)
    rw [hgain, hgain', (h.least i _ hgain).unique (h'.least i _ hgain')]
  · rw [List.getElem?_eq_none (h.length ▸ hge), List.getElem?_eq_none (h'.length ▸ hge)]

/-- Covering more does not raise the gain. -/
theorem Ducked.anti {covered covered' : Set ℕ} (h : Ducked reduction attack release total covered gain)
    (h' : Ducked reduction attack release total covered' gain') (hsubset : covered ⊆ covered') {i : ℕ} {g g' : ℚ}
    (hg : gain[i]? = some g) (hg' : gain'[i]? = some g') : g' ≤ g :=
  (h.least i g hg).mono (h'.least i g' hg') (Set.insert_subset_insert (Set.image_mono hsubset))

theorem ducked_replicate (reduction : ℚ) (attack release total : ℕ) :
    Ducked reduction attack release total ∅ (List.replicate total 1) where
  length := List.length_replicate
  least i g hg := by
    obtain rfl := List.eq_of_mem_replicate (List.mem_of_getElem? hg)
    rw [Set.image_empty, insert_empty_eq]
    exact isLeast_singleton

theorem covered_cons (span : ℤ × ℤ) (spans : List (ℤ × ℤ)) (total : ℕ) :
    Covered (span :: spans) total = Covered [span] total ∪ Covered spans total := by
  ext c
  simp only [Covered, Set.mem_ofPred_eq, Set.mem_union, List.exists_mem_cons_iff, List.not_mem_nil, false_and,
    exists_false, or_false]
  tauto

/-- One turn of the loop. -/
theorem Ducked.duckSpan {covered : Set ℕ} (h : Ducked reduction attack release total covered gain)
    (hreduction : reduction ≤ 1) (hattack : 0 < attack) (hrelease : 0 < release) (span : ℤ × ℤ) :
    Ducked reduction attack release total (covered ∪ Covered [span] total)
      (duckSpan reduction attack release total gain span) := by
  unfold Audio.duckSpan
  dsimp only
  split
  next hempty =>
    have hnone : Covered [span] total = ∅ := by
      refine Set.eq_empty_of_forall_notMem ?_
      rintro c ⟨hc, span', hspan', hstart, hstop⟩
      obtain rfl := List.mem_singleton.mp hspan'
      omega
    rw [hnone, Set.union_empty]
    exact h
  next hspan =>
    have hclipped : Covered [span] total = {c | (max 0 span.1).toNat ≤ c ∧ c < (min (total : ℤ) span.2).toNat} := by
      ext c
      simp only [Covered, List.mem_singleton, exists_eq_left, Set.mem_ofPred_eq]
      omega
    have hslices : Lowered (fun i => duckAt reduction attack release i (nearest _ _ i)) gain
        (duckSlices reduction attack release total gain (max 0 span.1).toNat (min (total : ℤ) span.2).toNat) :=
      lowered_duckSlices (by omega) (by omega) hreduction hrelease h.length h.le_one
    refine ⟨hslices.length.trans h.length, fun i g hg => ?_⟩
    obtain ⟨hlt, -⟩ := List.getElem?_eq_some_iff.mp hg
    have hold := List.getElem?_eq_getElem (l := gain) (hslices.length ▸ hlt)
    rw [hslices.value i _ hold] at hg
    obtain rfl := Option.some.inj hg
    rw [hclipped]
    exact (h.least i _ hold).insert_image_union
      (isLeast_nearest (by omega) hreduction hattack hrelease i)

theorem Ducked.foldl {covered : Set ℕ} (h : Ducked reduction attack release total covered gain)
    (hreduction : reduction ≤ 1) (hattack : 0 < attack) (hrelease : 0 < release) (spans : List (ℤ × ℤ)) :
    Ducked reduction attack release total (covered ∪ Covered spans total)
      (spans.foldl (Audio.duckSpan reduction attack release total) gain) := by
  induction spans generalizing covered gain with
  | nil =>
    have hnone : Covered [] total = ∅ := Set.eq_empty_of_forall_notMem fun c hc => by
      obtain ⟨-, span, hspan, -⟩ := hc
      exact absurd hspan List.not_mem_nil
    rw [hnone, Set.union_empty]
    exact h
  | cons span rest ih =>
    rw [covered_cons, ← Set.union_assoc]
    exact ih (h.duckSpan hreduction hattack hrelease span)

theorem rampSamples_pos (seconds : ℚ) (rate : ℕ) : 0 < rampSamples seconds rate := by
  unfold rampSamples
  omega

end

section
variable {lib : ValueLibrary} {reductionDb : ℚ}

/-- The envelope is the one that the covered samples decide. -/
theorem duckEnvelope_spec (hpow10 : ∀ x ≤ 0, ∃ q, lib.pow10 x = some q ∧ 0 ≤ q ∧ q ≤ 1) {sampleRate : ℤ}
    (hrate : 0 < sampleRate) (hdb : reductionDb ≤ 0) (length : ℤ) (attackSeconds releaseSeconds : ℚ) :
    ∃ reduction ≤ 1, dbToAmplitude lib reductionDb = .ok reduction ∧ ∀ spans, ∃ gain,
      duckEnvelope lib spans length sampleRate reductionDb attackSeconds releaseSeconds = .ok gain ∧
        Ducked reduction (rampSamples attackSeconds sampleRate.toNat) (rampSamples releaseSeconds sampleRate.toNat)
          length.toNat (Covered spans length.toNat) gain := by
  obtain ⟨reduction, hpow, -, hle⟩ := hpow10 (reductionDb / 20) (by linarith)
  have hamplitude : dbToAmplitude lib reductionDb = .ok reduction := by rw [dbToAmplitude, hpow]
  refine ⟨reduction, hle, hamplitude, fun spans => ?_⟩
  have hducked := (ducked_replicate reduction (rampSamples attackSeconds sampleRate.toNat)
    (rampSamples releaseSeconds sampleRate.toNat) length.toNat).foldl hle (rampSamples_pos _ _) (rampSamples_pos _ _)
    spans
  rw [Set.empty_union] at hducked
  refine ⟨_, ?_, hducked⟩
  unfold duckEnvelope requireSampleRate
  rw [if_neg (by omega)]
  simp only [bind, Except.bind, pure, Except.pure, hamplitude]
  split
  next hzero =>
    have hnil := hducked.length
    rw [hzero] at hnil
    rw [hzero, List.eq_nil_of_length_eq_zero hnil]
    rfl
  next => rfl

/-- The gain at a sample is the least of 1 and what the covered samples ask for there. So it lies
between the reduction and 1, it depends on the spans only through what they cover, and covering
more does not raise it. -/
theorem duckEnvelope_closed_form (hpow10 : ∀ x ≤ 0, ∃ q, lib.pow10 x = some q ∧ 0 ≤ q ∧ q ≤ 1) {sampleRate : ℤ}
    (hrate : 0 < sampleRate) (hdb : reductionDb ≤ 0) (length : ℤ) (attackSeconds releaseSeconds : ℚ)
    (spans : List (ℤ × ℤ)) :
    ∃ reduction gain, dbToAmplitude lib reductionDb = .ok reduction ∧
      duckEnvelope lib spans length sampleRate reductionDb attackSeconds releaseSeconds = .ok gain ∧
      gain.length = length.toNat ∧
      (∀ i g, gain[i]? = some g →
        IsLeast (insert 1 (duckAt reduction (rampSamples attackSeconds sampleRate.toNat)
          (rampSamples releaseSeconds sampleRate.toNat) i '' Covered spans length.toNat)) g ∧
        reduction ≤ g ∧ g ≤ 1) ∧
      (∀ spans', Covered spans' length.toNat = Covered spans length.toNat →
        duckEnvelope lib spans' length sampleRate reductionDb attackSeconds releaseSeconds = .ok gain) ∧
      ∀ spans', Covered spans length.toNat ⊆ Covered spans' length.toNat → ∃ gain',
        duckEnvelope lib spans' length sampleRate reductionDb attackSeconds releaseSeconds = .ok gain' ∧
        ∀ (i : ℕ) (g g' : ℚ), gain[i]? = some g → gain'[i]? = some g' → g' ≤ g := by
  obtain ⟨reduction, hle, hamplitude, hspec⟩ :=
    duckEnvelope_spec hpow10 hrate hdb length attackSeconds releaseSeconds
  obtain ⟨gain, hgain, hducked⟩ := hspec spans
  refine ⟨reduction, gain, hamplitude, hgain, hducked.length, fun i g hg => ?_, fun spans' hsame => ?_,
    fun spans' hmore => ?_⟩
  · have hleast := hducked.least i g hg
    refine ⟨hleast, ?_, hleast.2 (Set.mem_insert _ _)⟩
    rcases hleast.1 with rfl | ⟨c, -, rfl⟩
    · exact hle
    · unfold duckAt
      split
      · exact le_refl _
      · split
        · exact reduction_le_attackValue hle (rampSamples_pos _ _) _
        · exact reduction_le_releaseValue hle (rampSamples_pos _ _) _
  · obtain ⟨gain', hgain', hducked'⟩ := hspec spans'
    rw [hsame] at hducked'
    rw [hgain', hducked.unique hducked']
  · obtain ⟨gain', hgain', hducked'⟩ := hspec spans'
    exact ⟨gain', hgain', fun i g g' hg hg' => hducked.anti hducked' hmore hg hg'⟩

/-- A library that knows the powers of ten. -/
def decadeValues : ValueLibrary where
  str := stringText
  repr _ := ""
  general _ := ""
  fixed4 _ := ""
  parseFloat _ := none
  pow10 x := some (10 ^ ⌊x⌋)
  str_str := stringText_str

theorem pow10_decadeValues (x : ℚ) (h : x ≤ 0) : ∃ q, decadeValues.pow10 x = some q ∧ 0 ≤ q ∧ q ≤ 1 :=
  ⟨_, rfl, zpow_nonneg (by norm_num) _, zpow_le_one_of_nonpos₀ (by norm_num) (Int.floor_nonpos h)⟩

/-- A span, and the same in pieces, one of them twice. -/
theorem duckEnvelope_pieces : ∃ gain,
    duckEnvelope decadeValues [(2, 4)] 6 1 (-20) 2 2 = .ok gain ∧
      duckEnvelope decadeValues [(3, 4), (2, 3), (2, 3)] 6 1 (-20) 2 2 = .ok gain := by
  obtain ⟨reduction, gain, -, hgain, -, -, hsame, -⟩ :=
    duckEnvelope_closed_form pow10_decadeValues (by decide : (0 : ℤ) < 1) (by norm_num : (-20 : ℚ) ≤ 0) 6 2 2 [(2, 4)]
  refine ⟨gain, hgain, hsame _ ?_⟩
  ext c
  simp only [Covered, List.mem_cons, List.not_mem_nil, or_false, exists_eq_or_imp, exists_eq_left,
    Set.mem_ofPred_eq]
  omega

end

end CreativeStudio.Audio
