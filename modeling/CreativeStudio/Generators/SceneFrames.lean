import CreativeStudio.Generators.TemplateRuntime

/-!
# Frames of a template story

The image prompt of a scene is made of a shot, which comes back every seven scenes, and a cue for the
role of the scene in the arc. Scenes of one role follow each other, so two scenes have the same frame
when a role lasts for more than seven scenes: when the arc has thirty scenes or more.
-/

namespace CreativeStudio.Data

theorem roundHalfEven_mono {x y : ℚ} (h : x ≤ y) : roundHalfEven x ≤ roundHalfEven y := by
  rcases (Int.floor_mono h).lt_or_eq with hlt | heq
  · have hup : x ≤ ((⌊x⌋ + 1 : ℤ) : ℚ) := by
      push_cast
      exact (Int.lt_floor_add_one x).le
    calc roundHalfEven x ≤ ⌊x⌋ + 1 := roundHalfEven_le hup
      _ ≤ ⌊y⌋ := hlt
      _ ≤ roundHalfEven y := le_roundHalfEven (Int.floor_le y)
  · unfold roundHalfEven
    simp only [heq]
    split
    · split_ifs <;> omega
    · split
      next hhalf =>
        have hy : (1 : ℚ) / 2 < y - ⌊y⌋ := by linarith
        rw [if_neg hy.not_gt, if_pos hy]
      next hlow hhigh =>
        have hy : ¬y - ⌊y⌋ < 1 / 2 := by
          intro hy
          apply hlow
          linarith
        rw [if_neg hy]
        split_ifs <;> omega

end CreativeStudio.Data

namespace CreativeStudio.Generators
open Data Story

/-! ## Roles -/

/-- Later scenes have later roles. -/
theorem sceneArcRole_mono {i j : ℕ} (h : i ≤ j) (total : ℕ) : sceneArcRole i total ≤ sceneArcRole j total := by
  unfold sceneArcRole
  split
  · exact le_rfl
  · apply Int.toNat_le_toNat
    apply roundHalfEven_mono
    have hposition : ((min (i - 1) (total - 1) : ℕ) : ℚ) ≤ (min (j - 1) (total - 1) : ℕ) := by
      have : min (i - 1) (total - 1) ≤ min (j - 1) (total - 1) := by omega
      exact_mod_cast this
    gcongr

theorem sceneArcRole_lt (index total : ℕ) : sceneArcRole index total < sceneArcCues.length := by
  unfold sceneArcRole
  split
  · decide
  next hmany =>
    have hpos : (0 : ℚ) < (total - 1 : ℕ) := by
      have : 0 < total - 1 := by omega
      exact_mod_cast this
    have hposition : ((min (index - 1) (total - 1) : ℕ) : ℚ) ≤ (total - 1 : ℕ) := by
      exact_mod_cast min_le_right _ _
    have hround : roundHalfEven (((min (index - 1) (total - 1) : ℕ) : ℚ) * (sceneArcCues.length - 1 : ℕ) /
        (total - 1 : ℕ)) ≤ 4 := by
      apply roundHalfEven_le
      rw [div_le_iff₀ hpos]
      have hfour : ((sceneArcCues.length - 1 : ℕ) : ℚ) = (4 : ℤ) := by norm_num [sceneArcCues]
      rw [hfour, mul_comm]
      gcongr
    have hfive : sceneArcCues.length = 5 := rfl
    dsimp only
    omega

/-- `round(position * 4 / last)`, in natural numbers. -/
def roundedRole (position last : ℕ) : ℕ :=
  if 2 * (4 * position % last) < last then 4 * position / last
  else if last < 2 * (4 * position % last) then 4 * position / last + 1
  else 4 * position / last + 4 * position / last % 2

theorem roundHalfEven_eq_roundedRole {position last : ℕ} (hpos : 0 < last) :
    roundHalfEven ((position : ℚ) * 4 / last) = roundedRole position last := by
  have hlast : (0 : ℚ) < last := by exact_mod_cast hpos
  have hdivmod : (4 * position / last : ℕ) * (last : ℚ) + (4 * position % last : ℕ) = position * 4 := by
    have hnat := Nat.div_add_mod (4 * position) last
    have hcast : ((last * (4 * position / last) + 4 * position % last : ℕ) : ℚ) = (4 * position : ℕ) := congrArg _ hnat
    push_cast at hcast ⊢
    linarith
  have hmod : (4 * position % last : ℕ) < last := Nat.mod_lt _ hpos
  have hmodCast : ((4 * position % last : ℕ) : ℚ) < last := by exact_mod_cast hmod
  have hvalue : (position : ℚ) * 4 / last = (4 * position / last : ℕ) + (4 * position % last : ℕ) / last := by
    rw [← hdivmod, add_div, mul_div_cancel_right₀ _ hlast.ne']
  have hfloor : ⌊(position : ℚ) * 4 / last⌋ = (4 * position / last : ℕ) := by
    rw [hvalue, Int.floor_natCast_add, Int.floor_eq_zero_iff.2 ⟨by positivity, (div_lt_one hlast).2 hmodCast⟩, add_zero]
  have hrest : (position : ℚ) * 4 / last - (4 * position / last : ℕ) = (4 * position % last : ℕ) / last := by
    rw [hvalue, add_sub_cancel_left]
  have hlow : ((4 * position % last : ℕ) : ℚ) / last < 1 / 2 ↔ 2 * (4 * position % last) < last := by
    rw [div_lt_div_iff₀ hlast two_pos, one_mul, mul_comm]
    exact_mod_cast Iff.rfl
  have hhigh : (1 : ℚ) / 2 < (4 * position % last : ℕ) / last ↔ last < 2 * (4 * position % last) := by
    rw [div_lt_div_iff₀ two_pos hlast, one_mul, mul_comm]
    exact_mod_cast Iff.rfl
  simp only [roundHalfEven, hfloor, Int.cast_natCast, hrest, hlow, hhigh, roundedRole]
  split_ifs <;> omega

theorem sceneArcRole_eq {position total : ℕ} (hmany : 1 < total) (hposition : position < total) :
    sceneArcRole (position + 1) total = roundedRole position (total - 1) := by
  have hmin : min (position + 1 - 1) (total - 1) = position := by omega
  have hfour : ((sceneArcCues.length - 1 : ℕ) : ℚ) = 4 := by norm_num [sceneArcCues]
  simp only [sceneArcRole, if_neg (show ¬total ≤ 1 by omega), hmin, hfour]
  rw [roundHalfEven_eq_roundedRole (show 0 < total - 1 by omega)]
  rfl

/-- The first eighth of an arc plays the first role. -/
theorem roundedRole_first {position last : ℕ} (hpos : 0 < last) (h : 8 * position ≤ last) :
    roundedRole position last = 0 := by
  have hdiv : 4 * position / last = 0 := Nat.div_eq_of_lt (by omega)
  have hmod : 4 * position % last = 4 * position := Nat.mod_eq_of_lt (by omega)
  simp only [roundedRole, hdiv, hmod]
  split_ifs <;> omega

/-- Seven scenes on, the role is another one in an arc of 29 scenes at most, and not always in a longer
one. -/
theorem roundedRole_add_seven : ∀ last < 56,
    if last ≤ 28 then ∀ position < last - 6, roundedRole position last ≠ roundedRole (position + 7) last
    else ∃ position < 17, roundedRole position last = roundedRole (position + 7) last := by
  decide +kernel

/-! ## Frames -/

/-- What an image prompt starts with. -/
def frame (shot role : ℕ) : Text := sceneShots.getD shot [] ++ ", ".toList ++ sceneArcCues.getD role []

/-- Shots differ in their first four characters, and so do cues. -/
theorem shots_and_cues : (∀ shot < 7, ((sceneShots.getD shot []).take 4).length = 4) ∧
    (∀ shot < 7, ∀ shot' < 7, (sceneShots.getD shot []).take 4 = (sceneShots.getD shot' []).take 4 → shot = shot') ∧
    ∀ role < 5, ∀ role' < 5, (sceneArcCues.getD role []).take 4 = (sceneArcCues.getD role' []).take 4 → role = role' := by
  decide +kernel

theorem take_frame {shot : ℕ} (h : shot < 7) (role : ℕ) : (frame shot role).take 4 = (sceneShots.getD shot []).take 4 := by
  have hlength := shots_and_cues.1 shot h
  rw [List.length_take] at hlength
  rw [frame, List.append_assoc, List.take_append_of_le_length (by omega)]

/-- A frame tells its shot and its role. -/
theorem frame_injective {shot shot' role role' : ℕ} (hshot : shot < 7) (hshot' : shot' < 7) (hrole : role < 5)
    (hrole' : role' < 5) (h : frame shot role = frame shot' role') : shot = shot' ∧ role = role' := by
  have htake := congrArg (List.take 4) h
  rw [take_frame hshot, take_frame hshot'] at htake
  have hsame := shots_and_cues.2.1 shot hshot shot' hshot' htake
  subst hsame
  exact ⟨rfl, shots_and_cues.2.2 role hrole role' hrole' (congrArg (List.take 4) (List.append_cancel_left h))⟩

/-- Two scenes have the same image prompt if and only if they share the shot and the role. -/
theorem sceneImagePrompt_eq_iff {subject mood : Text} {i j total : ℕ} (hmany : 1 < total) :
    sceneImagePrompt subject mood i total = sceneImagePrompt subject mood j total ↔
      (i - 1) % 7 = (j - 1) % 7 ∧ sceneArcRole i total = sceneArcRole j total := by
  have hseven : sceneShots.length = 7 := rfl
  have hcue (k : ℕ) : sceneCue k total = sceneArcCues.getD (sceneArcRole k total) [] := if_neg (by omega)
  constructor
  · intro h
    simp only [sceneImagePrompt, ← List.append_assoc, List.append_cancel_right_eq, sceneShot, hcue] at h
    have hi : sceneArcRole i total < 5 := sceneArcRole_lt i total
    have hj : sceneArcRole j total < 5 := sceneArcRole_lt j total
    exact frame_injective (Nat.mod_lt _ (by decide)) (Nat.mod_lt _ (by decide)) hi hj h
  · intro h
    simp only [sceneImagePrompt, sceneShot, hcue, hseven, h.1, h.2]

/-- Scenes that share the shot are seven scenes apart, or more. -/
theorem sceneImagePrompt_ne {subject mood : Text} {i j total : ℕ} (hle : total ≤ 29) (hij : i < j) (hj : j < total) :
    sceneImagePrompt subject mood (i + 1) total ≠ sceneImagePrompt subject mood (j + 1) total := by
  intro h
  have hmany : 1 < total := by omega
  rcases (sceneImagePrompt_eq_iff hmany).1 h with ⟨hshot, hrole⟩
  have hapart : i + 7 ≤ j := by omega
  have hnext : sceneArcRole (i + 1) total ≤ sceneArcRole (i + 7 + 1) total := sceneArcRole_mono (by omega) total
  have hlast : sceneArcRole (i + 7 + 1) total ≤ sceneArcRole (j + 1) total := sceneArcRole_mono (by omega) total
  have hseven := roundedRole_add_seven (total - 1) (by omega)
  rw [if_pos (by omega)] at hseven
  have hne := hseven i (by omega)
  rw [← sceneArcRole_eq hmany (by omega), ← sceneArcRole_eq hmany (by omega)] at hne
  omega

/-- Seven scenes have seven shots, however long the arc is. -/
theorem sceneImagePrompt_ne_of_lt {subject mood : Text} {i j : ℕ} (hij : i < j) (hj : j < 7) (total : ℕ) :
    sceneImagePrompt subject mood (i + 1) total ≠ sceneImagePrompt subject mood (j + 1) total := by
  intro h
  by_cases hmany : 1 < total
  · have hshot := ((sceneImagePrompt_eq_iff hmany).1 h).1
    omega
  · have hcue (k : ℕ) : sceneCue k total = singleSceneCue := if_pos (by omega)
    simp only [sceneImagePrompt, hcue, List.append_cancel_right_eq] at h
    have hframe : frame (i % 7) 0 = frame (j % 7) 0 :=
      congrArg (fun shot => shot ++ ", ".toList ++ sceneArcCues.getD 0 []) h
    have hsame := (frame_injective (Nat.mod_lt _ (by decide)) (Nat.mod_lt _ (by decide)) (by decide) (by decide) hframe).1
    omega

/-- Scenes all have different image prompts if there are seven at most, or if they are among the
scenes of an arc of 29 at most. -/
theorem nodup_sceneImagePrompts_range (subject mood : Text) {count total : ℕ}
    (h : count ≤ 7 ∨ count ≤ total ∧ total ≤ 29) :
    ((List.range count).map fun position => sceneImagePrompt subject mood (position + 1) total).Nodup := by
  refine List.Nodup.map_on ?_ List.nodup_range
  have hne (i j : ℕ) (hij : i < j) (hj : j < count) :
      sceneImagePrompt subject mood (i + 1) total ≠ sceneImagePrompt subject mood (j + 1) total := by
    rcases h with hseven | ⟨hcount, hle⟩
    · exact sceneImagePrompt_ne_of_lt hij (by omega) total
    · exact sceneImagePrompt_ne hle hij (by omega)
  intro i hi j hj h
  rw [List.mem_range] at hi hj
  rcases lt_trichotomy i j with hij | hij | hij
  · exact absurd h (hne i j hij hj)
  · exact hij
  · exact absurd h.symm (hne j i hij hi)

/-- In a longer arc some role lasts for eight of the first 24 scenes. -/
theorem exists_role_of_lt {total : ℕ} (hlt : 29 < total) : ∃ position < 17,
    sceneArcRole (position + 1) total = sceneArcRole (position + 7 + 1) total := by
  have hshort : ∃ position < 17, roundedRole position (total - 1) = roundedRole (position + 7) (total - 1) := by
    by_cases h : total < 57
    · have hseven := roundedRole_add_seven (total - 1) (by omega)
      rwa [if_neg (by omega)] at hseven
    · refine ⟨0, by omega, ?_⟩
      rw [roundedRole_first (by omega) (by omega), roundedRole_first (by omega) (by omega)]
  rcases hshort with ⟨position, hposition, hrole⟩
  refine ⟨position, hposition, ?_⟩
  rw [sceneArcRole_eq (by omega) (by omega), sceneArcRole_eq (by omega) (by omega), hrole]

/-- The scenes of an arc, 24 of them at most, all have different image prompts if and only if the arc
has 29 scenes at most. -/
theorem nodup_sceneImagePrompts (subject mood : Text) (total : ℕ) :
    ((List.range (min 24 total)).map fun position => sceneImagePrompt subject mood (position + 1) total).Nodup ↔
      total ≤ 29 := by
  constructor
  · intro hnodup
    by_contra hlt
    rcases exists_role_of_lt (not_le.mp hlt) with ⟨position, hposition, hrole⟩
    have hsame : sceneImagePrompt subject mood (position + 1) total =
        sceneImagePrompt subject mood (position + 7 + 1) total :=
      (sceneImagePrompt_eq_iff (by omega)).2 ⟨by omega, hrole⟩
    have heq := List.inj_on_of_nodup_map hnodup (List.mem_range.2 (show position < min 24 total by omega))
      (List.mem_range.2 (show position + 7 < min 24 total by omega)) hsame
    omega
  · intro hle
    exact nodup_sceneImagePrompts_range subject mood (.inr ⟨min_le_right _ _, hle⟩)

end CreativeStudio.Generators
