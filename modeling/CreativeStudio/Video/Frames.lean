import CreativeStudio.Data.Text
import Mathlib.Algebra.Order.Field.Rat
import Mathlib.Tactic.Positivity
import Mathlib.Tactic.Linarith

/-!
# The frames of a delivery

Clips are rendered one after the other. A crossfade blends the last frames of a clip with
the first frames of the next one, in place: the next clip still plays in full. The frames
rendered for a blend are carried over, so that none is rendered twice, and may be part of
the next blend when a clip is as short as its fades.
-/

namespace CreativeStudio.Video
open Data

/-- `_Clip`. -/
structure Clip (σ : Type) where
  sceneId : String
  source : σ
  frameCount : ℕ
  transition : String
  motion : String

/-- Decoding, cropping and blending images, at one size. -/
structure Renderer (σ ι φ : Type) where
  /-- `sources.frame_count`. -/
  sourceFrameCount : σ → ℕ
  /-- `sources.get`. -/
  get : σ → ℤ → ι
  /-- `_compose_frame`, of an image, a motion and a progress. -/
  composeFrame : ι → String → ℚ → φ
  /-- `Image.blend`. -/
  blend : φ → φ → ℚ → φ

section
variable {σ ι φ : Type} (renderer : Renderer σ ι φ) (fps : ℕ)

/-- The body of the loop of `_iter_clip_frames`: the frame of a clip at an index. -/
def clipFrame (clip : Clip σ) (index : ℕ) : φ :=
  let lastSourceIndex : ℤ := renderer.sourceFrameCount clip.source - 1
  let progress : ℚ := if 1 < clip.frameCount then index / (clip.frameCount - 1) else 0
  let sourceIndex := if lastSourceIndex ≠ 0 then roundHalfEven (progress * lastSourceIndex) else 0
  renderer.composeFrame (renderer.get clip.source sourceIndex) clip.motion progress

/-- `_iter_clip_frames`. -/
def iterClipFrames (clip : Clip σ) (start : ℕ) (limit : Option ℕ) : List φ :=
  let stop := match limit with
    | none => clip.frameCount
    | some limit => min clip.frameCount (start + limit)
  (List.range' start (stop - start)).map (clipFrame renderer clip)

/-- `_fade_frames`, of a clip and the clips after it. -/
def fadeFrames (clip : Clip σ) : List (Clip σ) → ℕ
  | [] => 0
  | next :: _ => if clip.transition ≠ "crossfade" then 0 else min (fps / 2) (min clip.frameCount next.frameCount)

/-- How much of the next clip a blend has. -/
def blendWeight (fade offset : ℕ) : ℚ := (offset + 1) / (fade + 1)

/-- The blends of a clip's last frames with the next clip's first ones. -/
def blendFrames (fade : ℕ) (tail nextHead : List φ) : List φ :=
  (tail.zip nextHead).zipIdx.map fun item => renderer.blend item.1.1 item.1.2 (blendWeight fade item.2)

/-- The loop of `_iter_frames`, with the frames carried over from the clip before. -/
def iterFrames (carried : List φ) : List (Clip σ) → List φ
  | [] => []
  | clip :: rest =>
    let fade := fadeFrames fps clip rest
    let tailStart := clip.frameCount - fade
    let rendered := carried ++ iterClipFrames renderer clip carried.length none
    let tail := rendered.drop tailStart
    rendered.take tailStart ++
      match rest with
      -- no clip follows, so there is no fade
      | [] => tail
      | next :: _ =>
        if fade = 0 then tail ++ iterFrames [] rest
        else
          let nextHead := iterClipFrames renderer next 0 (some fade)
          blendFrames renderer fade tail nextHead ++ iterFrames nextHead rest

/-! ## What is delivered -/

/-- The frames of a clip that are shown as they are, and its blends with the next clip. -/
def deliveredClip (clip : Clip σ) (rest : List (Clip σ)) : List φ :=
  let fade := fadeFrames fps clip rest
  (List.range (clip.frameCount - fade)).map (clipFrame renderer clip) ++
    match rest with
    | [] => []
    | next :: _ => (List.range fade).map fun offset =>
        renderer.blend (clipFrame renderer clip (clip.frameCount - fade + offset)) (clipFrame renderer next offset)
          (blendWeight fade offset)

/-- The frames of all clips, in order. -/
def delivered : List (Clip σ) → List φ
  | [] => []
  | clip :: rest => deliveredClip renderer fps clip rest ++ delivered rest

variable {renderer fps} {clip next : Clip σ} {rest clips : List (Clip σ)}

theorem fadeFrames_le (fps : ℕ) (clip : Clip σ) (rest : List (Clip σ)) : fadeFrames fps clip rest ≤ clip.frameCount := by
  cases rest with
  | nil => exact Nat.zero_le _
  | cons next rest =>
    simp only [fadeFrames]
    split <;> omega

theorem fadeFrames_le_next (fps : ℕ) (clip next : Clip σ) (rest : List (Clip σ)) :
    fadeFrames fps clip (next :: rest) ≤ next.frameCount := by
  simp only [fadeFrames]
  split <;> omega

/-- With the first frames of a clip carried over, all its frames are rendered once. -/
theorem carried_append (renderer : Renderer σ ι φ) {count : ℕ} (h : count ≤ clip.frameCount) :
    (List.range count).map (clipFrame renderer clip) ++ iterClipFrames renderer clip count none =
      (List.range clip.frameCount).map (clipFrame renderer clip) := by
  rw [iterClipFrames, ← List.map_append, List.range_eq_range', List.range_eq_range']
  have hsplit := @List.range'_append_1 0 count (clip.frameCount - count)
  rw [Nat.zero_add, Nat.add_sub_cancel' h] at hsplit
  rw [hsplit]

theorem iterClipFrames_some {fade : ℕ} (h : fade ≤ clip.frameCount) :
    iterClipFrames renderer clip 0 (some fade) = (List.range fade).map (clipFrame renderer clip) := by
  rw [iterClipFrames, List.range_eq_range', Nat.zero_add, Nat.min_eq_right h, Nat.sub_zero]

/-- The frames of a clip from an index on. -/
theorem drop_map_range (f : ℕ → φ) {fade count : ℕ} (h : fade ≤ count) :
    ((List.range count).map f).drop (count - fade) = (List.range fade).map fun offset => f (count - fade + offset) := by
  apply List.ext_getElem
  · simp only [List.length_drop, List.length_map, List.length_range]
    omega
  · intro offset hleft hright
    simp

theorem blendFrames_eq {fade : ℕ} (f g : ℕ → φ) :
    blendFrames renderer fade ((List.range fade).map f) ((List.range fade).map g) =
      (List.range fade).map fun offset => renderer.blend (f offset) (g offset) (blendWeight fade offset) := by
  apply List.ext_getElem
  · simp [blendFrames]
  · intro offset hleft hright
    simp [blendFrames]

/-- What is carried into a clip is its first frames, and so is what is carried out of it. -/
theorem iterFrames_carried {count : ℕ} (h : count ≤ clip.frameCount) :
    iterFrames renderer fps ((List.range count).map (clipFrame renderer clip)) (clip :: rest) =
      delivered renderer fps (clip :: rest) := by
  induction rest generalizing clip count with
  | nil =>
    rw [iterFrames, delivered, deliveredClip, List.length_map, List.length_range, carried_append renderer h]
    simp [fadeFrames, delivered]
  | cons next rest ih =>
    have hfade := fadeFrames_le fps clip (next :: rest)
    have hnext := fadeFrames_le_next fps clip next rest
    have hrendered := carried_append renderer h
    rw [iterFrames, List.length_map, List.length_range, hrendered, delivered, deliveredClip]
    simp only
    generalize fadeFrames fps clip (next :: rest) = fade at hfade hnext ⊢
    rw [← List.map_take, List.take_range, Nat.min_eq_left (Nat.sub_le _ _), drop_map_range _ hfade,
      List.append_assoc]
    congr 1
    by_cases hzero : fade = 0
    · rw [if_pos hzero, hzero]
      exact congrArg _ (ih (Nat.zero_le _))
    · rw [if_neg hzero, iterClipFrames_some hnext, blendFrames_eq, ih hnext]

/-- What is yielded is every clip's frames, each blended or not, in order. -/
theorem iterFrames_eq_delivered (clips : List (Clip σ)) :
    iterFrames renderer fps [] clips = delivered renderer fps clips := by
  cases clips with
  | nil => rfl
  | cons clip rest => exact iterFrames_carried (Nat.zero_le clip.frameCount)

@[simp] theorem length_deliveredClip (clip : Clip σ) (rest : List (Clip σ)) :
    (deliveredClip renderer fps clip rest).length = clip.frameCount := by
  have hfade := fadeFrames_le fps clip rest
  cases rest with
  | nil => simp [deliveredClip, fadeFrames]
  | cons next rest =>
    simp only [deliveredClip, List.length_append, List.length_map, List.length_range]
    omega

theorem length_delivered (clips : List (Clip σ)) :
    (delivered renderer fps clips).length = (clips.map Clip.frameCount).sum := by
  induction clips with
  | nil => rfl
  | cons clip rest ih => rw [delivered, List.length_append, length_deliveredClip, ih, List.map_cons, List.sum_cons]

theorem blendWeight_pos (fade offset : ℕ) : 0 < blendWeight fade offset := by
  unfold blendWeight
  positivity

theorem blendWeight_lt_one {fade offset : ℕ} (h : offset < fade) : blendWeight fade offset < 1 := by
  have hlt : (offset : ℚ) < fade := by exact_mod_cast h
  rw [blendWeight, div_lt_one (by positivity)]
  linarith

theorem blendWeight_strictMono (fade : ℕ) : StrictMono (blendWeight fade) := by
  intro first second h
  have hlt : (first : ℚ) < second := by exact_mod_cast h
  rw [blendWeight, blendWeight, div_lt_div_iff_of_pos_right (by positivity)]
  linarith

/-- The last clip plays in full, without a blend of its own. -/
theorem delivered_concat_suffix (init : List (Clip σ)) (last : Clip σ) :
    (List.range last.frameCount).map (clipFrame renderer last) <:+ delivered renderer fps (init ++ [last]) := by
  induction init with
  | nil => simp [delivered, deliveredClip, fadeFrames]
  | cons clip rest ih =>
    rw [List.cons_append, delivered]
    exact ih.trans (List.suffix_append _ _)

/-- Crossfades neither lose nor add frames: each clip is delivered frame by frame up to its
fade, followed by the blends of its last frames with the next clip's first ones. -/
theorem crossfade_conserves (renderer : Renderer σ ι φ) (fps : ℕ) (clips : List (Clip σ)) :
    iterFrames renderer fps [] clips = delivered renderer fps clips ∧
      (iterFrames renderer fps [] clips).length = (clips.map Clip.frameCount).sum ∧
      (∀ init last, clips = init ++ [last] →
        (List.range last.frameCount).map (clipFrame renderer last) <:+ iterFrames renderer fps [] clips) ∧
      ∀ fade, StrictMono (blendWeight fade) ∧
        ∀ offset < fade, 0 < blendWeight fade offset ∧ blendWeight fade offset < 1 := by
  rw [iterFrames_eq_delivered]
  refine ⟨rfl, length_delivered clips, ?_, fun fade => ⟨blendWeight_strictMono fade, fun offset h => ?_⟩⟩
  · rintro init last rfl
    exact delivered_concat_suffix init last
  · exact ⟨blendWeight_pos fade offset, blendWeight_lt_one h⟩

end

end CreativeStudio.Video
