import CreativeStudio.Data.OrderedDict
import CreativeStudio.Schemas.Errors

/-!
# Frames of a moving source

A moving source is decoded forwards only. `get` keeps a few decoded frames, decodes on from
where the last request stopped, and starts again for a frame behind that; the number of frames
it believes in is corrected when the stream ends early.
-/

namespace CreativeStudio.Video
open Data

/-- What decoding a source yields, every time it is opened. -/
structure MovingSource (φ : Type) where
  path : String
  frames : List φ
  frames_ne_nil : frames ≠ []

/-- The decoded frame at an index, the last one behind the end. -/
def MovingSource.frame {φ : Type} (source : MovingSource φ) (index : ℕ) : φ :=
  source.frames.get ⟨min index (source.frames.length - 1), by
    have := List.length_pos_of_ne_nil source.frames_ne_nil
    omega⟩

/-- `_MovingSourceFrames`. The iterator is the number of frames it has yielded. -/
structure MovingSourceFrames (φ : Type) where
  frameCount : ℤ
  iterator : Option ℕ := none
  nextIndex : ℕ := 0
  lastFrame : Option φ := none
  cache : OrderedDict ℕ φ := []

namespace MovingSourceFrames
variable {φ : Type} (source : MovingSource φ) (bound : ℕ)

/-- `_restart`. -/
def restart (s : MovingSourceFrames φ) : MovingSourceFrames φ :=
  { s with iterator := some 0, nextIndex := 0, lastFrame := none }

/-- How the loop of `get` ends. -/
inductive Ending
  | done | stopIteration | raised (e : Exc)

/-- The loop of `get`, with as many turns to go as the target asks for. -/
def decode : ℕ → MovingSourceFrames φ → Ending × MovingSourceFrames φ
  | 0, s => (.done, s)
  | turns + 1, s =>
    match s.iterator with
    | none => (.raised (.value s!"Could not read frames from visual source {source.path}: "), s)
    | some position =>
      match source.frames[position]? with
      | none => (.stopIteration, s)
      | some frame => decode turns {
          frameCount := s.frameCount
          iterator := some (position + 1)
          nextIndex := s.nextIndex + 1
          lastFrame := some frame
          cache := ((s.cache.set s.nextIndex frame).moveToEnd s.nextIndex).trim bound }

/-- `get` once the target is known not to be in the cache. -/
def decodeTo (target : ℕ) (s : MovingSourceFrames φ) : Except Exc φ × MovingSourceFrames φ :=
  let s := if s.iterator.isNone ∨ target < s.nextIndex then s.restart else s
  match decode source bound (target + 1 - s.nextIndex) s with
  | (.stopIteration, s) =>
    let s := { s with frameCount := max 1 s.nextIndex }
    match s.lastFrame with
    | some frame => (.ok frame, s)
    | none => (.error (.value s!"Visual source contains no frames: {source.path}"), s)
  | (.raised e, s) => (.error e, s)
  | (.done, s) =>
    match s.cache.get? target with
    | some frame => (.ok frame, s)
    | none => (.error (.value s!"Could not decode frame {target} from {source.path}."), s)

/-- `get`. -/
def get (index : ℤ) (s : MovingSourceFrames φ) : Except Exc φ × MovingSourceFrames φ :=
  let target := (max 0 (min index (s.frameCount - 1))).toNat
  match s.cache.get? target with
  | some frame => (.ok frame, { s with cache := s.cache.moveToEnd target })
  | none => decodeTo source bound target s

/-- The answers to a sequence of requests. -/
def getAll (s : MovingSourceFrames φ) : List ℤ → List (Except Exc φ)
  | [] => []
  | index :: rest => (get source bound index s).1 :: getAll (get source bound index s).2 rest

/-! ## What is always true of the decoder -/

variable {source bound} {s : MovingSourceFrames φ}

/-- The decoder has read what it says it has: its cache holds frames of the source, and its
iterator stands behind its last frame. -/
structure Tracks (source : MovingSource φ) (s : MovingSourceFrames φ) : Prop where
  cache : s.cache.Holds fun index => source.frames[index]?
  position : ∀ position ∈ s.iterator, s.nextIndex = position
  decoded : s.nextIndex ≤ source.frames.length
  last : s.iterator.isSome → 0 < s.nextIndex → s.lastFrame = source.frames[s.nextIndex - 1]?

/-- The number of frames it believes in: at least one, and right as far as the source goes. -/
structure Counts (source : MovingSource φ) (count : ℕ) (s : MovingSourceFrames φ) : Prop where
  pos : 1 ≤ s.frameCount
  min : min s.frameCount source.frames.length = min (count : ℤ) source.frames.length

theorem Tracks.restart (h : s.Tracks source) : s.restart.Tracks source where
  cache := h.cache
  position _ hposition := Option.mem_some_iff.mp hposition
  decoded := Nat.zero_le _
  last _ hpos := absurd hpos (Nat.lt_irrefl 0)

/-- One frame more has been decoded. -/
theorem Tracks.next (h : s.Tracks source) {position : ℕ} (hiterator : s.iterator = some position) {frame : φ}
    (hframe : source.frames[position]? = some frame) (bound : ℕ) :
    Tracks source { s with
      iterator := some (position + 1)
      nextIndex := s.nextIndex + 1
      lastFrame := some frame
      cache := ((s.cache.set s.nextIndex frame).moveToEnd s.nextIndex).trim bound } := by
  obtain rfl := h.position position hiterator
  obtain ⟨hlt, -⟩ := List.getElem?_eq_some_iff.mp hframe
  exact {
    cache := ((h.cache.set hframe).moveToEnd _).trim bound
    position := fun _ hposition => Option.mem_some_iff.mp hposition
    decoded := hlt
    last := fun _ _ => hframe.symm }

/-- The loop decodes up to the target, which it then has in its cache, or up to the end of the
source, where it remembers the last frame. -/
theorem decode_spec (hbound : 1 ≤ bound) (turns : ℕ) (h : s.Tracks source) (hopen : s.iterator.isSome) :
    ∃ ending s', decode source bound turns s = (ending, s') ∧ s'.Tracks source ∧ s'.frameCount = s.frameCount ∧
      if s.nextIndex + turns ≤ source.frames.length then
        ending = .done ∧ (0 < turns → (s'.cache.get? (s.nextIndex + turns - 1)).isSome)
      else
        ending = .stopIteration ∧ s'.nextIndex = source.frames.length ∧
          s'.lastFrame = source.frames[source.frames.length - 1]? := by
  induction turns generalizing s with
  | zero =>
    refine ⟨.done, s, rfl, h, rfl, ?_⟩
    rw [Nat.add_zero, if_pos h.decoded]
    exact ⟨rfl, fun hpos => absurd hpos (Nat.lt_irrefl 0)⟩
  | succ turns ih =>
    obtain ⟨position, hiterator⟩ := Option.isSome_iff_exists.mp hopen
    obtain rfl := h.position position hiterator
    have hdecoded := h.decoded
    simp only [decode, hiterator]
    cases hframe : source.frames[s.nextIndex]? with
    | none =>
      have hend : s.nextIndex = source.frames.length := by
        have := List.getElem?_eq_none_iff.mp hframe
        omega
      refine ⟨.stopIteration, s, rfl, h, rfl, ?_⟩
      have hlast := h.last hopen (by
        have := List.length_pos_of_ne_nil source.frames_ne_nil
        omega)
      rw [if_neg (by omega), hlast, hend]
      exact ⟨rfl, rfl, rfl⟩
    | some frame =>
      obtain ⟨hlt, -⟩ := List.getElem?_eq_some_iff.mp hframe
      obtain ⟨ending, s', hrun, htracks, hcount, hend⟩ := ih (h.next hiterator hframe bound) rfl
      refine ⟨ending, s', hrun, htracks, hcount, ?_⟩
      simp only [show s.nextIndex + 1 + turns = s.nextIndex + (turns + 1) by omega] at hend
      split at hend
      next hle =>
        rw [if_pos hle]
        refine ⟨hend.1, fun _ => ?_⟩
        cases turns with
        | zero =>
          -- the frame of this turn is the target
          obtain ⟨-, rfl⟩ := Prod.mk.inj hrun
          exact OrderedDict.get?_trim_moveToEnd (OrderedDict.mem_set_self _ _ _) hbound
        | succ turns => exact hend.2 (Nat.succ_pos _)
      next hgt =>
        rw [if_neg hgt]
        exact hend

/-- The frame that a request is answered with, seen from the decoder. -/
theorem frame_eq_of_counts {count : ℕ} (hcounts : s.Counts source count) (index : ℤ) :
    source.frame (min (max index 0) (count - 1)).toNat =
      source.frame (max 0 (min index (s.frameCount - 1))).toNat := by
  have hpos := hcounts.pos
  have hmin := hcounts.min
  have hlength := List.length_pos_of_ne_nil source.frames_ne_nil
  have hplace : min (min (max index 0) (count - 1)).toNat (source.frames.length - 1) =
      min (max 0 (min index (s.frameCount - 1))).toNat (source.frames.length - 1) := by omega
  simp only [MovingSource.frame, hplace]

theorem getElem?_eq_some_frame {index : ℕ} (h : index < source.frames.length) :
    source.frames[index]? = some (source.frame index) := by
  have hplace : min index (source.frames.length - 1) = index := by omega
  simp [MovingSource.frame, hplace, h]

theorem frame_of_length_le {index : ℕ} (h : source.frames.length - 1 ≤ index) :
    source.frames[source.frames.length - 1]? = some (source.frame index) := by
  have hlength := List.length_pos_of_ne_nil source.frames_ne_nil
  have hplace : min index (source.frames.length - 1) = source.frames.length - 1 := by omega
  rw [List.getElem?_eq_getElem (by omega)]
  simp [MovingSource.frame, hplace]

theorem decodeTo_spec (hbound : 1 ≤ bound) {count target : ℕ} (h : s.Tracks source) (hcounts : s.Counts source count)
    (htarget : (target : ℤ) ≤ s.frameCount - 1) :
    ∃ s', decodeTo source bound target s = (.ok (source.frame target), s') ∧ s'.Tracks source ∧
      s'.Counts source count := by
  unfold decodeTo
  set opened := if s.iterator.isNone ∨ target < s.nextIndex then s.restart else s with hopened
  -- the iterator is open, and not behind the target
  have hready : opened.Tracks source ∧ opened.iterator.isSome ∧ opened.nextIndex ≤ target ∧
      opened.frameCount = s.frameCount := by
    rw [hopened]
    split
    next => exact ⟨h.restart, rfl, Nat.zero_le _, rfl⟩
    next hkeep =>
      rw [not_or, not_lt] at hkeep
      exact ⟨h, by simpa [Option.isSome_iff_ne_none] using hkeep.1, hkeep.2, rfl⟩
  obtain ⟨htracks, hopen, hbehind, hcount⟩ := hready
  obtain ⟨ending, s', hrun, htracks', hcount', hend⟩ :=
    decode_spec hbound (target + 1 - opened.nextIndex) htracks hopen
  rw [show opened.nextIndex + (target + 1 - opened.nextIndex) = target + 1 by omega] at hend
  simp only [hrun]
  split at hend
  next hle =>
    obtain ⟨rfl, hcached⟩ := hend
    obtain ⟨frame, hframe⟩ := Option.isSome_iff_exists.mp (hcached (by omega))
    rw [Nat.add_sub_cancel] at hframe
    have hheld := htracks'.cache.get? hframe
    rw [getElem?_eq_some_frame (by omega)] at hheld
    refine ⟨s', ?_, htracks', ?_⟩
    · simp only [hframe, Option.some.inj hheld]
    · rw [hcount] at hcount'
      exact ⟨hcount' ▸ hcounts.pos, hcount' ▸ hcounts.min⟩
  next hgt =>
    obtain ⟨rfl, hnext, hlast⟩ := hend
    have hlength := List.length_pos_of_ne_nil source.frames_ne_nil
    have hmin := hcounts.min
    rw [frame_of_length_le (by omega : source.frames.length - 1 ≤ target)] at hlast
    refine ⟨{ s' with frameCount := max 1 s'.nextIndex }, by simp only [hlast],
      ⟨htracks'.cache, htracks'.position, htracks'.decoded, htracks'.last⟩, ?_, ?_⟩
    · exact le_max_left _ _
    · -- the source has fewer frames than the metadata said
      simp only [hnext]
      omega

/-- One request: the answer is a frame of the source, and the decoder stays sound. -/
theorem get_spec (hbound : 1 ≤ bound) {count : ℕ} (h : s.Tracks source) (hcounts : s.Counts source count) (index : ℤ) :
    ∃ s', get source bound index s = (.ok (source.frame (min (max index 0) (count - 1)).toNat), s') ∧
      s'.Tracks source ∧ s'.Counts source count := by
  rw [frame_eq_of_counts hcounts index]
  have hpos := hcounts.pos
  have htarget : ((max 0 (min index (s.frameCount - 1))).toNat : ℤ) ≤ s.frameCount - 1 := by omega
  unfold get
  dsimp only
  split
  next frame hframe =>
    have hheld := h.cache.get? hframe
    obtain ⟨hlt, -⟩ := List.getElem?_eq_some_iff.mp hheld
    rw [getElem?_eq_some_frame hlt] at hheld
    refine ⟨{ s with cache := s.cache.moveToEnd (max 0 (min index (s.frameCount - 1))).toNat },
      by rw [Option.some.inj hheld], ?_, hcounts.pos, hcounts.min⟩
    exact ⟨h.cache.moveToEnd _, h.position, h.decoded, h.last⟩
  next => exact decodeTo_spec hbound h hcounts htarget

theorem getAll_eq (hbound : 1 ≤ bound) {count : ℕ} (h : s.Tracks source) (hcounts : s.Counts source count)
    (requests : List ℤ) :
    getAll source bound s requests =
      requests.map fun index => .ok (source.frame (min (max index 0) (count - 1)).toNat) := by
  induction requests generalizing s with
  | nil => rfl
  | cons index rest ih =>
    obtain ⟨s', hget, htracks, hcounts'⟩ := get_spec hbound h hcounts index
    rw [getAll, hget, ih htracks hcounts', List.map_cons]

/-- Every request in a sequence is answered with the decoded frame that it names, clamped to the
metadata and to what there is to decode, whatever was asked for before. -/
theorem decoder_refines_indexing (source : MovingSource φ) {bound count : ℕ} (hbound : 1 ≤ bound) (hcount : 1 ≤ count)
    (requests : List ℤ) :
    getAll source bound { frameCount := count } requests =
      requests.map fun index => .ok (source.frame (min (max index 0) (count - 1)).toNat) := by
  refine getAll_eq hbound ?_ ⟨Int.ofNat_le.mpr hcount, rfl⟩ requests
  exact ⟨fun _ hentry => absurd hentry List.not_mem_nil, fun _ hposition => absurd hposition (by simp),
    Nat.zero_le _, fun hopen => absurd hopen (by simp)⟩

/-- Three frames, of which the metadata promises five. -/
def shortSource : MovingSource ℕ where
  path := "clip.mp4"
  frames := [10, 11, 12]
  frames_ne_nil := List.cons_ne_nil _ _

theorem decoder_shortSource :
    getAll shortSource 1 { frameCount := 5 } [4, 0, 3, -1, 1] = [.ok 12, .ok 10, .ok 12, .ok 10, .ok 11] :=
  decoder_refines_indexing shortSource (le_refl 1) (by decide) [4, 0, 3, -1, 1]

end MovingSourceFrames
end CreativeStudio.Video
