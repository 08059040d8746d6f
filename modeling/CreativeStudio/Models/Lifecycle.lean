import Mathlib.Data.Nat.Basic
import Mathlib.Logic.Relation

/-!
# The life of a leased object

An object in a shared slot is loaded, handed out any number of times, perhaps declared
invalid, and torn down when nobody holds it. This is what may happen to one object, as an
automaton over the number of its leases. `Moves` is any number of turns of some kind. A spent
object is leased no more, and `rank` says how far it is from being gone.
-/

namespace CreativeStudio.Models

/-- Where an object is in its life. -/
inductive Slot
  | unmade
  | loading
  | ready (leases : ℕ)
  | invalid (leases : ℕ)
  | retiring
  | gone
  deriving DecidableEq, Repr

/-- What may happen to an object. -/
inductive Turn
  | reserve | install | publish | abort | pin | unpin | invalidate | retire | replace | finish
  deriving DecidableEq, Repr

/-- The turns that may end what a caller waits for. -/
def Turn.Frees (turn : Turn) : Prop := turn = .unpin ∨ turn = .finish

/-- The turns that are up to the caller that loads the object. -/
def Turn.Own (turn : Turn) : Prop := turn = .publish ∨ turn = .abort

/-- The turns that anybody may cause. -/
def Turn.Public (turn : Turn) : Prop := ¬ turn.Own ∧ turn ≠ .finish

/-- The turns that anybody may cause and that free nothing. -/
def Turn.Plain (turn : Turn) : Prop := ¬ turn.Frees ∧ ¬ turn.Own

theorem Turn.Plain.public {turn : Turn} (h : turn.Plain) : turn.Public :=
  ⟨h.2, fun hfinish => h.1 (.inr hfinish)⟩

namespace Slot

/-- The automaton. -/
def turn : Slot → Turn → Option Slot
  | unmade, .reserve => some loading
  | unmade, .install => some (ready 0)
  | loading, .publish => some (ready 1)
  | loading, .abort => some gone
  | ready n, .pin => some (ready (n + 1))
  | ready (n + 1), .unpin => some (ready n)
  | invalid (n + 1), .unpin => some (invalid n)
  | ready n, .invalidate => some (invalid n)
  | ready 0, .retire => some retiring
  | invalid 0, .retire => some retiring
  | ready 0, .replace => some gone
  | invalid 0, .replace => some gone
  | retiring, .finish => some gone
  | _, _ => none

/-- Any number of turns, all of the kind `P`. -/
def Moves (P : Turn → Prop) : Slot → Slot → Prop :=
  Relation.ReflTransGen fun slot slot' => ∃ move, P move ∧ slot.turn move = some slot'

/-- The leases on an object. -/
def leases : Slot → ℕ
  | ready n => n
  | invalid n => n
  | _ => 0

/-- The object stands in the way of a new one. -/
def Blocks (slot : Slot) : Prop := 0 < slot.leases ∨ slot = retiring

instance (slot : Slot) : Decidable slot.Blocks := inferInstanceAs (Decidable (_ ∨ _))

/-- The object can be given up for teardown. -/
def Idle (slot : Slot) : Prop := slot = ready 0 ∨ slot = invalid 0

/-- Somebody holds the object. -/
def Pinned (slot : Slot) : Prop := 0 < slot.leases

instance (slot : Slot) : Decidable slot.Pinned := inferInstanceAs (Decidable (_ < _))

/-- Something has been loaded into the object. -/
def Loaded (slot : Slot) : Prop := slot ≠ unmade ∧ slot ≠ loading

/-- The object is never handed out again. -/
def Spent : Slot → Prop
  | invalid _ | retiring | gone => True
  | _ => False

/-- How far a spent object is from being gone. -/
def rank : Slot → ℕ
  | invalid n => n + 2
  | retiring => 1
  | _ => 0

variable {slot slot' : Slot} {move : Turn} {P Q : Turn → Prop}

@[simp] theorem leases_ready (n : ℕ) : (ready n).leases = n := rfl
@[simp] theorem leases_invalid (n : ℕ) : (invalid n).leases = n := rfl
@[simp] theorem leases_retiring : retiring.leases = 0 := rfl
@[simp] theorem leases_gone : gone.leases = 0 := rfl
@[simp] theorem leases_loading : loading.leases = 0 := rfl
@[simp] theorem leases_unmade : unmade.leases = 0 := rfl

theorem Moves.refl : Moves P slot slot := Relation.ReflTransGen.refl

theorem Moves.of_eq (h : slot = slot') : Moves P slot slot' := h ▸ Moves.refl

theorem Moves.one (hmove : P move) (h : slot.turn move = some slot') : Moves P slot slot' :=
  Relation.ReflTransGen.single ⟨move, hmove, h⟩

theorem Moves.trans {slot₁ slot₂ slot₃ : Slot} (h : Moves P slot₁ slot₂) (h' : Moves P slot₂ slot₃) :
    Moves P slot₁ slot₃ :=
  Relation.ReflTransGen.trans h h'

theorem Moves.mono (hPQ : ∀ move, P move → Q move) (h : Moves P slot slot') : Moves Q slot slot' := by
  induction h with
  | refl => exact Moves.refl
  | tail _ hturn ih =>
    obtain ⟨move, hmove, hturn⟩ := hturn
    exact ih.trans (.one (hPQ move hmove) hturn)

theorem Idle.turn_retire (h : slot.Idle) : slot.turn .retire = some retiring := by
  rcases h with rfl | rfl <;> rfl

theorem Idle.turn_replace (h : slot.Idle) : slot.turn .replace = some gone := by
  rcases h with rfl | rfl <;> rfl

/-! ## Blocking -/

theorem blocks_of_turn (h : slot.turn move = some slot') (hmove : ¬ move.Frees) (hblocks : slot.Blocks) :
    slot'.Blocks := by
  cases slot with
  | unmade | loading | gone => exact absurd hblocks (by decide)
  | retiring => cases move <;> simp_all [turn, Turn.Frees]
  | ready n | invalid n =>
    have hn : 0 < n := by simpa [Blocks] using hblocks
    obtain ⟨m, rfl⟩ := Nat.exists_eq_add_one.2 hn
    cases move <;> simp_all [turn, Turn.Frees]
    all_goals subst h; simp [Blocks]

/-- An object goes on blocking as long as no lease ends and no teardown is over. -/
theorem Moves.blocks (h : Moves (fun move => ¬ move.Frees) slot slot') (hblocks : slot.Blocks) : slot'.Blocks := by
  induction h with
  | refl => exact hblocks
  | tail _ hturn ih =>
    obtain ⟨move, hmove, hturn⟩ := hturn
    exact blocks_of_turn hturn hmove ih

/-- An object stays leased as long as no lease ends. -/
theorem Moves.pinned (h : Moves (fun move => ¬ move.Frees) slot slot') (hpinned : slot.Pinned) : slot'.Pinned := by
  induction h with
  | refl => exact hpinned
  | @tail mid _ _ hturn ih =>
    obtain ⟨move, hmove, hturn⟩ := hturn
    cases mid with
    | unmade | loading | retiring | gone => exact absurd ih (by decide)
    | ready n | invalid n =>
      obtain ⟨m, rfl⟩ := Nat.exists_eq_add_one.2 (show 0 < n from ih)
      cases move <;> simp_all [turn, Turn.Frees]
      all_goals subst hturn; simp [Pinned]

theorem Pinned.not_idle (h : slot.Pinned) : ¬ slot.Idle := by
  rintro (rfl | rfl) <;> exact absurd h (by decide)

theorem Pinned.live (h : slot.Pinned) : slot ≠ gone ∧ slot ≠ unmade ∧ slot ≠ retiring := by
  refine ⟨?_, ?_, ?_⟩ <;> rintro rfl <;> exact absurd h (by decide)

theorem Pinned.loaded (h : slot.Pinned) : slot.Loaded := by
  refine ⟨h.live.2.1, ?_⟩
  rintro rfl
  exact absurd h (by decide)

/-- What is being loaded waits for its loader. -/
theorem Moves.loading (h : Moves (fun move => ¬ move.Own) slot slot') (hslot : slot = .loading) : slot' = .loading := by
  induction h with
  | refl => exact hslot
  | tail _ hturn ih =>
    obtain ⟨move, hmove, hturn⟩ := hturn
    subst ih
    cases move <;> simp_all [turn, Turn.Own]

/-- What is being torn down waits for whoever tears it down. -/
theorem Moves.retiring (h : Moves (fun move => move ≠ .finish) slot slot') (hslot : slot = .retiring) :
    slot' = .retiring := by
  induction h with
  | refl => exact hslot
  | tail _ hturn ih =>
    obtain ⟨move, hmove, hturn⟩ := hturn
    subst ih
    cases move <;> simp_all [turn]

theorem Loaded.turn (hslot : slot.Loaded) (h : slot.turn move = some slot') : slot'.Loaded := by
  cases slot with
  | unmade => exact absurd rfl hslot.1
  | loading => exact absurd rfl hslot.2
  | gone | retiring =>
    cases move <;> simp [Slot.turn] at h
    try exact h ▸ ⟨by simp, by simp⟩
  | ready n | invalid n =>
    rcases n with - | n <;> cases move <;> simp [Slot.turn] at h
    all_goals exact h ▸ ⟨by simp, by simp⟩

theorem Moves.loaded (h : Moves P slot slot') (hslot : slot.Loaded) : slot'.Loaded := by
  induction h with
  | refl => exact hslot
  | tail _ hturn ih =>
    obtain ⟨move, -, hturn⟩ := hturn
    exact ih.turn hturn

theorem Moves.gone (h : Moves P slot slot') (hslot : slot = .gone) : slot' = .gone := by
  induction h with
  | refl => exact hslot
  | tail _ hturn ih =>
    obtain ⟨move, -, hturn⟩ := hturn
    subst ih
    cases move <;> simp [turn] at hturn

/-! ## Spent objects -/

theorem Spent.turn (hspent : slot.Spent) (h : slot.turn move = some slot') :
    slot'.Spent ∧ slot'.rank ≤ slot.rank ∧ slot'.leases ≤ slot.leases := by
  cases slot with
  | unmade | loading | ready n => exact absurd hspent id
  | gone => cases move <;> simp [Slot.turn] at h
  | retiring =>
    cases move <;> simp [Slot.turn] at h
    subst h
    exact ⟨trivial, by decide, by decide⟩
  | invalid n =>
    rcases n with - | n <;> cases move <;> simp [Slot.turn] at h
    all_goals
      subst h
      exact ⟨trivial, by simp [rank], by simp⟩

/-- A spent object stays spent, comes no further from being gone, and is not leased again. -/
theorem Spent.moves (hspent : slot.Spent) (h : Moves P slot slot') :
    slot'.Spent ∧ slot'.rank ≤ slot.rank ∧ slot'.leases ≤ slot.leases := by
  induction h with
  | refl => exact ⟨hspent, le_refl _, le_refl _⟩
  | tail _ hturn ih =>
    obtain ⟨move, -, hturn⟩ := hturn
    obtain ⟨hmid, hrank, hleases⟩ := ih
    obtain ⟨hspent', hrank', hleases'⟩ := hmid.turn hturn
    exact ⟨hspent', le_trans hrank' hrank, le_trans hleases' hleases⟩

theorem Spent.rank_le_one (hspent : slot.Spent) : slot.rank ≤ 1 ↔ slot = retiring ∨ slot = gone := by
  cases slot with
  | unmade | loading | ready n => exact absurd hspent id
  | retiring | gone => simp [rank]
  | invalid n => simp [rank]

/-- A spent object that starts to block is given up for teardown. -/
theorem Spent.retiring_of_blocks (hspent : slot.Spent) (h : Moves P slot slot') (hfree : ¬ slot.Blocks)
    (hblocks : slot'.Blocks) : slot = invalid 0 ∧ slot' = retiring := by
  obtain ⟨-, hrank, hleases⟩ := hspent.moves h
  have hnone : slot.leases = 0 := by
    by_contra hsome
    exact hfree (.inl (Nat.pos_of_ne_zero hsome))
  have hretiring : slot' = retiring := hblocks.resolve_left (by omega)
  subst hretiring
  cases slot with
  | unmade | loading | ready n => exact absurd hspent id
  | gone => simp [rank] at hrank
  | retiring => exact absurd (.inr rfl) hfree
  | invalid n => exact ⟨by simp_all, rfl⟩

end Slot

end CreativeStudio.Models
