import Mathlib.Data.List.Nodup

/-!
# Read, change, replace

A file that several calls share. A call reads the whole file, and if what it computes from
it is to be written, replaces the whole file in a later step. Between the two, other calls
may read and replace. When no call replaces a file that has changed since it read it, the
calls that have returned are as good as served one after the other.
-/

namespace CreativeStudio.Conc

/-- Where a call is: not begun, about to replace what it has read, or returned. -/
inductive Phase (α : Type*)
  | called
  | loaded (seen : α)
  | returned
  deriving DecidableEq, Repr

/-- One access to the file, by the call with the index. -/
inductive Access
  | get (call : ℕ)
  | save (call : ℕ)
  deriving DecidableEq, Repr

/-- The file, and where every call is. -/
structure Desk (α : Type*) where
  file : α
  phases : ℕ → Phase α

namespace Desk
variable {α κ : Type*} (edit : κ → α → Option α) (calls : List κ)

/-- The file, before any call has begun. -/
def opened (file : α) : Desk α := ⟨file, fun _ => .called⟩

/-- A call moves on. -/
def move (desk : Desk α) (call : ℕ) (phase : Phase α) : Desk α :=
  { desk with phases := fun other => if other = call then phase else desk.phases other }

/-- One access; `none` if the call is not there. `edit` says what a call writes over what
it has read, if anything. -/
def step (desk : Desk α) : Access → Option (Desk α)
  | .get i => match calls[i]?, desk.phases i with
    | some call, .called =>
      if (edit call desk.file).isSome then some (desk.move i (.loaded desk.file))
      else some (desk.move i .returned)
    | _, _ => none
  | .save i => match calls[i]?, desk.phases i with
    | some call, .loaded seen =>
      some { desk.move i .returned with file := (edit call seen).getD desk.file }
    | _, _ => none

/-- A sequence of accesses. -/
def run (desk : Desk α) : List Access → Option (Desk α)
  | [] => some desk
  | access :: rest => (desk.step edit calls access).bind fun next => run next rest

/-- A call that replaces the file finds it as it read it. -/
def Fresh (desk : Desk α) : Access → Prop
  | .get _ => True
  | .save i => ∀ seen, desk.phases i = .loaded seen → desk.file = seen

/-- Every replacement of the run is fresh. -/
def FreshRun (desk : Desk α) : List Access → Prop
  | [] => True
  | access :: rest => desk.Fresh access ∧
    ∀ next, desk.step edit calls access = some next → FreshRun next rest

/-- Serve a call in one go. -/
def serve (file : α) (i : ℕ) : α := ((calls[i]?).bind fun call => edit call file).getD file

/-- The file is as if the calls that have returned had been served one after the other. -/
def Serial (file : α) (desk : Desk α) : Prop :=
  ∃ order : List ℕ, order.Nodup ∧ (∀ i, i ∈ order ↔ desk.phases i = .returned) ∧
    desk.file = order.foldl (serve edit calls) file

variable {edit calls}

theorem phases_move (desk : Desk α) (i j : ℕ) (phase : Phase α) :
    (desk.move i phase).phases j = if j = i then phase else desk.phases j := rfl

/-- One fresh access keeps the calls in a serial order. -/
theorem Serial.step {file : α} {desk next : Desk α} {access : Access} (h : Serial edit calls file desk)
    (hfresh : desk.Fresh access) (hstep : desk.step edit calls access = some next) :
    Serial edit calls file next := by
  obtain ⟨order, hnodup, hreturned, hfile⟩ := h
  -- a call that returns now is the next one in the order
  have happend (i : ℕ) (served : α) (hopen : desk.phases i ≠ .returned)
      (hserve : served = serve edit calls desk.file i) :
      Serial edit calls file { desk.move i .returned with file := served } := by
    have hnot : i ∉ order := fun hmem => hopen ((hreturned i).mp hmem)
    refine ⟨order ++ [i], ?_, fun j => ?_, ?_⟩
    · rw [List.nodup_append]
      refine ⟨hnodup, by simp, ?_⟩
      rintro j hj k hk rfl
      exact hnot (List.mem_singleton.mp hk ▸ hj)
    · rw [List.mem_append, List.mem_singleton, hreturned, phases_move]
      split
      next heq => simp [heq]
      next hne => simp [hne]
    · rw [List.foldl_append, ← hfile]
      exact hserve
  cases access with
  | get i =>
    simp only [Desk.step] at hstep
    split at hstep
    next call hcall hphase =>
      have hopen : desk.phases i ≠ .returned := by rw [hphase]; simp
      split at hstep
      next hsome =>
        cases hstep
        refine ⟨order, hnodup, fun j => ?_, hfile⟩
        rw [hreturned, phases_move]
        split
        next heq => simp [heq, hphase]
        · rfl
      next hnone =>
        cases hstep
        refine happend i desk.file hopen ?_
        rw [serve, hcall, Option.bind_some, Option.not_isSome_iff_eq_none.mp hnone, Option.getD_none]
    · cases hstep
  | save i =>
    simp only [Desk.step] at hstep
    split at hstep
    next call seen hcall hphase =>
      cases hstep
      refine happend i _ (by rw [hphase]; simp) ?_
      rw [← hfresh seen hphase, serve, hcall, Option.bind_some]
    · cases hstep

/-- In a run whose replacements are fresh, the calls that have returned have a serial order. -/
theorem Serial.run {file : α} {desk final : Desk α} {accesses : List Access}
    (h : Serial edit calls file desk) (hfresh : desk.FreshRun edit calls accesses)
    (hrun : desk.run edit calls accesses = some final) : Serial edit calls file final := by
  induction accesses generalizing desk with
  | nil =>
    cases hrun
    exact h
  | cons access rest ih =>
    obtain ⟨next, hstep, hrest⟩ := Option.bind_eq_some_iff.mp hrun
    exact ih (h.step hfresh.1 hstep) (hfresh.2 next hstep) hrest

theorem serial_opened (file : α) : Serial edit calls file (opened file) :=
  ⟨[], List.nodup_nil, by simp [opened], rfl⟩

end Desk

end CreativeStudio.Conc
