import Mathlib.Data.List.Basic

/-!
# Runs of a step function

A step function says what an event does to a state, or that the event cannot happen there. A
run is a list of events. `holds_of_run` is the rule for invariants, and `countSteps_add_le` the
one for a potential: a quantity that pays for every step of a kind bounds how often that kind
occurs in a run.
-/

namespace CreativeStudio.Conc

variable {A S : Type} (step : A → S → Option S)

/-- The state that a run ends in. -/
def runSteps : List A → S → Option S
  | [], s => some s
  | a :: run, s => (step a s).bind (runSteps run)

/-- How many steps of a run are of the kind `P`. -/
def countSteps (P : S → S → Prop) [∀ s s', Decidable (P s s')] : List A → S → ℕ
  | [], _ => 0
  | a :: run, s => match step a s with
    | none => 0
    | some s' => (if P s s' then 1 else 0) + countSteps P run s'

/-- Every step of a run meets `P` in the state that it starts from. -/
def AllSteps (P : A → S → Prop) : List A → S → Prop
  | [], _ => True
  | a :: run, s => P a s ∧ match step a s with
    | none => True
    | some s' => AllSteps P run s'

@[simp] theorem runSteps_nil (s : S) : runSteps step [] s = some s := rfl

theorem runSteps_cons_eq_some {a : A} {run : List A} {s s' : S} :
    runSteps step (a :: run) s = some s' ↔ ∃ m, step a s = some m ∧ runSteps step run m = some s' := by
  simp only [runSteps, Option.bind_eq_some_iff]

theorem runSteps_append {run run' : List A} {s s' : S} :
    runSteps step (run ++ run') s = some s' ↔ ∃ m, runSteps step run s = some m ∧ runSteps step run' m = some s' := by
  induction run generalizing s with
  | nil => simp
  | cons a run ih =>
    simp only [List.cons_append, runSteps_cons_eq_some, ih]
    constructor
    · rintro ⟨m, hm, m', hrun, hrun'⟩
      exact ⟨m', ⟨m, hm, hrun⟩, hrun'⟩
    · rintro ⟨m', ⟨m, hm, hrun⟩, hrun'⟩
      exact ⟨m, hm, m', hrun, hrun'⟩

variable {step}

theorem holds_of_run {I : S → Prop} (hstep : ∀ a s s', I s → step a s = some s' → I s')
    {run : List A} {s s' : S} (hs : I s) (hrun : runSteps step run s = some s') : I s' := by
  induction run generalizing s with
  | nil =>
    simp only [runSteps_nil, Option.some.injEq] at hrun
    exact hrun ▸ hs
  | cons a run ih =>
    obtain ⟨m, hm, hrun⟩ := (runSteps_cons_eq_some step).1 hrun
    exact ih (hstep a s m hs hm) hrun

theorem holds_of_allSteps {I : S → Prop} {P : A → S → Prop}
    (hstep : ∀ a s s', I s → P a s → step a s = some s' → I s') {run : List A} {s s' : S} (hs : I s)
    (hall : AllSteps step P run s) (hrun : runSteps step run s = some s') : I s' := by
  induction run generalizing s with
  | nil =>
    simp only [runSteps_nil, Option.some.injEq] at hrun
    exact hrun ▸ hs
  | cons a run ih =>
    obtain ⟨m, hm, hrun⟩ := (runSteps_cons_eq_some step).1 hrun
    simp only [AllSteps, hm] at hall
    exact ih (hstep a s m hs hall.1 hm) hall.2 hrun

theorem countSteps_add_le {I : S → Prop} {P : S → S → Prop} [∀ s s', Decidable (P s s')] {φ : S → ℕ}
    (hstep : ∀ a s s', I s → step a s = some s' → I s' ∧ (if P s s' then 1 else 0) + φ s' ≤ φ s)
    {run : List A} {s s' : S} (hs : I s) (hrun : runSteps step run s = some s') :
    countSteps step P run s + φ s' ≤ φ s := by
  induction run generalizing s with
  | nil =>
    simp only [runSteps_nil, Option.some.injEq] at hrun
    simp [countSteps, hrun]
  | cons a run ih =>
    obtain ⟨m, hm, hrun⟩ := (runSteps_cons_eq_some step).1 hrun
    obtain ⟨hI, hpaid⟩ := hstep a s m hs hm
    have hrest := ih hI hrun
    simp only [countSteps, hm]
    omega

theorem countSteps_le {I : S → Prop} {P Q : S → S → Prop} [∀ s s', Decidable (P s s')] [∀ s s', Decidable (Q s s')]
    (hstep : ∀ a s s', I s → step a s = some s' → I s' ∧ (P s s' → Q s s')) {run : List A} {s : S} (hs : I s) :
    countSteps step P run s ≤ countSteps step Q run s := by
  induction run generalizing s with
  | nil => exact Nat.le_refl _
  | cons a run ih =>
    simp only [countSteps]
    cases hm : step a s with
    | none => exact Nat.le_refl _
    | some m =>
      obtain ⟨hI, hPQ⟩ := hstep a s m hs hm
      refine Nat.add_le_add ?_ (ih hI)
      split_ifs with hP hQ
      · exact Nat.le_refl _
      · exact absurd (hPQ hP) hQ
      all_goals exact Nat.zero_le _

end CreativeStudio.Conc
