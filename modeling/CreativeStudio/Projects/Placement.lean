import Mathlib.Data.Option.Basic
import Mathlib.Tactic.Basic

/-!
# Membership, abstractly

That a job is in a project is written down three times: in the document of the project, in
the row of the job, and in the assets of the job. This says what the three should agree on,
and that moving a job in all three places keeps them in agreement. It is about any kinds of
projects, jobs and assets.
-/

namespace CreativeStudio.Projects

/-- Who says what: the jobs that a project lists, the project that the row of a job names,
if there is a row, and the job of an asset with the project that the asset names. -/
@[ext]
structure Placement (π κ α : Type*) where
  lists : π → κ → Prop
  row : κ → Option (Option π)
  asset : α → Option (κ × Option π)

namespace Placement
variable {π κ α : Type*}

/-- The three places agree. -/
structure Consistent (m : Placement π κ α) : Prop where
  listed : ∀ {job project}, m.row job = some project → ∀ p, project = some p ↔ m.lists p job
  unique : ∀ {p q job}, m.lists p job → m.lists q job → p = q
  carried : ∀ {id job project}, m.asset id = some (job, project) → m.row job = some project

/-! ## Changes in one place -/

/-- A project lists one more job. -/
def enlist (m : Placement π κ α) (p : π) (job : κ) : Placement π κ α :=
  { m with lists := fun q other => m.lists q other ∨ (q = p ∧ other = job) }

/-- A project no longer lists a job. -/
def strike (m : Placement π κ α) (p : π) (job : κ) : Placement π κ α :=
  { m with lists := fun q other => m.lists q other ∧ ¬ (q = p ∧ other = job) }

/-- A project is gone. -/
def close (m : Placement π κ α) (p : π) : Placement π κ α :=
  { m with lists := fun q other => m.lists q other ∧ q ≠ p }

variable [DecidableEq κ]

/-- The row of a job names another project. -/
def assign (m : Placement π κ α) (job : κ) (project : Option π) : Placement π κ α :=
  { m with row := fun other => if other = job then (m.row other).map fun _ => project else m.row other }

/-- The assets of a job name another project. -/
def rebind (m : Placement π κ α) (job : κ) (project : Option π) : Placement π κ α :=
  { m with asset := fun id => (m.asset id).map fun entry =>
      if entry.1 = job then (entry.1, project) else entry }

/-- A job gets its row. -/
def enter (m : Placement π κ α) (job : κ) (project : Option π) : Placement π κ α :=
  { m with row := fun other => if other = job then some project else m.row other }

/-- A job gets its row, unless it has one. -/
def enroll (m : Placement π κ α) (job : κ) (project : Option π) : Placement π κ α :=
  if (m.row job).isSome then m else m.enter job project

/-! ## Changes in all places -/

/-- A job goes to a project, or to none. -/
def move (m : Placement π κ α) (job : κ) (project : Option π) : Placement π κ α where
  lists q other := if other = job then project = some q else m.lists q other
  row := (m.assign job project).row
  asset := (m.rebind job project).asset

/-- A project is deleted, and the jobs that it listed are in no project. -/
def dissolve (m : Placement π κ α) (p : π) (jobs : List κ) : Placement π κ α where
  lists q other := m.lists q other ∧ q ≠ p
  row other := if other ∈ jobs then (m.row other).map fun _ => none else m.row other
  asset id := (m.asset id).map fun entry => if entry.1 ∈ jobs then (entry.1, none) else entry

variable {m : Placement π κ α}

theorem Consistent.move (h : m.Consistent) (job : κ) (project : Option π) : (m.move job project).Consistent where
  listed {other next} hrow p := by
    simp only [Placement.move, assign] at hrow ⊢
    by_cases hother : other = job
    · subst hother
      simp only [if_true, Option.map_eq_some_iff] at hrow ⊢
      obtain ⟨_, _, rfl⟩ := hrow
      rfl
    · simp only [if_neg hother] at hrow ⊢
      exact h.listed hrow p
  unique {p q other} hp hq := by
    simp only [Placement.move] at hp hq
    split at hp
    · rw [if_pos ‹_›] at hq
      exact Option.some.inj (hp.symm.trans hq)
    · rw [if_neg ‹_›] at hq
      exact h.unique hp hq
  carried {id other next} hasset := by
    simp only [Placement.move, rebind, assign, Option.map_eq_some_iff] at hasset ⊢
    obtain ⟨⟨owner, current⟩, hfile, hentry⟩ := hasset
    have hrow := h.carried hfile
    split at hentry
    next howner =>
      cases hentry
      rw [if_pos howner, hrow, Option.map_some]
    next howner =>
      cases hentry
      rw [if_neg howner, hrow]

/-- The row of a new job agrees if the projects already list the job as it says. -/
theorem Consistent.enter {job : κ} {project : Option π} (h : m.Consistent) (hnew : m.row job = none)
    (hlisted : ∀ p, project = some p ↔ m.lists p job) : (m.enter job project).Consistent where
  listed {other next} hrow p := by
    simp only [Placement.enter] at hrow
    split at hrow
    next hother =>
      cases hrow
      rw [hother]
      exact hlisted p
    · exact h.listed hrow p
  unique := h.unique
  carried {id other next} hasset := by
    have hrow := h.carried hasset
    have hother : other ≠ job := by
      rintro rfl
      rw [hnew] at hrow
      cases hrow
    simp only [Placement.enter, if_neg hother, hrow]

omit [DecidableEq κ] in
/-- A job that nobody lists and that has no row, or is in the project anyway, can be listed. -/
theorem Consistent.enlist {p : π} {job : κ} (h : m.Consistent) (hrow : m.row job = none ∨ m.lists p job)
    (hnew : ∀ q, m.lists q job → q = p) : (m.enlist p job).Consistent where
  listed {other next} hother q := by
    rw [h.listed hother q]
    refine ⟨.inl, fun hlists => hlists.elim id ?_⟩
    rintro ⟨rfl, rfl⟩
    refine hrow.resolve_left fun hnone => ?_
    exact absurd (hnone.symm.trans hother) (by simp)
  unique {q q' other} hq hq' := by
    rcases hq with hq | ⟨rfl, rfl⟩ <;> rcases hq' with hq' | ⟨rfl, heq⟩
    · exact h.unique hq hq'
    · exact hnew q (heq ▸ hq)
    · exact (hnew q' hq').symm
    · rfl
  carried := h.carried

omit [DecidableEq κ] in
/-- Jobs that nobody else lists and that have no row can be listed. -/
theorem Consistent.enlistAll {p : π} {jobs : List κ} (h : m.Consistent)
    (hnew : ∀ job ∈ jobs, m.row job = none ∧ ∀ q, m.lists q job → q = p) :
    (jobs.foldl (fun m job => m.enlist p job) m).Consistent := by
  induction jobs generalizing m with
  | nil => exact h
  | cons job rest ih =>
    rw [List.forall_mem_cons] at hnew
    refine ih (h.enlist (.inl hnew.1.1) hnew.1.2) fun other hother => ?_
    refine ⟨(hnew.2 other hother).1, fun q hq => ?_⟩
    rcases hq with hq | ⟨rfl, -⟩
    · exact (hnew.2 other hother).2 q hq
    · rfl

omit [DecidableEq κ] in
theorem lists_enlistAll (m : Placement π κ α) (p q : π) (jobs : List κ) (job : κ) :
    (jobs.foldl (fun m job => m.enlist p job) m).lists q job ↔ m.lists q job ∨ (q = p ∧ job ∈ jobs) := by
  induction jobs generalizing m with
  | nil => simp
  | cons first rest ih =>
    rw [List.foldl_cons, ih, List.mem_cons]
    simp only [Placement.enlist]
    rw [or_assoc, ← and_or_left]

/-- Rows that agree with what the projects list can be added. -/
theorem Consistent.enrollAll {rows : List (κ × Option π)} (h : m.Consistent)
    (hlisted : ∀ entry ∈ rows, ∀ p, entry.2 = some p ↔ m.lists p entry.1) :
    (rows.foldl (fun m entry => m.enroll entry.1 entry.2) m).Consistent := by
  induction rows generalizing m with
  | nil => exact h
  | cons entry rest ih =>
    rw [List.forall_mem_cons] at hlisted
    rw [List.foldl_cons, enroll]
    split
    · exact ih h hlisted.2
    next hrow => exact ih (h.enter (by simpa using hrow) hlisted.1) hlisted.2

/-- A project that is dissolved lets go of the jobs that it lists. -/
theorem Consistent.dissolve {p : π} {jobs : List κ} (h : m.Consistent)
    (hjobs : ∀ job, m.lists p job ↔ job ∈ jobs) : (m.dissolve p jobs).Consistent where
  listed {job project} hrow q := by
    simp only [Placement.dissolve] at hrow ⊢
    split at hrow
    next hmem =>
      rw [Option.map_eq_some_iff] at hrow
      obtain ⟨_, _, rfl⟩ := hrow
      constructor
      · intro heq
        cases heq
      · intro hlists
        exact absurd (h.unique hlists.1 ((hjobs job).mpr hmem)) hlists.2
    next hmem =>
      rw [h.listed hrow q]
      refine ⟨fun hlists => ⟨hlists, ?_⟩, And.left⟩
      rintro rfl
      exact hmem ((hjobs job).mp hlists)
  unique hp hq := h.unique hp.1 hq.1
  carried {id job project} hasset := by
    simp only [Placement.dissolve, Option.map_eq_some_iff] at hasset ⊢
    obtain ⟨⟨owner, current⟩, hfile, hentry⟩ := hasset
    have hrow := h.carried hfile
    split at hentry
    next howner =>
      cases hentry
      rw [if_pos howner, hrow, Option.map_some]
    next howner =>
      cases hentry
      rw [if_neg howner, hrow]

/-! ## How a move comes about -/

/-- Leaving the current project, joining the next, and saying so in the row and in the
assets is a move. -/
theorem move_eq_of_struck {job : κ} {current : Option π} {p : π} (h : m.Consistent)
    (hrow : m.row job = some current) {struck : Placement π κ α}
    (hstruck : struck = m ∧ (current = none ∨ current = some p) ∨
      ∃ q, current = some q ∧ struck = m.strike q job) :
    ((struck.enlist p job).assign job (some p)).rebind job (some p) = m.move job (some p) := by
  have hlisted : ∀ q, m.lists q job ↔ current = some q := fun q => (h.listed hrow q).symm
  refine Placement.ext ?_ ?_ ?_
  · funext q other
    simp only [rebind, assign, Placement.enlist, Placement.move, Option.some_inj, eq_iff_iff]
    by_cases hother : other = job
    · subst hother
      rcases hstruck with ⟨rfl, rfl | rfl⟩ | ⟨q', rfl, rfl⟩ <;> simp [strike, hlisted, eq_comm]
    · rcases hstruck with ⟨rfl, -⟩ | ⟨q', -, rfl⟩ <;> simp [strike, hother]
  · rcases hstruck with ⟨rfl, -⟩ | ⟨q', -, rfl⟩ <;> rfl
  · rcases hstruck with ⟨rfl, -⟩ | ⟨q', -, rfl⟩ <;> rfl

/-- Leaving the current project for good is a move too. -/
theorem move_none_eq_of_struck {job : κ} {current : Option π} (h : m.Consistent)
    (hrow : m.row job = some current) {struck : Placement π κ α}
    (hstruck : struck = m ∧ current = none ∨ ∃ q, current = some q ∧ struck = m.strike q job) :
    (struck.assign job none).rebind job none = m.move job none := by
  have hlisted : ∀ q, m.lists q job ↔ current = some q := fun q => (h.listed hrow q).symm
  refine Placement.ext ?_ ?_ ?_
  · funext q other
    simp only [rebind, assign, Placement.move, eq_iff_iff]
    by_cases hother : other = job
    · subst hother
      rcases hstruck with ⟨rfl, rfl⟩ | ⟨q', rfl, rfl⟩ <;> simp [strike, hlisted, eq_comm]
    · rcases hstruck with ⟨rfl, -⟩ | ⟨q', -, rfl⟩ <;> simp [strike, hother]
  · rcases hstruck with ⟨rfl, -⟩ | ⟨q', -, rfl⟩ <;> rfl
  · rcases hstruck with ⟨rfl, -⟩ | ⟨q', -, rfl⟩ <;> rfl

/-- It is all the same whether rows are added before the projects list them or after. -/
theorem enlistAll_enrollAll (m : Placement π κ α) (p : π) (jobs : List κ) (rows : List (κ × Option π)) :
    jobs.foldl (fun m job => m.enlist p job) (rows.foldl (fun m entry => m.enroll entry.1 entry.2) m) =
      rows.foldl (fun m entry => m.enroll entry.1 entry.2) (jobs.foldl (fun m job => m.enlist p job) m) := by
  have hone : ∀ (m : Placement π κ α) (job : κ) (rows : List (κ × Option π)),
      (rows.foldl (fun m entry => m.enroll entry.1 entry.2) m).enlist p job =
        rows.foldl (fun m entry => m.enroll entry.1 entry.2) (m.enlist p job) := by
    intro m job rows
    induction rows generalizing m with
    | nil => rfl
    | cons entry rest ih =>
      rw [List.foldl_cons, List.foldl_cons, ih]
      congr 1
      by_cases hrow : (m.row entry.1).isSome <;> simp [enroll, Placement.enlist, Placement.enter, hrow]
  induction jobs generalizing m with
  | nil => rfl
  | cons job rest ih => rw [List.foldl_cons, List.foldl_cons, hone, ih]

/-- Letting the jobs go one after the other and closing the project dissolves it. -/
theorem dissolve_eq_close (m : Placement π κ α) (p : π) (jobs : List κ) :
    (jobs.foldl (fun m job => (m.assign job none).rebind job none) m).close p = m.dissolve p jobs := by
  induction jobs generalizing m with
  | nil =>
    refine Placement.ext rfl ?_ ?_
    · simp [close, dissolve]
    · simp [close, dissolve]
  | cons job rest ih =>
    rw [List.foldl_cons, ih]
    refine Placement.ext rfl ?_ ?_
    · funext other
      simp only [dissolve, rebind, assign, List.mem_cons]
      by_cases hother : other = job <;> by_cases hmem : other ∈ rest <;>
        simp [hother, hmem, Function.comp_def]
    · funext id
      simp only [dissolve, rebind, assign, List.mem_cons, Option.map_map]
      congr 1
      funext entry
      by_cases howner : entry.1 = job <;> simp [howner]

end Placement

end CreativeStudio.Projects
