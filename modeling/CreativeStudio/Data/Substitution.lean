import Mathlib.Data.List.Infix

/-!
# Replacing every occurrence of a pattern

Occurrences are found from left to right and do not overlap. Where the pattern and its replacement have
nothing in common, no occurrence is left, and whatever has nothing in common with the replacement occurs
in the result only if it did before.
-/

namespace CreativeStudio.Data

variable {α : Type}

/-- A list that has no element of another one and occurs in their concatenation, occurs behind it. -/
theorem infix_of_infix_append {other first rest : List α} (hne : other ≠ []) (hdisjoint : ∀ c ∈ other, c ∉ first)
    (h : other <:+: first ++ rest) : other <:+: rest := by
  induction first with
  | nil => exact h
  | cons c first ih =>
    rw [List.cons_append] at h
    rcases List.infix_cons_iff.mp h with hbegins | hinfix
    · obtain ⟨d, others, rfl⟩ := List.exists_cons_of_ne_nil hne
      obtain ⟨rfl, -⟩ := List.cons_prefix_cons.mp hbegins
      exact absurd List.mem_cons_self (hdisjoint d List.mem_cons_self)
    · exact ih (fun d hd hmem => hdisjoint d hd (List.mem_cons_of_mem _ hmem)) hinfix

variable [DecidableEq α]

/-- The text with the pattern replaced, after `skip` more elements of an occurrence. -/
def replaceFrom (pattern replacement : List α) : ℕ → List α → List α
  | _, [] => []
  | skip + 1, _ :: rest => replaceFrom pattern replacement skip rest
  | 0, c :: rest =>
    if pattern <+: c :: rest then replacement ++ replaceFrom pattern replacement (pattern.length - 1) rest
    else c :: replaceFrom pattern replacement 0 rest

/-- The text with every occurrence of a pattern replaced; the pattern is not empty. -/
def replaceAll (pattern replacement text : List α) : List α := replaceFrom pattern replacement 0 text

section
variable {pattern replacement text other : List α}

/-- What the result begins with, the text began with. -/
theorem prefix_of_prefix_replaceFrom (hreplacement : replacement ≠ []) (hdisjoint : ∀ c ∈ other, c ∉ replacement)
    (h : other <+: replaceFrom pattern replacement 0 text) : other <+: text := by
  induction text generalizing other with
  | nil => exact h
  | cons c rest ih =>
    rcases other with _ | ⟨d, others⟩
    · exact List.nil_prefix
    · rw [replaceFrom] at h
      split at h
      next =>
        obtain ⟨e, more, rfl⟩ := List.exists_cons_of_ne_nil hreplacement
        rw [List.cons_append] at h
        obtain ⟨rfl, -⟩ := List.cons_prefix_cons.mp h
        exact absurd List.mem_cons_self (hdisjoint d List.mem_cons_self)
      next =>
        obtain ⟨rfl, hrest⟩ := List.cons_prefix_cons.mp h
        exact List.cons_prefix_cons.mpr ⟨rfl, ih (fun e he => hdisjoint e (List.mem_cons_of_mem _ he)) hrest⟩

/-- What occurs in the result and has nothing in common with the replacement, occurred in the text. -/
theorem infix_of_infix_replaceFrom (hreplacement : replacement ≠ []) (hne : other ≠ [])
    (hdisjoint : ∀ c ∈ other, c ∉ replacement) {skip : ℕ}
    (h : other <:+: replaceFrom pattern replacement skip text) : other <:+: text := by
  induction text generalizing skip with
  | nil =>
    cases skip <;> exact h
  | cons c rest ih =>
    cases skip with
    | succ skip => exact (ih h).trans (List.infix_cons List.infix_rfl)
    | zero =>
      rw [replaceFrom] at h
      split at h
      next => exact (ih (infix_of_infix_append hne hdisjoint h)).trans (List.infix_cons List.infix_rfl)
      next hkept =>
        rcases List.infix_cons_iff.mp h with hbegins | hinfix
        · have hfirst : other <+: replaceFrom pattern replacement 0 (c :: rest) := by
            rw [replaceFrom, if_neg hkept]
            exact hbegins
          exact (prefix_of_prefix_replaceFrom hreplacement hdisjoint hfirst).isInfix
        · exact (ih hinfix).trans (List.infix_cons List.infix_rfl)

/-- No occurrence of the pattern is left. -/
theorem not_infix_replaceFrom (hreplacement : replacement ≠ []) (hpattern : pattern ≠ [])
    (hdisjoint : ∀ c ∈ pattern, c ∉ replacement) {skip : ℕ} :
    ¬pattern <:+: replaceFrom pattern replacement skip text := by
  induction text generalizing skip with
  | nil =>
    intro h
    cases skip <;> exact hpattern (List.infix_nil.mp h)
  | cons c rest ih =>
    intro h
    cases skip with
    | succ skip => exact ih h
    | zero =>
      rw [replaceFrom] at h
      split at h
      next => exact ih (infix_of_infix_append hpattern hdisjoint h)
      next hkept =>
        rcases List.infix_cons_iff.mp h with hbegins | hinfix
        · have hfirst : pattern <+: replaceFrom pattern replacement 0 (c :: rest) := by
            rw [replaceFrom, if_neg hkept]
            exact hbegins
          exact hkept (prefix_of_prefix_replaceFrom hreplacement hdisjoint hfirst)
        · exact ih hinfix

theorem replaceAll_of_not_infix (h : ¬pattern <:+: text) : replaceAll pattern replacement text = text := by
  rw [replaceAll]
  induction text with
  | nil => rfl
  | cons c rest ih =>
    have hbegins : ¬pattern <+: c :: rest := fun hbegins => h hbegins.isInfix
    have hrest : ¬pattern <:+: rest := fun hinfix => h (List.infix_cons hinfix)
    rw [replaceFrom, if_neg hbegins, ih hrest]

end

end CreativeStudio.Data
