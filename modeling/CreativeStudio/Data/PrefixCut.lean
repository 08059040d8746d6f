import Mathlib.Algebra.BigOperators.Group.List.Basic
import Mathlib.Algebra.Ring.Nat
import Mathlib.Data.List.Basic

/-!
# The longest prefix within a budget

Items are taken in their order as long as their sizes fit a budget; the first one that does not fit ends
it. What is taken is the longest prefix whose sizes stay within the budget, and a larger budget takes a
longer prefix.
-/

namespace CreativeStudio.Data

variable {α : Type} (size : α → ℕ)

/-- The sizes of some items together. -/
def totalSize (items : List α) : ℕ := (items.map size).sum

@[simp] theorem totalSize_nil : totalSize size [] = 0 := rfl

@[simp] theorem totalSize_cons (item : α) (items : List α) :
    totalSize size (item :: items) = size item + totalSize size items := by
  simp [totalSize]

@[simp] theorem totalSize_append (items items' : List α) :
    totalSize size (items ++ items') = totalSize size items + totalSize size items' := by
  simp [totalSize]

@[simp] theorem totalSize_map {β : Type} (build : β → α) (items : List β) :
    totalSize size (items.map build) = totalSize (fun item => size (build item)) items := by
  rw [totalSize, List.map_map]
  rfl

/-- The items that are taken. -/
def prefixCut : ℕ → List α → List α
  | _, [] => []
  | budget, item :: rest => if size item ≤ budget then item :: prefixCut (budget - size item) rest else []

variable {size} {items : List α} {budget : ℕ}

theorem totalSize_le_mul {most : ℕ} (h : ∀ item ∈ items, size item ≤ most) :
    totalSize size items ≤ most * items.length := by
  induction items with
  | nil => exact Nat.zero_le _
  | cons item rest ih =>
    have hitem := h item (by simp)
    have hrest := ih fun other hother => h other (List.mem_cons_of_mem _ hother)
    rw [totalSize_cons, List.length_cons, Nat.mul_succ]
    omega

theorem prefixCut_isPrefix (budget : ℕ) (items : List α) : prefixCut size budget items <+: items := by
  induction items generalizing budget with
  | nil => exact List.prefix_rfl
  | cons item rest ih =>
    rw [prefixCut]
    split
    · exact List.cons_prefix_cons.mpr ⟨rfl, ih _⟩
    · exact List.nil_prefix

theorem totalSize_prefixCut_le (budget : ℕ) (items : List α) :
    totalSize size (prefixCut size budget items) ≤ budget := by
  induction items generalizing budget with
  | nil => exact Nat.zero_le _
  | cons item rest ih =>
    rw [prefixCut]
    split
    next h =>
      have hrest := ih (budget - size item)
      rw [totalSize_cons]
      omega
    next => exact Nat.zero_le _

/-- Whatever fits is part of what is taken. -/
theorem isPrefix_prefixCut {taken : List α} (hbegins : taken <+: items) (hfits : totalSize size taken ≤ budget) :
    taken <+: prefixCut size budget items := by
  induction items generalizing budget taken with
  | nil =>
    rw [List.prefix_nil.mp hbegins]
    exact List.nil_prefix
  | cons item rest ih =>
    rcases taken with _ | ⟨first, taken⟩
    · exact List.nil_prefix
    · obtain ⟨rfl, hrest⟩ := List.cons_prefix_cons.mp hbegins
      rw [totalSize_cons] at hfits
      rw [prefixCut, if_pos (by omega)]
      exact List.cons_prefix_cons.mpr ⟨rfl, ih hrest (by omega)⟩

theorem prefixCut_mono {budget' : ℕ} (h : budget ≤ budget') :
    prefixCut size budget items <+: prefixCut size budget' items :=
  isPrefix_prefixCut (prefixCut_isPrefix budget items) (Nat.le_trans (totalSize_prefixCut_le budget items) h)

/-- What is taken is the longest prefix that fits. -/
structure LongestPrefix (size : α → ℕ) (budget : ℕ) (items taken : List α) : Prop where
  isPrefix : taken <+: items
  fits : totalSize size taken ≤ budget
  longest : ∀ taken', taken' <+: items → totalSize size taken' ≤ budget → taken' <+: taken

theorem longestPrefix_prefixCut (budget : ℕ) (items : List α) :
    LongestPrefix size budget items (prefixCut size budget items) where
  isPrefix := prefixCut_isPrefix budget items
  fits := totalSize_prefixCut_le budget items
  longest _ := isPrefix_prefixCut

/-- A quantity that grows with the items stays within a bound on what is taken when it does on all that fits. -/
theorem prefixCut_forall_iff {cost : α → ℕ} {bound : ℕ} :
    totalSize cost (prefixCut size budget items) ≤ bound ↔
      ∀ taken, taken <+: items → totalSize size taken ≤ budget → totalSize cost taken ≤ bound := by
  constructor
  · intro h taken hbegins hfits
    obtain ⟨rest, hrest⟩ := isPrefix_prefixCut hbegins hfits
    rw [← hrest, totalSize_append] at h
    omega
  · intro h
    exact h _ (prefixCut_isPrefix budget items) (totalSize_prefixCut_le budget items)

end CreativeStudio.Data
