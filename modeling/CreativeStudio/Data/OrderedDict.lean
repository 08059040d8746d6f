import Mathlib.Data.List.Basic

/-!
# Ordered dictionaries

A dictionary whose members are kept in the order they were put in, and which can forget its
oldest ones: what a least-recently-used cache is made of. A cache `Holds` a function when every
value in it is the function's value at its key.
-/

namespace CreativeStudio.Data

/-- The members of an ordered dictionary, the oldest first. -/
abbrev OrderedDict (κ α : Type) := List (κ × α)

namespace OrderedDict
variable {κ α : Type} [DecidableEq κ]

/-- `d.get(key)`. -/
def get? (d : OrderedDict κ α) (key : κ) : Option α := (d.find? fun entry => entry.1 = key).map Prod.snd

/-- `d[key] = value`: replace in place, or append. -/
def set : OrderedDict κ α → κ → α → OrderedDict κ α
  | [], key, value => [(key, value)]
  | entry :: rest, key, value => if entry.1 = key then (key, value) :: rest else entry :: set rest key value

/-- `d.move_to_end(key)`, of a key that is there. -/
def moveToEnd (d : OrderedDict κ α) (key : κ) : OrderedDict κ α :=
  (d.filter fun entry => entry.1 ≠ key) ++ d.filter fun entry => entry.1 = key

/-- `while len(d) > bound: d.popitem(last=False)`. -/
def trim (d : OrderedDict κ α) (bound : ℕ) : OrderedDict κ α := d.drop (d.length - bound)

/-- Every value is that of its key. -/
def Holds (d : OrderedDict κ α) (f : κ → Option α) : Prop := ∀ entry ∈ d, f entry.1 = some entry.2

variable {d : OrderedDict κ α} {f : κ → Option α} {key : κ} {value : α}

theorem Holds.get? (h : d.Holds f) (hget : d.get? key = some value) : f key = some value := by
  obtain ⟨entry, hfind, rfl⟩ := Option.map_eq_some_iff.mp hget
  obtain rfl : entry.1 = key := by simpa using List.find?_some hfind
  exact h entry (List.mem_of_find?_eq_some hfind)

theorem mem_set {entry : κ × α} (h : entry ∈ d.set key value) : entry = (key, value) ∨ entry ∈ d := by
  induction d with
  | nil => exact .inl (List.mem_singleton.mp h)
  | cons first rest ih =>
    rw [set] at h
    split at h
    · exact (List.mem_cons.mp h).imp_right (List.mem_cons_of_mem _)
    · rcases List.mem_cons.mp h with rfl | h
      · exact .inr List.mem_cons_self
      · exact (ih h).imp_right (List.mem_cons_of_mem _)

theorem mem_set_self (d : OrderedDict κ α) (key : κ) (value : α) : (key, value) ∈ d.set key value := by
  induction d with
  | nil => exact List.mem_singleton_self _
  | cons first rest ih =>
    rw [set]
    split
    · exact List.mem_cons_self
    · exact List.mem_cons_of_mem _ ih

@[simp] theorem mem_moveToEnd {entry : κ × α} : entry ∈ d.moveToEnd key ↔ entry ∈ d := by
  by_cases h : entry.1 = key <;> simp [moveToEnd, h]

theorem Holds.set (h : d.Holds f) (hvalue : f key = some value) : (d.set key value).Holds f := by
  intro entry hentry
  rcases mem_set hentry with rfl | hentry
  · exact hvalue
  · exact h entry hentry

theorem Holds.moveToEnd (h : d.Holds f) (key : κ) : (d.moveToEnd key).Holds f :=
  fun entry hentry => h entry (mem_moveToEnd.mp hentry)

omit [DecidableEq κ] in
theorem Holds.trim (h : d.Holds f) (bound : ℕ) : (d.trim bound).Holds f :=
  fun entry hentry => h entry (List.mem_of_mem_drop hentry)

/-- What has been moved to the end is there after forgetting the oldest members. -/
theorem get?_trim_moveToEnd (hmem : (key, value) ∈ d) {bound : ℕ} (hbound : 1 ≤ bound) :
    (((d.moveToEnd key).trim bound).get? key).isSome := by
  have hends : (d.filter fun entry => entry.1 = key) ≠ [] :=
    List.ne_nil_of_mem (List.mem_filter.mpr ⟨hmem, by simp⟩)
  have hlast : ((d.moveToEnd key).getLast (by simp [OrderedDict.moveToEnd, hends])).1 = key := by
    have hin := List.getLast_mem hends
    simp only [OrderedDict.moveToEnd, List.getLast_append_of_ne_nil _ hends]
    simpa using (List.mem_filter.mp hin).2
  have hlen : 0 < (d.moveToEnd key).length := List.length_pos_of_ne_nil (by simp [OrderedDict.moveToEnd, hends])
  have hne : (d.moveToEnd key).trim bound ≠ [] := by
    rw [trim, ne_eq, List.drop_eq_nil_iff]
    omega
  rw [OrderedDict.get?, Option.isSome_map, List.find?_isSome]
  refine ⟨_, List.getLast_mem hne, ?_⟩
  simp only [trim, List.getLast_drop, hlast, decide_true]

end OrderedDict

end CreativeStudio.Data
