import CreativeStudio.Models.CacheSlots

/-!
# Counting the entries of the cache

`tally` counts the entries that have a property. Each piece that a section is made of comes
with an equation for it, so that what a section does to a count is arithmetic.
-/

namespace CreativeStudio.Models
open Data

/-- The members of a dictionary, with the one of a key in front. -/
theorem perm_cons_erase {α : Type} {d : Dict α} (hd : (d.map Prod.fst).Nodup) {key : String} {value : α}
    (h : d.get? key = some value) : d.Perm ((key, value) :: d.erase key) := by
  induction d with
  | nil => cases h
  | cons member rest ih =>
    obtain ⟨k, v⟩ := member
    obtain ⟨hnot, hrest⟩ := List.nodup_cons.1 (List.map_cons ▸ hd)
    by_cases hk : k = key
    · subst hk
      have hsame : Dict.erase ((k, v) :: rest) k = rest := by
        unfold Dict.erase
        rw [List.filter_cons_of_neg (by simp), List.filter_eq_self]
        intro member hmem
        have hne : member.1 ≠ k := by
          rintro rfl
          exact hnot (List.mem_map.2 ⟨member, hmem, rfl⟩)
        simpa using hne
      have hvalue : v = value := by simpa [Dict.get?] using h
      rw [hsame, hvalue]
    · have hget : Dict.get? rest key = some value := by simpa [Dict.get?, hk] using h
      have hskip : Dict.erase ((k, v) :: rest) key = (k, v) :: Dict.erase rest key := by
        unfold Dict.erase
        rw [List.filter_cons_of_pos (by simpa using hk)]
      rw [hskip]
      exact ((ih hrest hget).cons _).trans (.swap ..)

namespace ModelRuntimeCache
variable {ρ : Type} {limits : Limits} {c c' : ModelRuntimeCache ρ} {id : CanonicalId} {ref : EntryRef}
  {P : RuntimeEntry ρ → Prop} [DecidablePred P]

/-- How many entries have a property. -/
def tally (c : ModelRuntimeCache ρ) (P : RuntimeEntry ρ → Prop) [DecidablePred P] : ℕ :=
  c.entries.countP fun entry => P (c.heap entry.2)

theorem notMem_names (hnone : c.current? id = none) : id ∉ c.entries.map Prod.fst := by
  rw [Dict.mem_names_iff]
  simpa [current?] using hnone

theorem erase_of_absent (hnone : c.current? id = none) : c.entries.erase id = c.entries := by
  unfold Dict.erase
  rw [List.filter_eq_self]
  intro entry hmem
  have hne : entry.1 ≠ id := fun heq => notMem_names hnone (heq ▸ List.mem_map_of_mem hmem)
  simpa using hne

/-- One entry is counted apart from the others. -/
theorem tally_split (h : c.Tidy) (hcur : c.current? id = some ref) :
    c.tally P = ((c.entries.erase id).countP fun entry => P (c.heap entry.2)) + if P (c.heap ref) then 1 else 0 := by
  unfold tally
  rw [(perm_cons_erase h.keys hcur).countP_eq, List.countP_cons]
  simp

theorem ne_of_mem_erase (h : c.Tidy) (hcur : c.current? id = some ref) {entry : CanonicalId × EntryRef}
    (hmem : entry ∈ c.entries.erase id) : entry.2 ≠ ref := by
  obtain ⟨hmem, hne⟩ := List.mem_filter.1 hmem
  rintro rfl
  have hid := h.inj (h.current?_of_mem hmem) hcur
  simp [hid] at hne

theorem countP_erase_congr (c' : ModelRuntimeCache ρ) (h : c.Tidy) (hcur : c.current? id = some ref)
    (hheap : ∀ ref', ref' ≠ ref → c'.heap ref' = c.heap ref') :
    ((c.entries.erase id).countP fun entry => P (c'.heap entry.2)) =
      (c.entries.erase id).countP fun entry => P (c.heap entry.2) := by
  refine List.countP_congr fun entry hmem => ?_
  rw [hheap _ (ne_of_mem_erase h hcur hmem)]

/-- An entry changes. -/
theorem tally_modify (h : c.Tidy) (hcur : c.current? id = some ref) (f : RuntimeEntry ρ → RuntimeEntry ρ) :
    (c.modify ref f).tally P + (if P (c.heap ref) then 1 else 0) =
      c.tally P + if P (f (c.heap ref)) then 1 else 0 := by
  have hother := countP_erase_congr (c.modify ref f) (P := P) h hcur fun ref' hne => by
    rw [heap_modify, Function.update_of_ne hne]
  have hafter : (c.modify ref f).tally P = ((c.entries.erase id).countP fun entry => P ((c.modify ref f).heap entry.2)) +
      if P (f (c.heap ref)) then 1 else 0 := by
    unfold tally
    rw [show (c.modify ref f).entries = c.entries from rfl, (perm_cons_erase h.keys hcur).countP_eq,
      List.countP_cons]
    simp
  rw [hafter, hother, tally_split h hcur]
  omega

@[simp] theorem tally_moveToEnd (h : c.Tidy) (id : CanonicalId) : (c.moveToEnd id).tally P = c.tally P := by
  unfold ModelRuntimeCache.moveToEnd
  cases hcur : c.current? id with
  | none => rfl
  | some ref =>
    rw [tally_split h hcur]
    simp [tally, List.countP_append, List.countP_cons]

/-- An entry is taken out. -/
theorem tally_remove (h : c.Tidy) (hcur : c.current? id = some ref) :
    (c.remove id).tally P + (if P (c.heap ref) then 1 else 0) = c.tally P := by
  rw [tally_split h hcur]
  rfl

/-- An entry is put in. -/
theorem tally_install (h : c.Tidy) (hnone : c.current? id = none) (bucket : String) (state : RuntimeState)
    (runtime : Option ρ) : (c.install id bucket state runtime).2.tally P =
      c.tally P + if P ((c.install id bucket state runtime).2.heap c.made) then 1 else 0 := by
  have hentries : (c.install id bucket state runtime).2.entries = c.entries ++ [(id, c.made)] :=
    Dict.set_of_notMem (notMem_names hnone) _
  unfold tally
  rw [hentries, List.countP_append, List.countP_cons, List.countP_nil]
  have hsame : (c.entries.countP fun entry => P ((c.install id bucket state runtime).2.heap entry.2)) =
      c.entries.countP fun entry => P (c.heap entry.2) := by
    refine List.countP_congr fun entry hmem => ?_
    have hne : entry.2 ≠ c.made := (h.made _ _ (h.current?_of_mem hmem)).ne
    simp [install, hne]
  rw [hsame]
  simp

/-- Marking entries for teardown adds nothing to what has a property that it takes away. -/
theorem tally_retires_le {victims : List (CanonicalId × EntryRef)} (h : Retires c victims c')
    (hP : ∀ entry : RuntimeEntry ρ, P { entry with state := .retiring } → P entry) : c'.tally P ≤ c.tally P := by
  unfold tally
  rw [h.entries]
  refine List.countP_mono_left fun entry _ hentry => ?_
  rw [h.heap] at hentry
  simp only [decide_eq_true_eq] at hentry ⊢
  split at hentry
  · exact hP _ hentry
  · exact hentry

end ModelRuntimeCache

end CreativeStudio.Models
