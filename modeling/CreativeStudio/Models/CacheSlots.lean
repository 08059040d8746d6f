import CreativeStudio.Models.Cache
import CreativeStudio.Models.Lifecycle

/-!
# The entries of the runtime cache and their lives

`slot` reads off the cache where an entry object is in its life, and every section of the
metadata lock is specified by what it does to the slots. `Tidy` is what the cache keeps between
sections, and `Retires` is what an eviction does.
-/

namespace CreativeStudio.Models
open Data

/-- Where a current entry is in its life. -/
def RuntimeEntry.slot {ρ : Type} (entry : RuntimeEntry ρ) : Slot :=
  match entry.state with
  | .loading => .loading
  | .ready => .ready entry.leaseCount
  | .invalid => .invalid entry.leaseCount
  | .retiring => .retiring

theorem RuntimeEntry.slot_ne_gone {ρ : Type} (entry : RuntimeEntry ρ) : entry.slot ≠ .gone := by
  unfold RuntimeEntry.slot
  cases entry.state <;> simp

namespace ModelRuntimeCache
variable {ρ : Type} {limits : Limits} {c c' : ModelRuntimeCache ρ} {id : CanonicalId} {ref : EntryRef}

/-- Where an entry object is in its life. -/
def slot (c : ModelRuntimeCache ρ) (ref : EntryRef) : Slot :=
  if c.current? (c.heap ref).canonicalId = some ref then (c.heap ref).slot
  else if ref < c.made then .gone else .unmade

/-- What the cache keeps between two sections. -/
structure Tidy (c : ModelRuntimeCache ρ) : Prop where
  /-- An id has one entry. -/
  keys : (c.entries.map Prod.fst).Nodup
  made : ∀ id ref, c.current? id = some ref → ref < c.made
  named : ∀ id ref, c.current? id = some ref → (c.heap ref).canonicalId = id
  /-- Nobody holds what is being loaded or torn down. -/
  unleased : ∀ id ref, c.current? id = some ref →
    (c.heap ref).state ∈ busyForUnloadStates → (c.heap ref).leaseCount = 0

/-! ## The pieces the sections are made of -/

@[simp] theorem current?_modify (c : ModelRuntimeCache ρ) (ref : EntryRef) (f : RuntimeEntry ρ → RuntimeEntry ρ)
    (id : CanonicalId) : (c.modify ref f).current? id = c.current? id := rfl

@[simp] theorem made_modify (c : ModelRuntimeCache ρ) (ref : EntryRef) (f : RuntimeEntry ρ → RuntimeEntry ρ) :
    (c.modify ref f).made = c.made := rfl

@[simp] theorem heap_modify (c : ModelRuntimeCache ρ) (ref : EntryRef) (f : RuntimeEntry ρ → RuntimeEntry ρ) :
    (c.modify ref f).heap = Function.update c.heap ref (f (c.heap ref)) := rfl

@[simp] theorem heap_moveToEnd (c : ModelRuntimeCache ρ) (id : CanonicalId) :
    (c.moveToEnd id).heap = c.heap := by
  unfold moveToEnd
  cases c.current? id <;> rfl

@[simp] theorem made_moveToEnd (c : ModelRuntimeCache ρ) (id : CanonicalId) :
    (c.moveToEnd id).made = c.made := by
  unfold moveToEnd
  cases c.current? id <;> rfl

@[simp] theorem current?_moveToEnd (c : ModelRuntimeCache ρ) (id id' : CanonicalId) :
    (c.moveToEnd id).current? id' = c.current? id' := by
  unfold moveToEnd
  cases hcur : c.current? id with
  | none => rfl
  | some ref =>
    simp only [current?, Dict.get?_append, Dict.get?_erase]
    by_cases h : id' = id
    · subst h
      have hcur' : c.entries.get? id' = some ref := hcur
      simp [Dict.get?, hcur']
    · simp [h, Dict.get?, Ne.symm h]

theorem current?_remove (c : ModelRuntimeCache ρ) (id id' : CanonicalId) :
    (c.remove id).current? id' = if id' = id then none else c.current? id' :=
  Dict.get?_erase _ _ _

@[simp] theorem heap_remove (c : ModelRuntimeCache ρ) (id : CanonicalId) : (c.remove id).heap = c.heap := rfl
@[simp] theorem made_remove (c : ModelRuntimeCache ρ) (id : CanonicalId) : (c.remove id).made = c.made := rfl

theorem slot_of_current (h : c.Tidy) (hcur : c.current? id = some ref) : c.slot ref = (c.heap ref).slot := by
  rw [slot, h.named id ref hcur, if_pos hcur]

theorem slot_ne_gone (h : c.Tidy) (hcur : c.current? id = some ref) : c.slot ref ≠ .gone := by
  rw [slot_of_current h hcur]
  exact RuntimeEntry.slot_ne_gone _

theorem slot_eq_gone (hmade : ref < c.made) (hcur : ∀ id, c.current? id ≠ some ref) : c.slot ref = .gone := by
  rw [slot, if_neg (hcur _), if_pos hmade]

theorem lt_made_of_slot (h : c.Tidy) (hunmade : c.slot ref ≠ .unmade) : ref < c.made := by
  unfold slot at hunmade
  split at hunmade
  case isTrue hcur => exact h.made _ _ hcur
  · by_contra hlt
    rw [if_neg hlt] at hunmade
    exact hunmade rfl

theorem current?_of_slot (c : ModelRuntimeCache ρ) (ref : EntryRef) (hgone : c.slot ref ≠ .gone) (hunmade : c.slot ref ≠ .unmade) :
    c.current? (c.heap ref).canonicalId = some ref := by
  by_contra h
  rw [slot, if_neg h] at hgone hunmade
  by_cases hmade : ref < c.made <;> simp [hmade] at hgone hunmade

theorem Tidy.inj (h : c.Tidy) {id' : CanonicalId} (hcur : c.current? id = some ref)
    (hcur' : c.current? id' = some ref) : id = id' :=
  (h.named id ref hcur).symm.trans (h.named id' ref hcur')

theorem Tidy.current?_of_mem (h : c.Tidy) {entry : CanonicalId × EntryRef} (hmem : entry ∈ c.entries) :
    c.current? entry.1 = some entry.2 :=
  Dict.get?_of_mem h.keys hmem

theorem mem_entries (hcur : c.current? id = some ref) : (id, ref) ∈ c.entries := Dict.mem_of_get? hcur

/-! ## What the pieces do to the slots -/

theorem Tidy.modify (h : c.Tidy) {f : RuntimeEntry ρ → RuntimeEntry ρ}
    (hname : (f (c.heap ref)).canonicalId = (c.heap ref).canonicalId)
    (hunleased : (f (c.heap ref)).state ∈ busyForUnloadStates → (f (c.heap ref)).leaseCount = 0) :
    (c.modify ref f).Tidy where
  keys := h.keys
  made := h.made
  named id' ref' hcur := by
    by_cases heq : ref' = ref
    · subst heq
      simpa [hname] using h.named id' ref' hcur
    · simpa [heq] using h.named id' ref' hcur
  unleased id' ref' hcur := by
    by_cases heq : ref' = ref
    · subst heq
      simpa using hunleased
    · simpa [heq] using h.unleased id' ref' hcur

theorem slot_modify (h : c.Tidy) {f : RuntimeEntry ρ → RuntimeEntry ρ}
    (hname : (f (c.heap ref)).canonicalId = (c.heap ref).canonicalId) (hcur : c.current? id = some ref) :
    (c.modify ref f).slot = Function.update c.slot ref (f (c.heap ref)).slot := by
  funext ref'
  by_cases heq : ref' = ref
  · subst heq
    have hid := h.named id ref' hcur
    simp [slot, hname, hid, hcur]
  · rw [Function.update_of_ne heq, slot, heap_modify, Function.update_of_ne heq]
    rfl

theorem Tidy.moveToEnd (h : c.Tidy) (id : CanonicalId) : (c.moveToEnd id).Tidy where
  keys := by
    unfold ModelRuntimeCache.moveToEnd
    cases hcur : c.current? id with
    | none => exact h.keys
    | some ref =>
      simp only [Dict.erase, List.map_append, List.map_cons, List.map_nil]
      refine List.Nodup.append (h.keys.sublist (List.Sublist.map _ List.filter_sublist)) (by simp) ?_
      intro key hkey hkey'
      rw [List.mem_singleton] at hkey'
      subst hkey'
      obtain ⟨entry, hentry, hname⟩ := List.mem_map.1 hkey
      have hne := (List.mem_filter.1 hentry).2
      simp [hname] at hne
  made id' ref := by simpa using h.made id' ref
  named id' ref := by simpa using h.named id' ref
  unleased id' ref := by simpa using h.unleased id' ref

@[simp] theorem slot_moveToEnd (c : ModelRuntimeCache ρ) (id : CanonicalId) : (c.moveToEnd id).slot = c.slot := by
  funext ref
  simp [slot]

theorem Tidy.remove (h : c.Tidy) (id : CanonicalId) : (c.remove id).Tidy where
  keys := h.keys.sublist (List.Sublist.map _ List.filter_sublist)
  made id' ref hcur := by
    rw [current?_remove] at hcur
    split at hcur
    · cases hcur
    · exact h.made id' ref hcur
  named id' ref hcur := by
    rw [current?_remove] at hcur
    split at hcur
    · cases hcur
    · exact h.named id' ref hcur
  unleased id' ref hcur := by
    rw [current?_remove] at hcur
    split at hcur
    · cases hcur
    · exact h.unleased id' ref hcur

theorem slot_remove (h : c.Tidy) (hcur : c.current? id = some ref) :
    (c.remove id).slot = Function.update c.slot ref .gone := by
  funext ref'
  by_cases heq : ref' = ref
  · subst heq
    rw [Function.update_self]
    refine slot_eq_gone (h.made id ref' hcur) fun id' hcur' => ?_
    rw [current?_remove] at hcur'
    split at hcur'
    · cases hcur'
    case isFalse hne => exact hne (h.inj hcur' hcur)
  · rw [Function.update_of_ne heq]
    unfold slot
    rw [current?_remove, heap_remove, made_remove]
    by_cases hid : (c.heap ref').canonicalId = id
    · have hother : c.current? id ≠ some ref' := by
        rw [hcur]
        exact fun h' => heq (Option.some.inj h').symm
      rw [if_pos hid, if_neg (by simp), hid, if_neg hother]
    · rw [if_neg hid]

theorem current?_install (c : ModelRuntimeCache ρ) (id id' : CanonicalId) (bucket : String) (state : RuntimeState)
    (runtime : Option ρ) :
    (c.install id bucket state runtime).2.current? id' = if id = id' then some c.made else c.current? id' :=
  Dict.get?_set _ _ _ _

theorem Tidy.install (h : c.Tidy) (id : CanonicalId) (bucket : String) (state : RuntimeState) (runtime : Option ρ) :
    (c.install id bucket state runtime).2.Tidy where
  keys := Dict.nodup_set h.keys _ _
  made id' ref hcur := by
    rw [current?_install] at hcur
    split at hcur
    · cases hcur
      exact Nat.lt_succ_self _
    · exact Nat.lt_succ_of_lt (h.made id' ref hcur)
  named id' ref hcur := by
    rw [current?_install] at hcur
    split at hcur
    case isTrue hid =>
      cases hcur
      simpa [ModelRuntimeCache.install] using hid
    · have hne : ref ≠ c.made := (h.made id' ref hcur).ne
      simpa [ModelRuntimeCache.install, hne] using h.named id' ref hcur
  unleased id' ref hcur := by
    rw [current?_install] at hcur
    split at hcur
    · cases hcur
      simp [ModelRuntimeCache.install]
    · have hne : ref ≠ c.made := (h.made id' ref hcur).ne
      simpa [ModelRuntimeCache.install, hne] using h.unleased id' ref hcur

theorem slot_made (h : c.Tidy) : c.slot c.made = .unmade := by
  have hcur : c.current? (c.heap c.made).canonicalId ≠ some c.made := fun hcur => (h.made _ _ hcur).ne rfl
  rw [slot, if_neg hcur, if_neg (lt_irrefl _)]

theorem slot_install (h : c.Tidy) (hnone : c.current? id = none) (bucket : String) (state : RuntimeState)
    (runtime : Option ρ) :
    (c.install id bucket state runtime).2.slot =
      Function.update c.slot c.made ((c.install id bucket state runtime).2.heap c.made).slot := by
  funext ref
  by_cases heq : ref = c.made
  · subst heq
    rw [Function.update_self]
    have hcur : (c.install id bucket state runtime).2.current? id = some c.made := by
      rw [current?_install, if_pos rfl]
    exact slot_of_current (h.install id bucket state runtime) hcur
  · rw [Function.update_of_ne heq]
    unfold slot
    rw [current?_install]
    have hheap : (c.install id bucket state runtime).2.heap ref = c.heap ref := by
      simp [ModelRuntimeCache.install, heq]
    have hmade : ref < (c.install id bucket state runtime).2.made ↔ ref < c.made :=
      ⟨fun hlt => lt_of_le_of_ne (Nat.le_of_lt_succ hlt) heq, Nat.lt_succ_of_lt⟩
    rw [hheap]
    simp only [hmade]
    by_cases hid : id = (c.heap ref).canonicalId
    · have hne : ¬ c.made = ref := fun h' => heq h'.symm
      rw [if_pos hid, ← hid, hnone]
      simp [hne]
    · rw [if_neg hid]

/-! ## Evictions -/

/-- Every entry object makes turns of the kind `P`. -/
def Turns (P : Turn → Prop) (c c' : ModelRuntimeCache ρ) : Prop :=
  ∀ ref, Slot.Moves P (c.slot ref) (c'.slot ref)

theorem Turns.of_eq {P : Turn → Prop} (h : c'.slot = c.slot) : Turns P c c' := fun ref =>
  .of_eq (congrFun h ref).symm

theorem Turns.trans {P : Turn → Prop} {c'' : ModelRuntimeCache ρ} (h : Turns P c c') (h' : Turns P c' c'') :
    Turns P c c'' := fun ref => (h ref).trans (h' ref)

theorem Turns.mono {P Q : Turn → Prop} (hPQ : ∀ move, P move → Q move) (h : Turns P c c') : Turns Q c c' :=
  fun ref => (h ref).mono hPQ

theorem Turns.update {P : Turn → Prop} {slot : Slot} {move : Turn} (hmove : P move)
    (h : c'.slot = Function.update c.slot ref slot) (hturn : (c.slot ref).turn move = some slot) : Turns P c c' := by
  intro ref'
  rw [h]
  by_cases heq : ref' = ref
  · subst heq
    rw [Function.update_self]
    exact .one hmove hturn
  · rw [Function.update_of_ne heq]
    exact .refl

theorem idle_of_isEvictable {entry : RuntimeEntry ρ} (h : entry.IsEvictable) : entry.slot.Idle := by
  obtain ⟨hpinned, hstate⟩ := h
  have hleases : entry.leaseCount = 0 := by simpa [RuntimeEntry.IsPinned] using hpinned
  simp only [evictableStates, List.mem_cons, List.not_mem_nil, or_false] at hstate
  rcases hstate with hstate | hstate <;> simp [RuntimeEntry.slot, hstate, hleases, Slot.Idle]

/-- Some idle entries, each under its id, are given up for teardown, and nothing else happens. -/
structure Retires (c : ModelRuntimeCache ρ) (victims : List (CanonicalId × EntryRef))
    (c' : ModelRuntimeCache ρ) : Prop where
  tidy : c'.Tidy
  entries : c'.entries = c.entries
  made : c'.made = c.made
  current : ∀ victim ∈ victims, c.current? victim.1 = some victim.2
  idle : ∀ victim ∈ victims, (c.slot victim.2).Idle
  nodup : (victims.map Prod.snd).Nodup
  slot : ∀ ref, c'.slot ref = if ref ∈ victims.map Prod.snd then .retiring else c.slot ref
  heap : ∀ ref, c'.heap ref =
    if ref ∈ victims.map Prod.snd then { c.heap ref with state := .retiring } else c.heap ref

theorem Retires.nil (h : c.Tidy) : Retires c [] c where
  tidy := h
  entries := rfl
  made := rfl
  current _ hmem := absurd hmem List.not_mem_nil
  idle _ hmem := absurd hmem List.not_mem_nil
  nodup := List.nodup_nil
  slot _ := rfl
  heap _ := rfl

theorem Tidy.retire (h : c.Tidy) (hidle : ¬ (c.heap ref).IsPinned) : (c.retire ref).Tidy :=
  h.modify rfl fun _ => by simpa [RuntimeEntry.IsPinned] using hidle

theorem slot_retire (h : c.Tidy) (hcur : c.current? id = some ref) :
    (c.retire ref).slot = Function.update c.slot ref .retiring :=
  slot_modify h rfl hcur

theorem Retires.cons (h : c.Tidy) {victim : CanonicalId × EntryRef} {victims : List (CanonicalId × EntryRef)}
    (hcur : c.current? victim.1 = some victim.2) (hevictable : (c.heap victim.2).IsEvictable)
    (hrest : Retires (c.retire victim.2) victims c') : Retires c (victim :: victims) c' := by
  have hslot := slot_retire h hcur
  have hnew : victim.2 ∉ victims.map Prod.snd := by
    intro hmem
    obtain ⟨victim', hmem, heq⟩ := List.mem_map.1 hmem
    have hidle := hrest.idle victim' hmem
    rw [hslot, heq, Function.update_self] at hidle
    rcases hidle with hidle | hidle <;> cases hidle
  refine ⟨hrest.tidy, hrest.entries, hrest.made, ?_, ?_, ?_, ?_, ?_⟩
  · intro victim' hmem
    rcases List.mem_cons.1 hmem with rfl | hmem
    · exact hcur
    · exact hrest.current victim' hmem
  · intro victim' hmem
    rcases List.mem_cons.1 hmem with rfl | hmem
    · rw [slot_of_current h hcur]
      exact idle_of_isEvictable hevictable
    · have hidle := hrest.idle victim' hmem
      have hne : victim'.2 ≠ victim.2 := fun heq => hnew (heq ▸ List.mem_map_of_mem hmem)
      rwa [hslot, Function.update_of_ne hne] at hidle
  · exact List.nodup_cons.2 ⟨hnew, hrest.nodup⟩
  · intro ref
    rw [hrest.slot, hslot, List.map_cons]
    by_cases heq : ref = victim.2
    · subst heq
      simp
    · rw [Function.update_of_ne heq]
      simp only [List.mem_cons, heq, false_or]
  · intro ref
    rw [hrest.heap, List.map_cons]
    by_cases heq : ref = victim.2
    · subst heq
      simp [retire, hnew]
    · simp only [retire, heap_modify, Function.update_of_ne heq, List.mem_cons, heq, false_or]

theorem Retires.turns {victims : List (CanonicalId × EntryRef)} (h : Retires c victims c') :
    Turns Turn.Plain c c' := by
  intro ref
  rw [h.slot]
  by_cases hmem : ref ∈ victims.map Prod.snd
  · obtain ⟨victim, hvictim, rfl⟩ := List.mem_map.1 hmem
    rw [if_pos hmem]
    exact .one ⟨by simp [Turn.Frees], by simp [Turn.Own]⟩ (h.idle victim hvictim).turn_retire
  · rw [if_neg hmem]
    exact .refl

theorem mem_bucketEntries {bucket : String} {entry : CanonicalId × EntryRef} (h : entry ∈ c.bucketEntries bucket) :
    entry ∈ c.entries :=
  List.mem_of_mem_filter h

theorem evictTurns_spec {bucket : String} {excludeId : Option CanonicalId} {turns : ℕ} (h : c.Tidy) :
    Retires c (evictTurns limits bucket excludeId turns c).1 (evictTurns limits bucket excludeId turns c).2 ∧
      ∀ victim ∈ (evictTurns limits bucket excludeId turns c).1, some victim.1 ≠ excludeId := by
  induction turns generalizing c with
  | zero => exact ⟨.nil h, by simp [evictTurns]⟩
  | succ turns ih =>
    unfold evictTurns
    split
    · exact ⟨.nil h, by simp⟩
    split
    · exact ⟨.nil h, by simp⟩
    case _ victim hfound =>
      have hmem : victim ∈ c.entries := mem_bucketEntries (List.mem_of_find?_eq_some hfound)
      obtain ⟨hexclude, hevictable⟩ : some victim.1 ≠ excludeId ∧ (c.heap victim.2).IsEvictable := by
        simpa using List.find?_some hfound
      obtain ⟨hrest, hexcluded⟩ := ih (h.retire hevictable.1)
      refine ⟨.cons h (h.current?_of_mem hmem) hevictable hrest, ?_⟩
      intro victim' hmem'
      rcases List.mem_cons.1 hmem' with rfl | hmem'
      · exact hexclude
      · exact hexcluded victim' hmem'

theorem evictBucketOverflow_spec (limits : Limits) (h : c.Tidy) (bucket : String) (excludeId : Option CanonicalId) :
    Retires c (c.evictBucketOverflow limits bucket excludeId).1 (c.evictBucketOverflow limits bucket excludeId).2 ∧
      ∀ victim ∈ (c.evictBucketOverflow limits bucket excludeId).1, some victim.1 ≠ excludeId :=
  evictTurns_spec h

end ModelRuntimeCache

end CreativeStudio.Models
