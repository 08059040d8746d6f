import CreativeStudio.Models.CacheSlots

/-!
# What a section of the metadata lock does to the entries

One lemma for each section: which turns the entry objects make, and which of them the section
has given up for teardown. Only two sections make a turn that can end a wait, and only the
owner of a reservation ends it.
-/

namespace CreativeStudio.Models.ModelRuntimeCache
open Data

variable {ρ : Type} {limits : Limits} {c c' : ModelRuntimeCache ρ} {id : CanonicalId} {ref : EntryRef}
  {victims : List (CanonicalId × EntryRef)} {P Q : Turn → Prop}

/-- A section makes turns of the kind `P`, and it gives up `victims` for teardown. -/
structure Acts (P : Turn → Prop) (c : ModelRuntimeCache ρ) (victims : List (CanonicalId × EntryRef))
    (c' : ModelRuntimeCache ρ) : Prop where
  tidy : c'.Tidy
  turns : Turns P c c'
  made : c.made ≤ c'.made
  named : ∀ ref < c.made, (c'.heap ref).canonicalId = (c.heap ref).canonicalId
  /-- What has been loaded into an entry stays there. -/
  runtime : ∀ ref, (c.slot ref).Loaded → (c'.heap ref).runtime = (c.heap ref).runtime
  frozen : ∀ ref, c.slot ref = .gone → c'.heap ref = c.heap ref
  /-- What leaves in mid-retirement was being retired before. -/
  vanished : ∀ ref, c'.slot ref = .gone → c.slot ref ≠ .gone → (c'.heap ref).state = .retiring →
    c.slot ref = .retiring
  current : ∀ victim ∈ victims, c'.current? victim.1 = some victim.2
  marked : ∀ victim ∈ victims, c'.slot victim.2 = .retiring
  unmarked : ∀ victim ∈ victims, c.slot victim.2 ≠ .retiring ∧ c.slot victim.2 ≠ .gone
  nodup : (victims.map Prod.snd).Nodup
  /-- Nothing else is given up. -/
  only : ∀ ref, c'.slot ref = .retiring → c.slot ref = .retiring ∨ ref ∈ victims.map Prod.snd

theorem Acts.refl (h : c.Tidy) : Acts P c [] c where
  tidy := h
  turns := .of_eq rfl
  made := le_refl _
  named _ _ := rfl
  runtime _ _ := rfl
  frozen _ _ := rfl
  vanished _ hgone hnot := absurd hgone hnot
  current := by simp
  marked := by simp
  unmarked := by simp
  nodup := List.nodup_nil
  only _ h := .inl h

theorem Acts.mono (hPQ : ∀ move, P move → Q move) (h : Acts P c victims c') : Acts Q c victims c' :=
  { h with turns := h.turns.mono hPQ }

/-- A section that does something to one entry and gives nothing up. -/
theorem Acts.of_update {slot : Slot} (h : c.Tidy) (htidy : c'.Tidy)
    (hslot : c'.slot = Function.update c.slot ref slot) (hmoves : Slot.Moves P (c.slot ref) slot)
    (hretiring : slot = .retiring → c.slot ref = .retiring)
    (hleft : slot = .gone → (c'.heap ref).state = .retiring → c.slot ref = .retiring) (hmade : c.made ≤ c'.made)
    (hother : ∀ ref' < c.made, ref' ≠ ref → c'.heap ref' = c.heap ref')
    (hthis : ref < c.made → c.slot ref ≠ .gone ∧ (c'.heap ref).canonicalId = (c.heap ref).canonicalId ∧
      ((c.slot ref).Loaded → (c'.heap ref).runtime = (c.heap ref).runtime)) : Acts P c [] c' where
  tidy := htidy
  turns ref' := by
    rw [hslot]
    by_cases heq : ref' = ref
    · subst heq
      rwa [Function.update_self]
    · rw [Function.update_of_ne heq]
      exact .refl
  made := hmade
  named ref' hlt := by
    by_cases heq : ref' = ref
    · subst heq
      exact (hthis hlt).2.1
    · rw [hother ref' hlt heq]
  runtime ref' hloaded := by
    have hlt := lt_made_of_slot h hloaded.1
    by_cases heq : ref' = ref
    · subst heq
      exact (hthis hlt).2.2 hloaded
    · rw [hother ref' hlt heq]
  frozen ref' hgone := by
    have hlt : ref' < c.made := lt_made_of_slot h (by simp [hgone])
    by_cases heq : ref' = ref
    · subst heq
      exact absurd hgone (hthis hlt).1
    · exact hother ref' hlt heq
  vanished ref' hgone hnot hstate := by
    rw [hslot] at hgone
    by_cases heq : ref' = ref
    · subst heq
      rw [Function.update_self] at hgone
      exact hleft hgone hstate
    · rw [Function.update_of_ne heq] at hgone
      exact absurd hgone hnot
  current := by simp
  marked := by simp
  unmarked := by simp
  nodup := List.nodup_nil
  only ref' hretired := by
    rw [hslot] at hretired
    by_cases heq : ref' = ref
    · subst heq
      rw [Function.update_self] at hretired
      exact .inl (hretiring hretired)
    · rw [Function.update_of_ne heq] at hretired
      exact .inl hretired

/-- A section that changes a current entry, but neither its name nor its runtime. -/
theorem Acts.of_modify {f : RuntimeEntry ρ → RuntimeEntry ρ} (h : c.Tidy) (hcur : c.current? id = some ref)
    (hname : (f (c.heap ref)).canonicalId = (c.heap ref).canonicalId)
    (hruntime : (f (c.heap ref)).runtime = (c.heap ref).runtime)
    (hunleased : (f (c.heap ref)).state ∈ busyForUnloadStates → (f (c.heap ref)).leaseCount = 0)
    (hmoves : Slot.Moves P (c.heap ref).slot (f (c.heap ref)).slot)
    (hretiring : (f (c.heap ref)).slot = .retiring → (c.heap ref).slot = .retiring) : Acts P c [] (c.modify ref f) := by
  have hslot := slot_of_current h hcur
  refine .of_update h (h.modify hname hunleased) (slot_modify h hname hcur) (hslot ▸ hmoves) (hslot ▸ hretiring)
    (fun hgone => absurd hgone (RuntimeEntry.slot_ne_gone _)) (Nat.le_refl _) (fun ref' _ hne => ?_)
    fun _ => ⟨slot_ne_gone h hcur, ?_, fun _ => ?_⟩
  · rw [heap_modify, Function.update_of_ne hne]
  · rw [heap_modify, Function.update_self, hname]
  · rw [heap_modify, Function.update_self, hruntime]

theorem Acts.of_remove (h : c.Tidy) (hcur : c.current? id = some ref) (hmoves : Slot.Moves P (c.slot ref) .gone) :
    Acts P c [] (c.remove id) :=
  .of_update h (h.remove id) (slot_remove h hcur) hmoves (by simp)
    (fun _ hstate => by rw [slot_of_current h hcur, RuntimeEntry.slot, ← heap_remove c id, hstate]) (Nat.le_refl _)
    (fun _ _ _ => rfl) fun _ => ⟨slot_ne_gone h hcur, rfl, fun _ => rfl⟩

theorem Acts.of_install (h : c.Tidy) (hnone : c.current? id = none) {bucket : String} {state : RuntimeState}
    {runtime : Option ρ} {move : Turn} (hmove : P move)
    (hturn : Slot.turn .unmade move = some ((c.install id bucket state runtime).2.heap c.made).slot)
    (hretiring : ((c.install id bucket state runtime).2.heap c.made).slot ≠ .retiring) :
    Acts P c [] (c.install id bucket state runtime).2 := by
  refine .of_update h (h.install _ _ _ _) (slot_install h hnone _ _ _) ?_ (fun hslot => absurd hslot hretiring)
    (fun hgone => absurd hgone (RuntimeEntry.slot_ne_gone _)) (Nat.le_succ _) (fun ref' hlt _ => ?_) fun hlt => absurd hlt (lt_irrefl _)
  · rw [slot_made h]
    exact .one hmove hturn
  · simp [ModelRuntimeCache.install, hlt.ne]

theorem Acts.of_moveToEnd (h : c.Tidy) (id : CanonicalId) : Acts P c [] (c.moveToEnd id) where
  tidy := h.moveToEnd id
  turns := .of_eq (slot_moveToEnd c id)
  made := by simp
  named := by simp
  runtime := by simp
  frozen := by simp
  vanished := by simp +contextual
  current := by simp
  marked := by simp
  unmarked := by simp
  nodup := List.nodup_nil
  only := by simp

theorem Acts.trans {c₁ : ModelRuntimeCache ρ} (h : Acts P c [] c₁) (h' : Acts P c₁ [] c') : Acts P c [] c' where
  tidy := h'.tidy
  turns := h.turns.trans h'.turns
  made := h.made.trans h'.made
  named ref hlt := (h'.named ref (hlt.trans_le h.made)).trans (h.named ref hlt)
  runtime ref hloaded := (h'.runtime ref ((h.turns ref).loaded hloaded)).trans (h.runtime ref hloaded)
  frozen ref hgone := (h'.frozen ref ((h.turns ref).gone hgone)).trans (h.frozen ref hgone)
  vanished ref hgone hnot hstate := by
    by_cases hmid : c₁.slot ref = .gone
    · rw [h'.frozen ref hmid] at hstate
      exact h.vanished ref hmid hnot hstate
    · exact (h.only ref (h'.vanished ref hgone hmid hstate)).resolve_right (by simp)
  current := by simp
  marked := by simp
  unmarked := by simp
  nodup := List.nodup_nil
  only ref hslot := by
    rcases h'.only ref hslot with hslot | hslot
    · exact h.only ref hslot
    · cases hslot

/-- An eviction at the end of a section that has given nothing up so far. -/
theorem Acts.retires {c₁ : ModelRuntimeCache ρ} (h : Acts P c [] c₁) (hretires : Retires c₁ victims c')
    (hP : ∀ move, move.Plain → P move) : Acts P c victims c' where
  tidy := hretires.tidy
  turns := h.turns.trans (hretires.turns.mono hP)
  made := h.made.trans hretires.made.ge
  named ref hlt := by
    rw [← h.named ref hlt, hretires.heap]
    split <;> rfl
  runtime ref hloaded := by
    rw [← h.runtime ref hloaded, hretires.heap]
    split <;> rfl
  frozen ref hgone := by
    rw [← h.frozen ref hgone, hretires.heap]
    refine if_neg fun hmem => ?_
    obtain ⟨victim, hvictim, rfl⟩ := List.mem_map.1 hmem
    have hidle := hretires.idle victim hvictim
    rw [(h.turns victim.2).gone hgone] at hidle
    rcases hidle with hidle | hidle <;> cases hidle
  vanished ref hgone hnot hstate := by
    rw [hretires.slot] at hgone
    rw [hretires.heap] at hstate
    split at hgone
    · cases hgone
    case isFalse hmem =>
      rw [if_neg hmem] at hstate
      exact h.vanished ref hgone hnot hstate
  current victim hmem := by
    unfold current?
    rw [hretires.entries]
    exact hretires.current victim hmem
  marked victim hmem := by
    rw [hretires.slot, if_pos (List.mem_map_of_mem hmem)]
  unmarked victim hmem := by
    have hidle := hretires.idle victim hmem
    have hspent : ¬ (c.slot victim.2 = .retiring ∨ c.slot victim.2 = .gone) := by
      intro hslot
      have hspent : (c.slot victim.2).Spent := by rcases hslot with hslot | hslot <;> rw [hslot] <;> trivial
      obtain ⟨hspent', hrank, -⟩ := hspent.moves (h.turns victim.2)
      have hlow := (hspent'.rank_le_one).1 (hrank.trans (hspent.rank_le_one.2 hslot))
      rcases hidle with hidle | hidle <;> rw [hidle] at hlow <;> simp at hlow
    exact not_or.1 hspent
  nodup := hretires.nodup
  only ref hslot := by
    rw [hretires.slot] at hslot
    split at hslot
    case isTrue hmem => exact .inr hmem
    · rcases h.only ref hslot with hslot | hslot
      · exact .inl hslot
      · cases hslot

/-- A section that ends with an eviction. -/
theorem Acts.evictBucketOverflow {c₁ : ModelRuntimeCache ρ} (h : Acts P c [] c₁) (limits : Limits) (bucket : String)
    (excludeId : Option CanonicalId) (hP : ∀ move, move.Plain → P move) :
    Acts P c (c₁.evictBucketOverflow limits bucket excludeId).1 (c₁.evictBucketOverflow limits bucket excludeId).2 :=
  h.retires (evictBucketOverflow_spec limits h.tidy bucket excludeId).1 hP

/-! ## The sections -/

theorem plain_install : Turn.Plain .install := ⟨by simp [Turn.Frees], by simp [Turn.Own]⟩
theorem plain_reserve : Turn.Plain .reserve := ⟨by simp [Turn.Frees], by simp [Turn.Own]⟩
theorem plain_pin : Turn.Plain .pin := ⟨by simp [Turn.Frees], by simp [Turn.Own]⟩
theorem plain_replace : Turn.Plain .replace := ⟨by simp [Turn.Frees], by simp [Turn.Own]⟩
theorem plain_invalidate : Turn.Plain .invalidate := ⟨by simp [Turn.Frees], by simp [Turn.Own]⟩

theorem idle_of_not_isBusy (h : c.Tidy) (hcur : c.current? id = some ref) (hbusy : ¬ (c.heap ref).IsBusy) :
    (c.slot ref).Idle := by
  rw [slot_of_current h hcur]
  exact idle_of_isEvictable (RuntimeEntry.isEvictable_iff_not_isBusy.2 hbusy)

theorem Acts.moveToEnd (h : Acts P c [] c') (id : CanonicalId) : Acts P c [] (c'.moveToEnd id) :=
  h.trans (.of_moveToEnd h.tidy id)

theorem retire_acts (h : c.Tidy) (hcur : c.current? id = some ref) (hevictable : (c.heap ref).IsEvictable) :
    Acts Turn.Plain c [(id, ref)] (c.retire ref) :=
  (Acts.refl h).retires (.cons h hcur hevictable (.nil (h.retire hevictable.1))) fun _ hmove => hmove

theorem install_acts (h : c.Tidy) (hnone : c.current? id = none) (bucket : String) (runtime : ρ) :
    Acts Turn.Plain c [] (c.install id bucket .ready (some runtime)).2 :=
  .of_install h hnone plain_install (by simp [ModelRuntimeCache.install, RuntimeEntry.slot, Slot.turn])
    (by simp [ModelRuntimeCache.install, RuntimeEntry.slot])

/-- A reservation is a new object that is being loaded. -/
theorem reserve_acts (h : c.Tidy) (hnone : c.current? id = none) (bucket : String) :
    Acts Turn.Plain c [] (c.reserve id bucket).2 ∧ (c.reserve id bucket).1 = c.made ∧
      (c.reserve id bucket).2.current? id = some c.made ∧
      (c.reserve id bucket).2.slot = Function.update c.slot c.made .loading := by
  have hnew : ((c.install id bucket .loading none).2.heap c.made).slot = .loading := by
    simp [ModelRuntimeCache.install, RuntimeEntry.slot]
  have hinstall := slot_install h hnone bucket .loading none
  rw [hnew] at hinstall
  refine ⟨.of_install h hnone plain_reserve (by rw [hnew]; rfl) (by simp [hnew]), rfl, ?_, hinstall⟩
  rw [reserve, current?_install, if_pos rfl]

theorem get_acts (h : c.Tidy) (id : CanonicalId) : Acts P c [] (c.get id).2 := by
  unfold get
  split
  · exact .refl h
  split
  · exact (Acts.refl h).moveToEnd id
  · exact .refl h

/-- The entry that `put` replaces. -/
theorem replace_acts (h : c.Tidy) (hcur : c.current? id = some ref) (hbusy : ¬ (c.heap ref).IsBusy) :
    Acts Turn.Plain c [] (c.remove id) :=
  .of_remove h hcur (.one plain_replace (idle_of_not_isBusy h hcur hbusy).turn_replace)

theorem put_acts [DecidableEq ρ] (limits : Limits) (h : c.Tidy) (id : CanonicalId) (runtime : ρ) (mediaType : Option String) :
    match (c.put limits id runtime mediaType).1 with
    | .ok cleanup => Acts Turn.Plain c cleanup.overflow (c.put limits id runtime mediaType).2
    | .error _ => (c.put limits id runtime mediaType).2 = c := by
  unfold put
  cases hcur : c.current? id with
  | none => exact (install_acts h hcur _ runtime).evictBucketOverflow limits _ _ fun _ hmove => hmove
  | some ref =>
    by_cases hbusy : (c.heap ref).IsBusy
    · simp [hbusy]
    by_cases hsame : (c.heap ref).runtime = some runtime
    · by_cases hinvalid : (c.heap ref).state = .invalid
      · simp [hbusy, hsame, hinvalid]
      · simp only [hbusy, hsame, hinvalid, if_true, if_false]
        have hmodify : Acts Turn.Plain c [] (c.modify ref fun entry =>
            { entry with mediaBucket := limits.bucketOf mediaType }) :=
          .of_modify h hcur rfl rfl (h.unleased id ref hcur) .refl fun hslot => hslot
        exact (hmodify.moveToEnd id).evictBucketOverflow limits _ _ fun _ hmove => hmove
    · simp only [hbusy, hsame, if_false]
      have hremove := replace_acts h hcur hbusy
      have hnone : (c.remove id).current? id = none := by rw [current?_remove, if_pos rfl]
      exact (hremove.trans (install_acts hremove.tidy hnone _ runtime)).evictBucketOverflow limits _ _ fun _ hmove => hmove

/-- What `put` says that it has replaced: an idle entry, which is out of the cache for good. -/
theorem put_replaced [DecidableEq ρ] (limits : Limits) (h : c.Tidy) (id : CanonicalId) (runtime : ρ)
    (mediaType : Option String) (cleanup : PutCleanup ρ) (old : CanonicalId × EntryRef × ρ)
    (hput : (c.put limits id runtime mediaType).1 = .ok cleanup) (hold : cleanup.replaced = some old) :
    old.1 = id ∧ c.current? id = some old.2.1 ∧ ¬ (c.heap old.2.1).IsBusy ∧
      (c.heap old.2.1).runtime = some old.2.2 ∧ (c.put limits id runtime mediaType).2.slot old.2.1 = .gone ∧
      (c.put limits id runtime mediaType).2.heap old.2.1 = c.heap old.2.1 := by
  unfold put at hput ⊢
  cases hcur : c.current? id with
  | none =>
    simp only [hcur, settlePut, Except.ok.injEq] at hput
    subst hput
    cases hold
  | some ref =>
    by_cases hbusy : (c.heap ref).IsBusy
    · simp [hcur, hbusy] at hput
    by_cases hsame : (c.heap ref).runtime = some runtime
    · by_cases hinvalid : (c.heap ref).state = .invalid
      · simp [hcur, hbusy, hsame, hinvalid] at hput
      · simp only [hcur, hbusy, hsame, hinvalid, if_true, if_false, settlePut, Except.ok.injEq] at hput
        subst hput
        cases hold
    · simp only [hcur, hbusy, hsame, if_false, settlePut, Except.ok.injEq] at hput ⊢
      subst hput
      obtain ⟨held, hheld, rfl⟩ := Option.map_eq_some_iff.1 hold
      have hremove := replace_acts h hcur hbusy
      have hnone : (c.remove id).current? id = none := by rw [current?_remove, if_pos rfl]
      have hafter := (install_acts hremove.tidy hnone (limits.bucketOf mediaType) runtime).evictBucketOverflow limits
        (limits.bucketOf mediaType) (some id) fun _ hmove => hmove
      have hgone : (c.remove id).slot ref = .gone := by rw [slot_remove h hcur, Function.update_self]
      exact ⟨rfl, rfl, hbusy, hheld, (hafter.turns ref).gone hgone, hafter.frozen ref hgone⟩

theorem unload_acts (h : c.Tidy) (id : CanonicalId) :
    match (c.unload id).1 with
    | .ok (some ref) => Acts Turn.Plain c [(id, ref)] (c.unload id).2
    | _ => (c.unload id).2 = c := by
  unfold unload
  cases hcur : c.current? id with
  | none => rfl
  | some ref =>
    by_cases hbusy : (c.heap ref).IsBusy
    · simp [hbusy]
    · simp only [hbusy, if_false]
      exact retire_acts h hcur (RuntimeEntry.isEvictable_iff_not_isBusy.2 hbusy)

theorem foldl_retire_spec {entries : List (CanonicalId × EntryRef)} (h : c.Tidy)
    (hsub : ∀ entry ∈ entries, c.current? entry.1 = some entry.2 ∧ (c.heap entry.2).IsEvictable)
    (hnodup : (entries.map Prod.fst).Nodup) :
    Retires c entries (entries.foldl (fun c entry => c.retire entry.2) c) := by
  induction entries generalizing c with
  | nil => exact .nil h
  | cons entry entries ih =>
    obtain ⟨hcur, hevictable⟩ := hsub entry List.mem_cons_self
    obtain ⟨hnew, hnodup⟩ := List.nodup_cons.1 hnodup
    refine .cons h hcur hevictable (ih (h.retire hevictable.1) ?_ hnodup)
    intro entry' hmem
    obtain ⟨hcur', hevictable'⟩ := hsub entry' (List.mem_cons_of_mem _ hmem)
    have hne : entry'.2 ≠ entry.2 := by
      intro heq
      have hid : entry'.1 = entry.1 := h.inj hcur' (heq ▸ hcur)
      exact hnew (hid ▸ List.mem_map_of_mem hmem)
    exact ⟨hcur', by simpa [retire, hne] using hevictable'⟩

theorem unloadAll_acts (h : c.Tidy) :
    match (c.unloadAll).1 with
    | .ok targets => Acts Turn.Plain c targets (c.unloadAll).2
    | .error _ => (c.unloadAll).2 = c := by
  unfold unloadAll
  by_cases hbusy : (c.entries.filter fun entry => (c.heap entry.2).IsBusy).isEmpty
  · simp only [hbusy, if_true]
    have hsub : ∀ entry ∈ c.entries, c.current? entry.1 = some entry.2 ∧ (c.heap entry.2).IsEvictable := by
      intro entry hmem
      refine ⟨h.current?_of_mem hmem, RuntimeEntry.isEvictable_iff_not_isBusy.2 fun hentry => ?_⟩
      have hnone := List.filter_eq_nil_iff.1 (List.isEmpty_iff.1 hbusy) entry hmem
      exact hnone (by simpa using hentry)
    exact (Acts.refl h).retires (foldl_retire_spec h hsub h.keys) fun _ hmove => hmove
  · simp [hbusy]

theorem selectCapacityVictim_spec {bucket : String} {budgetFor : CanonicalId} {victim : CanonicalId × EntryRef}
    (h : c.selectCapacityVictim limits bucket budgetFor = .ok (some victim)) :
    victim ∈ c.entries ∧ (c.heap victim.2).IsEvictable := by
  unfold selectCapacityVictim at h
  dsimp only at h
  split at h
  · cases h
  split at h
  · cases h
  split at h
  · cases h
  case _ victim' hfound =>
    split at h
    · cases h
    · cases h
      exact ⟨mem_bucketEntries (List.mem_of_find?_eq_some hfound), by simpa using List.find?_some hfound⟩

/-- What a claim gives up for teardown. -/
def Claim.givenUp : Claim → List (CanonicalId × EntryRef)
  | .victim id ref => [(id, ref)]
  | _ => []

theorem acquireOrReserve_acts (limits : Limits) (h : c.Tidy) (id : CanonicalId) (mediaType : Option String) :
    match (c.acquireOrReserve limits id mediaType).1 with
    | .ok claim => Acts Turn.Plain c claim.givenUp (c.acquireOrReserve limits id mediaType).2
    | .error _ => (c.acquireOrReserve limits id mediaType).2 = c := by
  unfold acquireOrReserve
  cases hcur : c.current? id with
  | some ref =>
    dsimp only
    cases hstate : (c.heap ref).state with
    | loading | retiring => rfl
    | ready =>
      refine Acts.moveToEnd (.of_modify h hcur rfl rfl ?_ ?_ ?_) id
      · simp [hstate, busyForUnloadStates]
      · exact .one plain_pin (by simp [RuntimeEntry.slot, hstate, Slot.turn])
      · simp [RuntimeEntry.slot, hstate]
    | invalid =>
      by_cases hpinned : (c.heap ref).IsPinned
      · simp [hpinned]
      · simp only [hpinned, if_false]
        exact retire_acts h hcur ⟨hpinned, by simp [hstate, evictableStates]⟩
  | none =>
    dsimp only
    cases hvictim : c.selectCapacityVictim limits (limits.bucketOf mediaType) id with
    | error e => rfl
    | ok victim =>
      cases victim with
      | none => exact (reserve_acts h hcur _).1
      | some victim =>
        obtain ⟨hmem, hevictable⟩ := selectCapacityVictim_spec hvictim
        exact retire_acts h (h.current?_of_mem hmem) hevictable

theorem acquireRecheck_acts (limits : Limits) (h : c.Tidy) (id : CanonicalId) (mediaType : Option String) :
    Acts Turn.Plain c [] (c.acquireRecheck limits id mediaType).2 := by
  unfold acquireRecheck
  dsimp only
  split
  · exact .refl h
  case isFalse hcur =>
    have hnone : c.current? id = none := by simpa using hcur
    split
    · exact .refl h
    · exact .refl h
    · exact (reserve_acts h hnone _).1

/-- What is given out as reserved is a new object that is being loaded. -/
theorem reserved_spec (limits : Limits) (h : c.Tidy) (id : CanonicalId) (mediaType : Option String) (ref : EntryRef)
    (hreserved : (c.acquireOrReserve limits id mediaType).1 = .ok (.reserved ref)) :
    ref = c.made ∧ (c.acquireOrReserve limits id mediaType).2.current? id = some ref ∧
      (c.acquireOrReserve limits id mediaType).2.slot ref = .loading := by
  unfold acquireOrReserve at hreserved ⊢
  cases hcur : c.current? id with
  | some ref' =>
    simp only [hcur] at hreserved
    cases hstate : (c.heap ref').state <;> simp only [hstate] at hreserved
    case invalid => split at hreserved <;> cases hreserved
    all_goals cases hreserved
  | none =>
    simp only [hcur] at hreserved ⊢
    cases hvictim : c.selectCapacityVictim limits (limits.bucketOf mediaType) id with
    | error e => simp [hvictim] at hreserved
    | ok victim =>
      cases victim with
      | some victim => simp [hvictim] at hreserved
      | none =>
        obtain ⟨-, hmade, hcur', hslot⟩ := reserve_acts h hcur (limits.bucketOf mediaType)
        simp only [hvictim, Except.ok.injEq, Claim.reserved.injEq] at hreserved
        have href : ref = c.made := hreserved.symm.trans hmade
        subst href
        exact ⟨rfl, hcur', by simp [hslot]⟩

theorem rechecked_spec (limits : Limits) (h : c.Tidy) (id : CanonicalId) (mediaType : Option String) (ref : EntryRef)
    (hreserved : (c.acquireRecheck limits id mediaType).1 = .ok ref) :
    ref = c.made ∧ (c.acquireRecheck limits id mediaType).2.current? id = some ref ∧
      (c.acquireRecheck limits id mediaType).2.slot ref = .loading := by
  unfold acquireRecheck at hreserved ⊢
  dsimp only at hreserved ⊢
  by_cases hcur : (c.current? id).isSome
  · simp [hcur] at hreserved
  have hnone : c.current? id = none := by simpa using hcur
  simp only [hnone, Option.isSome_none, Bool.false_eq_true, if_false] at hreserved ⊢
  cases hvictim : c.selectCapacityVictim limits (limits.bucketOf mediaType) id with
  | error e => simp [hvictim] at hreserved
  | ok victim =>
    cases victim with
    | some victim => simp [hvictim] at hreserved
    | none =>
      obtain ⟨-, hmade, hcur', hslot⟩ := reserve_acts h hnone (limits.bucketOf mediaType)
      simp only [hvictim, Except.ok.injEq] at hreserved
      have href : ref = c.made := hreserved.symm.trans hmade
      subst href
      exact ⟨rfl, hcur', by simp [hslot]⟩

theorem not_frees_publish : ¬ Turn.Frees .publish := by simp [Turn.Frees]
theorem not_frees_abort : ¬ Turn.Frees .abort := by simp [Turn.Frees]
theorem not_own_finish : ¬ Turn.Own .finish := by simp [Turn.Own]

/-- A reservation is still there for its owner. -/
def Reserved (c : ModelRuntimeCache ρ) (id : CanonicalId) (ref : EntryRef) : Prop :=
  c.current? id = some ref ∧ c.slot ref = .loading

theorem Reserved.unleased (h : c.Tidy) (hreserved : c.Reserved id ref) : (c.heap ref).state = .loading := by
  have hslot := hreserved.2
  rw [slot_of_current h hreserved.1] at hslot
  unfold RuntimeEntry.slot at hslot
  cases hstate : (c.heap ref).state <;> simp [hstate] at hslot
  rfl

/-- Other callers leave a reservation alone. -/
theorem Reserved.kept (hreserved : c.Reserved id ref) (h : c.Tidy)
    (hacts : Acts (fun move => ¬ move.Own) c victims c') : c'.Reserved id ref := by
  have hslot := (hacts.turns ref).loading hreserved.2
  refine ⟨?_, hslot⟩
  have hcur' := current?_of_slot c' ref (by simp [hslot]) (by simp [hslot])
  rwa [hacts.named ref (h.made id ref hreserved.1), h.named id ref hreserved.1] at hcur'

theorem publishReadyAndPin_acts (h : c.Tidy) (hreserved : c.Reserved id ref) (runtime : ρ) :
    (c.publishReadyAndPin id ref runtime).1 = .ok () ∧
      Acts (fun move => ¬ move.Frees) c [] (c.publishReadyAndPin id ref runtime).2 ∧
      (c.publishReadyAndPin id ref runtime).2.slot = Function.update c.slot ref (.ready 1) := by
  unfold publishReadyAndPin
  rw [if_pos hreserved.1]
  have hslot : (c.modify ref fun entry => { entry with runtime := some runtime, state := .ready, leaseCount := 1 }).slot =
      Function.update c.slot ref (.ready 1) := slot_modify h rfl hreserved.1
  have hloading := hreserved.2
  refine ⟨rfl, Acts.moveToEnd (.of_update h (h.modify rfl ?_) hslot ?_ (by simp) (by simp) (Nat.le_refl _)
    (fun ref' _ hne => ?_) fun _ => ⟨slot_ne_gone h hreserved.1, ?_, fun hloaded => absurd hloading hloaded.2⟩) id, ?_⟩
  · simp [busyForUnloadStates]
  · rw [hloading]
    exact .one not_frees_publish rfl
  · rw [heap_modify, Function.update_of_ne hne]
  · simp
  · rw [slot_moveToEnd, hslot]

theorem abortReservation_acts (h : c.Tidy) (hreserved : c.Reserved id ref) :
    Acts (fun move => ¬ move.Frees) c [] (c.abortReservation id ref) ∧
      (c.abortReservation id ref).slot = Function.update c.slot ref .gone := by
  unfold abortReservation
  rw [if_pos hreserved.1]
  refine ⟨.of_remove h hreserved.1 ?_, slot_remove h hreserved.1⟩
  rw [hreserved.2]
  exact .one not_frees_abort rfl

theorem public_unpin : Turn.Public .unpin := ⟨by simp [Turn.Own], by simp⟩

/-- The first half of `release_lease`. -/
theorem unpin_acts (h : c.Tidy) (hcur : c.current? id = some ref) :
    Acts Turn.Public c [] (c.modify ref fun entry => { entry with leaseCount := entry.leaseCount - 1 }) := by
  have hunleased := h.unleased id ref hcur
  refine .of_modify h hcur rfl rfl (fun hstate => by simp [hunleased hstate]) ?_ ?_
  · unfold RuntimeEntry.slot
    cases hstate : (c.heap ref).state with
    | loading | retiring => exact .refl
    | ready | invalid =>
      cases hcount : (c.heap ref).leaseCount with
      | zero => exact .of_eq (by simp)
      | succ n => exact .one public_unpin (by simp [Slot.turn])
  · unfold RuntimeEntry.slot
    cases (c.heap ref).state <;> simp

theorem releaseLease_acts (limits : Limits) (h : c.Tidy) (id : CanonicalId) (ref : EntryRef) :
    Acts Turn.Public c (c.releaseLease limits id ref).1 (c.releaseLease limits id ref).2 := by
  unfold releaseLease
  split
  case isTrue hcur =>
    have hunpin := unpin_acts h hcur
    dsimp only
    split
    · exact hunpin.evictBucketOverflow limits _ none fun _ hmove => hmove.public
    · exact hunpin
  · exact .refl h

theorem markInvalid_acts (h : c.Tidy) (id : CanonicalId) (ref : EntryRef) :
    Acts Turn.Plain c [] (c.markInvalid id ref) := by
  unfold markInvalid
  split
  case isTrue hready =>
    obtain ⟨hcur, hstate⟩ := hready
    refine .of_modify h hcur rfl rfl ?_ ?_ (by simp [RuntimeEntry.slot])
    · simp [busyForUnloadStates]
    · exact .one plain_invalidate (by simp [RuntimeEntry.slot, hstate, Slot.turn])
  · exact .refl h

/-- The end of the retirement of an entry that has been given up. -/
theorem finishRetirement_acts (h : c.Tidy) (hmade : ref < c.made) (hid : (c.heap ref).canonicalId = id)
    (hslot : c.slot ref = .retiring ∨ c.slot ref = .gone) :
    Acts (fun move => ¬ move.Own) c [] (c.finishRetirement id ref) ∧
      (c.finishRetirement id ref).slot = Function.update c.slot ref .gone := by
  unfold finishRetirement
  split
  case isTrue hcur =>
    refine ⟨.of_remove h hcur ?_, slot_remove h hcur⟩
    rw [hslot.resolve_right (slot_ne_gone h hcur)]
    exact .one not_own_finish rfl
  case isFalse hcur =>
    refine ⟨.refl h, (Function.update_eq_self_iff.2 ?_).symm⟩
    refine (slot_eq_gone hmade fun id' hcur' => hcur ?_).symm
    rwa [← hid, h.named id' ref hcur']

/-! ## The predicate that a drain waits for -/

theorem stillBlocks_iff (h : c.Tidy) :
    c.StillBlocks id ref ↔ (c.heap ref).canonicalId = id ∧ (c.slot ref).Blocks := by
  have hentry : ∀ id', c.current? id' = some ref →
      ((c.slot ref).Blocks ↔ (c.heap ref).IsPinned ∨ (c.heap ref).state = .retiring) := by
    intro id' hcur
    have hunleased := h.unleased id' ref hcur
    rw [slot_of_current h hcur]
    unfold Slot.Blocks RuntimeEntry.slot RuntimeEntry.IsPinned
    cases hstate : (c.heap ref).state <;> simp_all [busyForUnloadStates]
  constructor
  · rintro ⟨hcur, hblocks⟩
    exact ⟨h.named id ref hcur, (hentry id hcur).2 hblocks⟩
  · rintro ⟨hid, hblocks⟩
    have hcur : c.current? id = some ref := by
      have hcur := current?_of_slot c ref
        (fun hgone => by rw [hgone] at hblocks; exact absurd hblocks (by decide))
        (fun hunmade => by rw [hunmade] at hblocks; exact absurd hblocks (by decide))
      rwa [hid] at hcur
    exact ⟨hcur, (hentry id hcur).1 hblocks⟩

/-- A section that frees nothing leaves every waiting caller waiting. -/
theorem StillBlocks.kept (hblocks : c.StillBlocks id ref) (h : c.Tidy)
    (hacts : Acts (fun move => ¬ move.Frees) c victims c') : c'.StillBlocks id ref := by
  have hmade := h.made id ref hblocks.1
  obtain ⟨hid, hslot⟩ := (stillBlocks_iff h).1 hblocks
  refine (stillBlocks_iff hacts.tidy).2 ⟨?_, (hacts.turns ref).blocks hslot⟩
  rw [hacts.named ref hmade, hid]

/-! ## Who keeps a lease -/

/-- The entry is the current one of its id, and somebody holds it. -/
def Held (c : ModelRuntimeCache ρ) (id : CanonicalId) (ref : EntryRef) : Prop :=
  c.current? id = some ref ∧ (c.slot ref).Pinned

theorem Held.of_slot (hheld : c.Held id ref) (h : c.Tidy) (hpinned : (c'.slot ref).Pinned)
    (hnamed : ∀ ref < c.made, (c'.heap ref).canonicalId = (c.heap ref).canonicalId) : c'.Held id ref := by
  refine ⟨?_, hpinned⟩
  have hcur := current?_of_slot c' ref hpinned.live.1 hpinned.live.2.1
  rwa [hnamed ref (h.made id ref hheld.1), h.named id ref hheld.1] at hcur

theorem Held.kept (hheld : c.Held id ref) (h : c.Tidy)
    (hacts : Acts (fun move => ¬ move.Frees) c victims c') : c'.Held id ref :=
  hheld.of_slot h ((hacts.turns ref).pinned hheld.2) hacts.named

/-- A released lease is one less; what is still leased is not given up. -/
theorem slot_releaseLease (limits : Limits) (h : c.Tidy) {id' : CanonicalId} {ref' : EntryRef}
    (hpinned : (c.slot ref).Pinned) (hlast : ref' = ref → 2 ≤ (c.slot ref).leases) :
    ((c.releaseLease limits id' ref').2.slot ref).Pinned := by
  unfold releaseLease
  split
  case isFalse => exact hpinned
  case isTrue hcur =>
    have hunpin := unpin_acts h hcur
    have hslot := slot_modify h (f := fun entry => { entry with leaseCount := entry.leaseCount - 1 }) rfl hcur
    have hpinned' : ((c.modify ref' fun entry =>
        { entry with leaseCount := entry.leaseCount - 1 }).slot ref).Pinned := by
      rw [hslot]
      by_cases heq : ref = ref'
      · subst heq
        have hlast := hlast rfl
        rw [Function.update_self]
        rw [slot_of_current h hcur] at hlast
        unfold RuntimeEntry.slot Slot.Pinned at *
        cases hstate : (c.heap ref).state <;> simp_all <;> omega
      · rwa [Function.update_of_ne heq]
    dsimp only
    split
    · have hretires := (evictBucketOverflow_spec limits hunpin.tidy
        ((c.modify ref' fun entry => { entry with leaseCount := entry.leaseCount - 1 }).heap ref').mediaBucket none).1
      rw [hretires.slot, if_neg]
      · exact hpinned'
      · intro hmem
        obtain ⟨victim, hvictim, rfl⟩ := List.mem_map.1 hmem
        exact hpinned'.not_idle (hretires.idle victim hvictim)
    · exact hpinned'

/-! ## What is handed out, and when an id gets an entry -/

theorem get_spec {runtime : ρ} (hget : (c.get id).1 = some runtime) :
    ∃ ref, c.current? id = some ref ∧ (c.heap ref).state = .ready ∧ (c.heap ref).runtime = some runtime := by
  unfold get at hget
  cases hcur : c.current? id with
  | none => simp [hcur] at hget
  | some ref =>
    by_cases hready : (c.heap ref).state = .ready
    · exact ⟨ref, rfl, hready, by simpa [hcur, hready] using hget⟩
    · simp [hcur, hready] at hget

theorem pinned_spec (limits : Limits) (id : CanonicalId) (mediaType : Option String)
    (hpinned : (c.acquireOrReserve limits id mediaType).1 = .ok (.pinned ref)) :
    c.current? id = some ref ∧ (c.heap ref).state = .ready := by
  unfold acquireOrReserve at hpinned
  cases hcur : c.current? id with
  | some ref' =>
    simp only [hcur] at hpinned
    cases hstate : (c.heap ref').state <;> simp only [hstate] at hpinned
    case ready =>
      cases hpinned
      exact ⟨rfl, hstate⟩
    case invalid => split at hpinned <;> cases hpinned
    all_goals cases hpinned
  | none =>
    simp only [hcur] at hpinned
    split at hpinned <;> cases hpinned

/-- An id gets an entry only when it has none. -/
def InsertsVacant (c c' : ModelRuntimeCache ρ) : Prop :=
  ∀ id ref, c'.current? id = some ref → c.current? id = some ref ∨ c.current? id = none

theorem InsertsVacant.of_current? (h : ∀ id, c'.current? id = c.current? id) : InsertsVacant c c' :=
  fun id _ hcur => .inl ((h id).symm.trans hcur)

theorem Retires.current?_eq (h : Retires c victims c') (id : CanonicalId) : c'.current? id = c.current? id := by
  rw [current?, current?, h.entries]

theorem Retires.insertsVacant (h : Retires c victims c') : InsertsVacant c c' :=
  .of_current? h.current?_eq

theorem insertsVacant_remove (c : ModelRuntimeCache ρ) (id : CanonicalId) : InsertsVacant c (c.remove id) := by
  intro id' ref hcur
  rw [current?_remove] at hcur
  split at hcur
  · cases hcur
  · exact .inl hcur

theorem insertsVacant_install (hnone : c.current? id = none) (bucket : String) (state : RuntimeState)
    (runtime : Option ρ) : InsertsVacant c (c.install id bucket state runtime).2 := by
  intro id' ref hcur
  rw [current?_install] at hcur
  split at hcur
  case isTrue heq => exact .inr (heq ▸ hnone)
  · exact .inl hcur

theorem get_insertsVacant (c : ModelRuntimeCache ρ) (id : CanonicalId) : InsertsVacant c (c.get id).2 := by
  refine .of_current? fun id' => ?_
  unfold get
  split
  · rfl
  split
  · exact current?_moveToEnd ..
  · rfl

theorem unload_insertsVacant (c : ModelRuntimeCache ρ) (id : CanonicalId) : InsertsVacant c (c.unload id).2 := by
  refine .of_current? fun id' => ?_
  unfold unload
  split
  · rfl
  · split <;> rfl

theorem unloadAll_insertsVacant (c : ModelRuntimeCache ρ) : InsertsVacant c c.unloadAll.2 := by
  have hfold : ∀ (entries : List (CanonicalId × EntryRef)) (c : ModelRuntimeCache ρ) (id : CanonicalId),
      (entries.foldl (fun c entry => c.retire entry.2) c).current? id = c.current? id := by
    intro entries
    induction entries with
    | nil => exact fun _ _ => rfl
    | cons entry entries ih => exact fun c id => ih (c.retire entry.2) id
  refine .of_current? fun id' => ?_
  unfold unloadAll
  dsimp only
  split
  · exact hfold ..
  · rfl

theorem acquireOrReserve_insertsVacant (limits : Limits) (c : ModelRuntimeCache ρ) (id : CanonicalId)
    (mediaType : Option String) : InsertsVacant c (c.acquireOrReserve limits id mediaType).2 := by
  unfold acquireOrReserve
  cases hcur : c.current? id with
  | some ref =>
    refine .of_current? fun id' => ?_
    dsimp only
    cases (c.heap ref).state with
    | loading | retiring => rfl
    | ready => exact current?_moveToEnd ..
    | invalid =>
      dsimp only
      split <;> rfl
  | none =>
    dsimp only
    split
    · exact .of_current? fun _ => rfl
    · exact insertsVacant_install hcur _ _ _
    · exact .of_current? fun _ => rfl

theorem acquireRecheck_insertsVacant (limits : Limits) (c : ModelRuntimeCache ρ) (id : CanonicalId)
    (mediaType : Option String) : InsertsVacant c (c.acquireRecheck limits id mediaType).2 := by
  unfold acquireRecheck
  dsimp only
  split
  · exact .of_current? fun _ => rfl
  case isFalse hcur =>
    have hnone : c.current? id = none := by simpa using hcur
    split
    · exact .of_current? fun _ => rfl
    · exact .of_current? fun _ => rfl
    · exact insertsVacant_install hnone _ _ _

theorem publishReadyAndPin_insertsVacant (c : ModelRuntimeCache ρ) (id : CanonicalId) (ref : EntryRef) (runtime : ρ) :
    InsertsVacant c (c.publishReadyAndPin id ref runtime).2 := by
  refine .of_current? fun id' => ?_
  unfold publishReadyAndPin
  split
  · exact current?_moveToEnd ..
  · rfl

theorem abortReservation_insertsVacant (c : ModelRuntimeCache ρ) (id : CanonicalId) (ref : EntryRef) :
    InsertsVacant c (c.abortReservation id ref) := by
  unfold abortReservation
  split
  · exact insertsVacant_remove c id
  · exact .of_current? fun _ => rfl

theorem finishRetirement_insertsVacant (c : ModelRuntimeCache ρ) (id : CanonicalId) (ref : EntryRef) :
    InsertsVacant c (c.finishRetirement id ref) := by
  unfold finishRetirement
  split
  · exact insertsVacant_remove c id
  · exact .of_current? fun _ => rfl

theorem releaseLease_insertsVacant (limits : Limits) (h : c.Tidy) (id : CanonicalId) (ref : EntryRef) :
    InsertsVacant c (c.releaseLease limits id ref).2 := by
  unfold releaseLease
  split
  case isTrue hcur =>
    have hunpin := unpin_acts h hcur
    dsimp only
    split
    · exact (evictBucketOverflow_spec limits hunpin.tidy _ none).1.insertsVacant
    · exact .of_current? fun _ => rfl
  · exact .of_current? fun _ => rfl

theorem markInvalid_insertsVacant (c : ModelRuntimeCache ρ) (id : CanonicalId) (ref : EntryRef) :
    InsertsVacant c (c.markInvalid id ref) := by
  refine .of_current? fun id' => ?_
  unfold markInvalid
  split <;> rfl

/-- `put` gives an id an entry when it has none, or in place of an idle one. -/
theorem put_inserts [DecidableEq ρ] (limits : Limits) (h : c.Tidy) (id : CanonicalId) (runtime : ρ)
    (mediaType : Option String) {id' : CanonicalId}
    (hcur' : (c.put limits id runtime mediaType).2.current? id' = some ref) :
    c.current? id' = some ref ∨ c.current? id' = none ∨
      id' = id ∧ ∃ old, c.current? id = some old ∧ ¬ (c.heap old).IsBusy := by
  unfold put at hcur'
  cases hcur : c.current? id with
  | none =>
    simp only [hcur] at hcur'
    have hinstall := (install_acts h hcur (limits.bucketOf mediaType) runtime).tidy
    have hkept := (evictBucketOverflow_spec limits hinstall (limits.bucketOf mediaType) (some id)).1
    exact (insertsVacant_install hcur _ _ _ id' ref ((hkept.current?_eq id').symm.trans hcur')).imp_right .inl
  | some old =>
    by_cases hbusy : (c.heap old).IsBusy
    · simp only [hcur, hbusy, if_true] at hcur'
      exact .inl hcur'
    by_cases hid : id' = id
    · exact .inr (.inr ⟨hid, old, rfl, hbusy⟩)
    left
    by_cases hsame : (c.heap old).runtime = some runtime
    · by_cases hinvalid : (c.heap old).state = .invalid
      · simpa only [hcur, hbusy, hsame, hinvalid, if_true, if_false] using hcur'
      · simp only [hcur, hbusy, hsame, hinvalid, if_true, if_false] at hcur'
        have hmoved : ((c.modify old fun entry => { entry with mediaBucket := limits.bucketOf mediaType }).moveToEnd
            id).Tidy := Tidy.moveToEnd (h.modify rfl (h.unleased id old hcur)) id
        have hkept := (evictBucketOverflow_spec limits hmoved (limits.bucketOf mediaType) (some id)).1
        have hbefore := (hkept.current?_eq id').symm.trans hcur'
        rwa [current?_moveToEnd, current?_modify] at hbefore
    · simp only [hcur, hbusy, hsame, if_false] at hcur'
      have hinstall := (h.remove id).install id (limits.bucketOf mediaType) .ready (some runtime)
      have hkept := (evictBucketOverflow_spec limits hinstall (limits.bucketOf mediaType) (some id)).1
      have hbefore := (hkept.current?_eq id').symm.trans hcur'
      rwa [current?_install, if_neg (Ne.symm hid), current?_remove, if_neg hid] at hbefore

end CreativeStudio.Models.ModelRuntimeCache
