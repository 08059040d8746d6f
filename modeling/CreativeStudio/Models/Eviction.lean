import CreativeStudio.Models.CacheInvariant

/-!
# Teardown of cached runtimes

`Accounted` keeps the books of the clean-ups: what is still to be torn down belongs to one
thread and has not been torn down, and what has left the cache in mid-retirement has been.
From it follows that nothing is torn down while it is leased, or twice, and that an id gets a
new entry only when its last one is done with.
-/

namespace CreativeStudio.Models
open Data Conc

variable {ρ : Type} {limits : Limits} {s s' : CacheSystem ρ} {t : Tid}
  {victims : List (CanonicalId × EntryRef)} {c' : ModelRuntimeCache ρ}

/-- The entry that a chore is about. -/
def Chore.ref : Chore ρ → EntryRef
  | .cleanup _ ref _ | .retirement _ ref | .removal _ ref => ref

namespace CacheSystem

/-- What a chore finds. -/
def Pending (s : CacheSystem ρ) : Chore ρ → Prop
  | .cleanup _ ref runtime => s.cache.slot ref = .gone ∧ (s.cache.heap ref).runtime = some runtime ∧
      (s.cache.heap ref).leaseCount = 0 ∧ ref ∉ s.evicted.map Prod.fst
  | .retirement _ ref => s.cache.slot ref = .retiring ∧ ref ∉ s.evicted.map Prod.fst
  | .removal _ ref => s.cache.slot ref = .retiring ∧
      ∀ runtime, (s.cache.heap ref).runtime = some runtime → (ref, runtime) ∈ s.evicted

/-- The entries that a thread has chores about. -/
def charges (s : CacheSystem ρ) (t : Tid) : List EntryRef := (s.activity t).chores.map Chore.ref

/-- The books of the clean-ups. -/
structure Accounted (s : CacheSystem ρ) : Prop extends Sound s where
  distinct : ∀ t, (s.charges t).Nodup
  disjoint : ∀ t u, t ≠ u → (s.charges t).Disjoint (s.charges u)
  pending : ∀ t, ∀ chore ∈ (s.activity t).chores, s.Pending chore
  once : (s.evicted.map Prod.fst).Nodup
  spent : ∀ call ∈ s.evicted, (s.cache.slot call.1 = .retiring ∨ s.cache.slot call.1 = .gone) ∧
    (s.cache.heap call.1).runtime = some call.2
  finished : ∀ ref, s.cache.slot ref = .gone → (s.cache.heap ref).state = .retiring →
    (s.cache.heap ref).leaseCount = 0 ∧
      ∀ runtime, (s.cache.heap ref).runtime = some runtime → (ref, runtime) ∈ s.evicted

theorem accounted_start : (start ρ).Accounted where
  toSound := sound_start
  distinct := by simp [charges, start]
  disjoint := by simp [charges, start]
  pending := by simp [start]
  once := List.nodup_nil
  spent := by simp [start]
  finished ref hgone := by
    have hunmade : (start ρ).cache.slot ref = .unmade := by
      simp [start, ModelRuntimeCache.slot, ModelRuntimeCache.empty, ModelRuntimeCache.current?, Dict.get?]
    rw [hunmade] at hgone
    cases hgone

theorem Accounted.charged {ref : EntryRef} (h : s.Accounted) (hmem : ref ∈ s.charges t) :
    s.cache.slot ref = .retiring ∨ s.cache.slot ref = .gone := by
  obtain ⟨chore, hchore, rfl⟩ := List.mem_map.1 hmem
  have hpending := h.pending t chore hchore
  cases chore with
  | cleanup _ _ _ => exact .inr hpending.1
  | retirement _ _ | removal _ _ => exact .inl hpending.1

/-- Nobody holds what is being retired. -/
theorem Accounted.unleased {ref : EntryRef} (h : s.Accounted) (hretiring : s.cache.slot ref = .retiring) :
    (s.cache.heap ref).leaseCount = 0 := by
  have hcur := ModelRuntimeCache.current?_of_slot s.cache ref (by simp [hretiring]) (by simp [hretiring])
  refine h.tidy.unleased _ ref hcur ?_
  rw [ModelRuntimeCache.slot_of_current h.tidy hcur] at hretiring
  unfold RuntimeEntry.slot at hretiring
  cases hstate : (s.cache.heap ref).state <;> simp_all [busyForUnloadStates]

/-- Other sections leave alone what a chore finds. -/
theorem Pending.kept {chore : Chore ρ} (h : s.Pending chore)
    (hacts : s.cache.Acts (fun move => move ≠ .finish) victims s'.cache) (hevicted : s'.evicted = s.evicted) :
    s'.Pending chore := by
  cases chore with
  | cleanup _ ref runtime =>
    obtain ⟨hgone, hruntime, hleases, hnew⟩ := h
    refine ⟨(hacts.turns ref).gone hgone, ?_, ?_, hevicted ▸ hnew⟩ <;> rwa [hacts.frozen ref hgone]
  | retirement _ ref => exact ⟨(hacts.turns ref).retiring h.1, hevicted ▸ h.2⟩
  | removal _ ref =>
    refine ⟨(hacts.turns ref).retiring h.1, fun runtime hruntime => hevicted ▸ h.2 runtime ?_⟩
    rwa [← hacts.runtime ref (h.1 ▸ ⟨by simp, by simp⟩)]

/-! ## Sections -/

theorem Replaced.slot {chore : Chore ρ} (h : s.Sound) (hreplaced : Replaced s s' chore) :
    s.cache.slot chore.ref ≠ .retiring ∧ s.cache.slot chore.ref ≠ .gone ∧ s'.cache.slot chore.ref = .gone := by
  obtain ⟨id, ref, runtime, rfl, hcur, hbusy, -, hgone, -⟩ := hreplaced
  have hidle := ModelRuntimeCache.idle_of_not_isBusy h.tidy hcur hbusy
  refine ⟨?_, ?_, hgone⟩ <;> intro hslot <;> rcases hidle with hidle | hidle <;> cases hidle.symm.trans hslot

theorem Accounted.section {first : List (Chore ρ)} (h : s.Accounted) (hidle : (s.activity t).chores = [])
    (hsection : Section t first victims s s') : s'.Accounted := by
  have hacts := hsection.acts
  have hevicted := hsection.evicted
  have hcharges : s'.charges t = first.map Chore.ref ++ victims.map Prod.snd := by
    simp [charges, hsection.chores, Chore.ref, Function.comp_def]
  have hothers : ∀ u, u ≠ t → s'.charges u = s.charges u := fun u hne => by
    unfold charges
    rw [hsection.chores_other hne]
  -- What the section leaves to do has not been given up before.
  have hfresh : ∀ ref ∈ s'.charges t, s.cache.slot ref ≠ .retiring ∧ s.cache.slot ref ≠ .gone := by
    intro ref hmem
    rw [hcharges] at hmem
    rcases List.mem_append.1 hmem with hmem | hmem
    · obtain ⟨chore, hchore, rfl⟩ := List.mem_map.1 hmem
      have hslot := (hsection.first.2 chore hchore).slot h.toSound
      exact ⟨hslot.1, hslot.2.1⟩
    · obtain ⟨victim, hvictim, rfl⟩ := List.mem_map.1 hmem
      exact hacts.unmarked victim hvictim
  have hnew : ∀ ref ∈ s'.charges t, ref ∉ s.evicted.map Prod.fst := by
    intro ref hmem hevicted
    obtain ⟨call, hcall, rfl⟩ := List.mem_map.1 hevicted
    rcases (h.spent call hcall).1 with hslot | hslot
    · exact (hfresh _ hmem).1 hslot
    · exact (hfresh _ hmem).2 hslot
  have hseparate : ∀ u, u ≠ t → (s'.charges t).Disjoint (s'.charges u) := by
    intro u hne ref hmem hmem'
    rw [hothers u hne] at hmem'
    rcases h.charged hmem' with hslot | hslot
    · exact (hfresh ref hmem).1 hslot
    · exact (hfresh ref hmem).2 hslot
  refine ⟨hsection.sound, fun u => ?_, fun u v hne => ?_, fun u chore hmem => ?_, hevicted ▸ h.once, ?_, ?_⟩
  · by_cases heq : u = t
    · subst heq
      rw [hcharges]
      refine List.Nodup.append ?_ hacts.nodup ?_
      · match first, hsection.first.1 with
        | [], _ => exact List.nodup_nil
        | [chore], _ => exact List.nodup_singleton _
      · intro ref hmem hmem'
        obtain ⟨chore, hchore, rfl⟩ := List.mem_map.1 hmem
        obtain ⟨victim, hvictim, heq⟩ := List.mem_map.1 hmem'
        have hgone := ((hsection.first.2 chore hchore).slot h.toSound).2.2
        rw [← heq, hacts.marked victim hvictim] at hgone
        cases hgone
    · rw [hothers u heq]
      exact h.distinct u
  · by_cases hu : u = t
    · subst hu
      exact hseparate v (Ne.symm hne)
    · by_cases hv : v = t
      · subst hv
        exact fun ref hmem hmem' => hseparate u hu hmem' hmem
      · rw [hothers u hu, hothers v hv]
        exact h.disjoint u v hne
  · by_cases heq : u = t
    · subst heq
      have hnew := hnew chore.ref (List.mem_map_of_mem hmem)
      rw [hsection.chores] at hmem
      rcases List.mem_append.1 hmem with hmem | hmem
      · obtain ⟨id, ref, runtime, rfl, hcur, hbusy, hruntime, hgone, hheap⟩ := hsection.first.2 chore hmem
        have hleases : (s.cache.heap ref).leaseCount = 0 := by
          by_contra hleased
          exact hbusy (.inl (Nat.pos_of_ne_zero hleased))
        exact ⟨hgone, hheap ▸ hruntime, hheap ▸ hleases, hevicted ▸ hnew⟩
      · obtain ⟨victim, hvictim, rfl⟩ := List.mem_map.1 hmem
        exact ⟨hacts.marked victim hvictim, hevicted ▸ hnew⟩
    · rw [hsection.chores_other heq] at hmem
      exact (h.pending u chore hmem).kept hacts hevicted
  · rw [hevicted]
    intro call hcall
    obtain ⟨hslot, hruntime⟩ := h.spent call hcall
    rcases hslot with hslot | hslot
    · exact ⟨.inl ((hacts.turns call.1).retiring hslot), by rwa [hacts.runtime _ (hslot ▸ ⟨by simp, by simp⟩)]⟩
    · exact ⟨.inr ((hacts.turns call.1).gone hslot), by rwa [hacts.runtime _ (hslot ▸ ⟨by simp, by simp⟩)]⟩
  · intro ref hgone hstate
    rw [hevicted]
    by_cases hbefore : s.cache.slot ref = .gone
    · rw [hacts.frozen ref hbefore] at hstate ⊢
      exact h.finished ref hbefore hstate
    · have hretiring := (hacts.turns ref).retiring (hacts.vanished ref hgone hbefore hstate)
      rw [hretiring] at hgone
      cases hgone

/-! ## Chores -/

/-- Nobody else has a chore about the entry. -/
theorem Accounted.ref_ne {ref : EntryRef} {u : Tid} {chore : Chore ρ} (h : s.Accounted)
    (hmem : ref ∈ s.charges t) (hchore : chore ∈ (s.activity u).chores) (hne : u ≠ t) : chore.ref ≠ ref := by
  rintro rfl
  exact h.disjoint u t hne (List.mem_map_of_mem hchore) hmem

/-- What a chore about another entry finds when one call has been made. -/
theorem Pending.called {chore : Chore ρ} {calls : List (EntryRef × ρ)} (h : s.Pending chore)
    (hcache : s'.cache = s.cache) (hevicted : s'.evicted = s.evicted ++ calls)
    (hnew : ∀ call ∈ calls, call.1 ≠ chore.ref) : s'.Pending chore := by
  have hfresh : chore.ref ∉ s.evicted.map Prod.fst → chore.ref ∉ s'.evicted.map Prod.fst := by
    intro hnot
    rw [hevicted, List.map_append, List.mem_append, not_or]
    refine ⟨hnot, fun hmem => ?_⟩
    obtain ⟨call, hcall, heq⟩ := List.mem_map.1 hmem
    exact hnew call hcall heq
  cases chore with
  | cleanup _ ref runtime =>
    obtain ⟨hgone, hruntime, hleases, hnot⟩ := h
    exact ⟨hcache ▸ hgone, hcache ▸ hruntime, hcache ▸ hleases, hfresh hnot⟩
  | retirement _ ref => exact ⟨hcache ▸ h.1, hfresh h.2⟩
  | removal _ ref =>
    refine ⟨hcache ▸ h.1, fun runtime hruntime => ?_⟩
    rw [hevicted]
    exact List.mem_append_left _ (h.2 runtime (hcache ▸ hruntime))

/-- A call of the hook about the first of a thread's chores. -/
theorem Accounted.called (first : Chore ρ) (rest' : List (Chore ρ)) {rest : List (Chore ρ)} {calls : List (EntryRef × ρ)}
    (h : s.Accounted) (hsound : s'.Sound) (hcache : s'.cache = s.cache) (hevicted : s'.evicted = s.evicted ++ calls)
    (hcalls : calls.length ≤ 1 ∧ ∀ call ∈ calls, call.1 = first.ref ∧ (s.cache.heap first.ref).runtime = some call.2)
    (hnew : first.ref ∉ s.evicted.map Prod.fst)
    (hbefore : (s.activity t).chores = first :: rest) (hafter : (s'.activity t).chores = rest' ++ rest)
    (hrest' : rest'.length ≤ 1 ∧ ∀ chore ∈ rest', chore.ref = first.ref ∧ s'.Pending chore)
    (hothers : ∀ u, u ≠ t → (s'.activity u).chores = (s.activity u).chores) : s'.Accounted := by
  have hmine : first.ref ∈ s.charges t := by simp [charges, hbefore]
  have hdistinct := h.distinct t
  rw [charges, hbefore] at hdistinct
  obtain ⟨hfirst, hrest⟩ := List.nodup_cons.1 hdistinct
  have hsub : ∀ ref ∈ s'.charges t, ref ∈ s.charges t := by
    intro ref hmem
    simp only [charges, hafter, hbefore, List.map_append, List.mem_append, List.map_cons, List.mem_cons] at hmem ⊢
    rcases hmem with hmem | hmem
    · obtain ⟨chore, hchore, rfl⟩ := List.mem_map.1 hmem
      exact .inl (hrest'.2 chore hchore).1
    · exact .inr hmem
  have hsame : ∀ u, u ≠ t → s'.charges u = s.charges u := fun u hne => by
    unfold charges
    rw [hothers u hne]
  refine ⟨hsound, fun u => ?_, fun u v hne => ?_, fun u chore hmem => ?_, ?_, ?_, ?_⟩
  · by_cases heq : u = t
    · subst heq
      simp only [charges, hafter, List.map_append]
      match rest', hrest' with
      | [], _ => exact hrest
      | [chore], hrest' =>
        refine List.nodup_cons.2 ⟨?_, hrest⟩
        rw [(hrest'.2 chore List.mem_cons_self).1]
        exact hfirst
    · rw [hsame u heq]
      exact h.distinct u
  · by_cases hu : u = t
    · subst hu
      rw [hsame v (Ne.symm hne)]
      exact fun ref hmem hmem' => h.disjoint u v hne (hsub ref hmem) hmem'
    · by_cases hv : v = t
      · subst hv
        rw [hsame u hu]
        exact fun ref hmem hmem' => h.disjoint u v hne hmem (hsub ref hmem')
      · rw [hsame u hu, hsame v hv]
        exact h.disjoint u v hne
  · by_cases heq : u = t
    · subst heq
      rw [hafter] at hmem
      rcases List.mem_append.1 hmem with hmem | hmem
      · exact (hrest'.2 chore hmem).2
      · refine (h.pending u chore (by rw [hbefore]; exact List.mem_cons_of_mem _ hmem)).called hcache hevicted
          fun call hcall heq => hfirst ?_
        rw [← (hcalls.2 call hcall).1, heq]
        exact List.mem_map_of_mem hmem
    · rw [hothers u heq] at hmem
      refine (h.pending u chore hmem).called hcache hevicted fun call hcall hcallee => ?_
      exact h.ref_ne hmine hmem heq (hcallee.symm.trans (hcalls.2 call hcall).1)
  · rw [hevicted, List.map_append]
    match calls, hcalls with
    | [], _ => simpa using h.once
    | [call], hcalls =>
      refine List.Nodup.append h.once (List.nodup_singleton _) fun ref hmem hmem' => hnew ?_
      rw [List.map_singleton, List.mem_singleton] at hmem'
      rwa [← (hcalls.2 call List.mem_cons_self).1, ← hmem']
  · rw [hcache, hevicted]
    intro call hmem
    rcases List.mem_append.1 hmem with hmem | hmem
    · exact h.spent call hmem
    · obtain ⟨hcall, hruntime⟩ := hcalls.2 call hmem
      rw [hcall]
      exact ⟨h.charged hmine, hruntime⟩
  · rw [hcache, hevicted]
    intro ref hgone hstate
    obtain ⟨hleases, hdone⟩ := h.finished ref hgone hstate
    exact ⟨hleases, fun runtime hruntime => List.mem_append_left _ (hdone runtime hruntime)⟩

/-- The end of a retirement. -/
theorem Accounted.removed {id : CanonicalId} {ref : EntryRef} {rest : List (Chore ρ)} (h : s.Accounted)
    (hsound : s'.Sound) (hcache : s'.cache = s.cache.finishRetirement id ref) (hevicted : s'.evicted = s.evicted)
    (hbefore : (s.activity t).chores = .removal id ref :: rest) (hafter : (s'.activity t).chores = rest)
    (hothers : ∀ u, u ≠ t → (s'.activity u).chores = (s.activity u).chores) : s'.Accounted := by
  have hmine : ref ∈ s.charges t := by simp [charges, hbefore, Chore.ref]
  have hdistinct := h.distinct t
  rw [charges, hbefore] at hdistinct
  obtain ⟨hfirst, hrest⟩ := List.nodup_cons.1 hdistinct
  obtain ⟨hmade, hid, -⟩ := h.chores t (.removal id ref) (by rw [hbefore]; exact List.mem_cons_self)
  obtain ⟨hretiring, hdone⟩ := h.pending t (.removal id ref) (by rw [hbefore]; exact List.mem_cons_self)
  obtain ⟨hacts, hslot⟩ := ModelRuntimeCache.finishRetirement_acts h.tidy hmade hid (.inl hretiring)
  rw [← hcache] at hacts hslot
  have hheap : s'.cache.heap = s.cache.heap := by
    rw [hcache]
    unfold ModelRuntimeCache.finishRetirement
    split <;> rfl
  have hkept : ∀ chore : Chore ρ, chore.ref ≠ ref → s.Pending chore → s'.Pending chore := by
    intro chore hne hpending
    have hsame : s'.cache.slot chore.ref = s.cache.slot chore.ref := by rw [hslot, Function.update_of_ne hne]
    cases chore with
    | cleanup _ ref' runtime => exact ⟨hsame.trans hpending.1, hheap ▸ hpending.2.1, hheap ▸ hpending.2.2.1,
        hevicted ▸ hpending.2.2.2⟩
    | retirement _ ref' => exact ⟨hsame.trans hpending.1, hevicted ▸ hpending.2⟩
    | removal _ ref' => exact ⟨hsame.trans hpending.1, fun runtime hruntime =>
        hevicted ▸ hpending.2 runtime (hheap ▸ hruntime)⟩
  have hsame : ∀ u, u ≠ t → s'.charges u = s.charges u := fun u hne => by
    unfold charges
    rw [hothers u hne]
  have hsub : ∀ ref' ∈ s'.charges t, ref' ∈ s.charges t := by
    intro ref' hmem
    simp only [charges, hafter] at hmem
    simp [charges, hbefore, hmem]
  refine ⟨hsound, fun u => ?_, fun u v hne => ?_, fun u chore hmem => ?_, hevicted ▸ h.once, ?_, ?_⟩
  · by_cases heq : u = t
    · subst heq
      rwa [charges, hafter]
    · rw [hsame u heq]
      exact h.distinct u
  · by_cases hu : u = t
    · subst hu
      rw [hsame v (Ne.symm hne)]
      exact fun ref' hmem hmem' => h.disjoint u v hne (hsub ref' hmem) hmem'
    · by_cases hv : v = t
      · subst hv
        rw [hsame u hu]
        exact fun ref' hmem hmem' => h.disjoint u v hne hmem (hsub ref' hmem')
      · rw [hsame u hu, hsame v hv]
        exact h.disjoint u v hne
  · by_cases heq : u = t
    · subst heq
      rw [hafter] at hmem
      refine hkept chore (fun href => hfirst ?_) (h.pending u chore (by rw [hbefore]; exact List.mem_cons_of_mem _ hmem))
      have hcharged : chore.ref ∈ rest.map Chore.ref := List.mem_map_of_mem hmem
      rwa [href] at hcharged
    · rw [hothers u heq] at hmem
      exact hkept chore (h.ref_ne hmine hmem heq) (h.pending u chore hmem)
  · rw [hevicted, hslot, hheap]
    intro call hcall
    refine ⟨?_, (h.spent call hcall).2⟩
    by_cases heq : call.1 = ref
    · exact .inr (by rw [heq, Function.update_self])
    · rw [Function.update_of_ne heq]
      exact (h.spent call hcall).1
  · rw [hevicted, hheap, hslot]
    intro ref' hgone hstate
    by_cases heq : ref' = ref
    · subst heq
      exact ⟨h.unleased hretiring, hdone⟩
    · rw [Function.update_of_ne heq] at hgone
      exact h.finished ref' hgone hstate

theorem Accounted.does (h : s.Accounted) (hdoes : Does s s') : s'.Accounted := by
  have hsound := (hdoes.advances h.toSound).sound
  cases hdoes with
  | @cleanup t id ref runtime chores raised resume raised' hactivity =>
    have hbefore : (s.activity t).chores = .cleanup id ref runtime :: chores := by rw [hactivity]; rfl
    obtain ⟨-, hruntime, -, hnew⟩ := h.pending t (.cleanup id ref runtime) (by rw [hbefore]; exact List.mem_cons_self)
    exact h.called (.cleanup id ref runtime) [] hsound rfl rfl (by simp [Chore.ref, hruntime]) hnew hbefore
      (by simp [occupy]) (by simp) fun u hne => by simp [occupy, hne]
  | @retirement t id ref chores raised resume raised' hactivity =>
    have hbefore : (s.activity t).chores = .retirement id ref :: chores := by rw [hactivity]; rfl
    obtain ⟨hretiring, hnew⟩ := h.pending t (.retirement id ref) (by rw [hbefore]; exact List.mem_cons_self)
    refine h.called (.retirement id ref) [.removal id ref] hsound rfl rfl ?_ hnew hbefore (by simp [occupy, Activity.chores])
      ⟨by simp, fun chore hmem => ?_⟩ fun u hne => by simp [occupy, hne]
    · cases hruntime : (s.cache.heap ref).runtime <;> simp [Chore.ref, hruntime]
    · rw [List.mem_singleton.1 hmem]
      exact ⟨rfl, hretiring, fun runtime hruntime => by simp [show (s.cache.heap ref).runtime = some runtime from hruntime]⟩
  | @removal t id ref chores raised resume hactivity =>
    have hbefore : (s.activity t).chores = .removal id ref :: chores := by rw [hactivity]; rfl
    exact h.removed hsound rfl rfl hbefore (by simp [occupy]) fun u hne => by simp [occupy, notifyAll, hne]

theorem step_accounted [DecidableEq ρ] {event : Event ρ} (h : s.Accounted) (hstep : step limits event s = some s') :
    s'.Accounted := by
  rcases step_cases h.toSound hstep with hdoes | ⟨t, first, victims, hidle, hsection⟩
  · exact h.does hdoes
  · exact h.section hidle hsection

theorem Reachable.accounted [DecidableEq ρ] (h : s.Reachable limits) : s.Accounted := by
  obtain ⟨run, hrun⟩ := h
  exact holds_of_run (fun _ _ _ haccounted hstep => step_accounted haccounted hstep) accounted_start hrun

/-! ## What follows for every run -/

/-- An entry that has become RETIRING. -/
def Retiring (s : CacheSystem ρ) (ref : EntryRef) : Prop :=
  ref < s.cache.made ∧ (s.cache.heap ref).state = .retiring

theorem Accounted.retiring_cases {ref : EntryRef} (h : s.Accounted) (hretiring : s.Retiring ref) :
    s.cache.slot ref = .retiring ∨ s.cache.slot ref = .gone := by
  by_cases hcur : s.cache.current? (s.cache.heap ref).canonicalId = some ref
  · left
    rw [ModelRuntimeCache.slot_of_current h.tidy hcur, RuntimeEntry.slot, hretiring.2]
  · right
    rw [ModelRuntimeCache.slot, if_neg hcur, if_pos hretiring.1]

theorem Accounted.leaseCount_retiring {ref : EntryRef} (h : s.Accounted) (hretiring : s.Retiring ref) :
    (s.cache.heap ref).leaseCount = 0 := by
  rcases h.retiring_cases hretiring with hslot | hslot
  · exact h.unleased hslot
  · exact (h.finished ref hslot hretiring.2).1

theorem Does.heap_eq (hdoes : Does s s') : s'.cache.heap = s.cache.heap ∧ s'.cache.made = s.cache.made := by
  cases hdoes with
  | cleanup raised' _ | retirement raised' _ => exact ⟨rfl, rfl⟩
  | @removal t id ref chores raised resume hactivity =>
    have hcache : ∀ c : ModelRuntimeCache ρ, (c.finishRetirement id ref).heap = c.heap ∧
        (c.finishRetirement id ref).made = c.made := by
      intro c
      unfold ModelRuntimeCache.finishRetirement
      split <;> exact ⟨rfl, rfl⟩
    exact hcache s.cache

section Runs
variable [DecidableEq ρ] {event : Event ρ} {ref : EntryRef}

/-- RETIRING is for good. -/
theorem Retiring.step (hretiring : s.Retiring ref) (h : s.Accounted) (hstep : step limits event s = some s') :
    s'.Retiring ref := by
  rcases step_cases h.toSound hstep with hdoes | ⟨t, first, victims, -, hsection⟩
  · obtain ⟨hheap, hmade⟩ := hdoes.heap_eq
    exact ⟨hmade ▸ hretiring.1, hheap ▸ hretiring.2⟩
  · refine ⟨hretiring.1.trans_le hsection.acts.made, ?_⟩
    rcases h.retiring_cases hretiring with hslot | hslot
    · have hslot' := (hsection.acts.turns ref).retiring hslot
      have hcur := ModelRuntimeCache.current?_of_slot s'.cache ref (by simp [hslot']) (by simp [hslot'])
      rw [ModelRuntimeCache.slot_of_current hsection.sound.tidy hcur, RuntimeEntry.slot] at hslot'
      cases hstate : (s'.cache.heap ref).state <;> simp [hstate] at hslot' ⊢
    · rw [hsection.acts.frozen ref hslot]
      exact hretiring.2

theorem Retiring.run {run : List (Event ρ)} (hretiring : s.Retiring ref) (h : s.Accounted)
    (hrun : runSteps (CacheSystem.step limits) run s = some s') : s'.Accounted ∧ s'.Retiring ref := by
  refine holds_of_run (I := fun s => s.Accounted ∧ s.Retiring ref) ?_ ⟨h, hretiring⟩ hrun
  exact fun event s s' ⟨h, hretiring⟩ hstep => ⟨step_accounted h hstep, hretiring.step h hstep⟩

/-- The call of the clean-up hook that a step makes. -/
theorem evicted_of_step (h : s.Accounted) (hstep : step limits event s = some s') {call : EntryRef × ρ}
    (hcall : s'.evicted = s.evicted ++ [call]) :
    (s.cache.heap call.1).leaseCount = 0 ∧ (s.cache.heap call.1).runtime = some call.2 := by
  rcases step_cases h.toSound hstep with hdoes | ⟨t, first, victims, -, hsection⟩
  · cases hdoes with
    | @cleanup t id ref runtime chores raised resume raised' hactivity =>
      obtain rfl : (ref, runtime) = call := by simpa [occupy] using hcall
      have hpending := h.pending t (.cleanup id ref runtime) (by rw [hactivity]; exact List.mem_cons_self)
      exact ⟨hpending.2.2.1, hpending.2.1⟩
    | @retirement t id ref chores raised resume raised' hactivity =>
      have hpending := h.pending t (.retirement id ref) (by rw [hactivity]; exact List.mem_cons_self)
      cases hruntime : (s.cache.heap ref).runtime with
      | none => simp [hruntime] at hcall
      | some runtime =>
        obtain rfl : (ref, runtime) = call := by simpa [occupy, hruntime] using hcall
        exact ⟨h.unleased hpending.1, hruntime⟩
    | removal hactivity => simp [occupy, notifyAll] at hcall
  · rw [hsection.evicted] at hcall
    simp at hcall

/-- A call other than `put` gives an id an entry only when it has none. -/
theorem call_insertsVacant {call : Call ρ} (h : s.Sound) (hcall : s.call limits t call = some s')
    (hput : ∀ id runtime mediaType, call ≠ .put id runtime mediaType) : s.cache.InsertsVacant s'.cache := by
  cases call with
  | put id runtime mediaType => exact absurd rfl (hput id runtime mediaType)
  | get id =>
    cases hcall
    exact ModelRuntimeCache.get_insertsVacant _ id
  | unload id =>
    have hunload := ModelRuntimeCache.unload_insertsVacant s.cache id
    simp only [CacheSystem.call] at hcall
    split at hcall
    all_goals
      rename_i hresult
      rw [hresult] at hunload
      cases hcall
      exact hunload
  | unloadAll =>
    have hunload := ModelRuntimeCache.unloadAll_insertsVacant s.cache
    simp only [CacheSystem.call] at hcall
    split at hcall
    all_goals
      rename_i hresult
      rw [hresult] at hunload
      cases hcall
      exact hunload
  | acquireOrReserve id mediaType =>
    have hacquire := ModelRuntimeCache.acquireOrReserve_insertsVacant limits s.cache id mediaType
    simp only [CacheSystem.call] at hcall
    split at hcall
    all_goals
      rename_i hresult
      rw [hresult] at hacquire
      cases hcall
      exact hacquire
  | publishReadyAndPin id reserved runtime =>
    simp only [CacheSystem.call] at hcall
    split at hcall <;> cases hcall
    exact ModelRuntimeCache.publishReadyAndPin_insertsVacant _ id reserved runtime
  | abortReservation id reserved =>
    simp only [CacheSystem.call] at hcall
    split at hcall <;> cases hcall
    exact ModelRuntimeCache.abortReservation_insertsVacant _ id reserved
  | releaseLease id ref =>
    simp only [CacheSystem.call] at hcall
    split at hcall <;> cases hcall <;> exact ModelRuntimeCache.releaseLease_insertsVacant limits h.tidy id ref
  | markInvalid id ref =>
    cases hcall
    exact ModelRuntimeCache.markInvalid_insertsVacant _ id ref
  | waitForStaleEntryDrain id ref expired =>
    cases hcall
    exact .of_current? fun _ => by rw [cache_look]

omit [DecidableEq ρ] in
theorem proceed_insertsVacant {raises : Bool} (hproceed : s.proceed limits t raises = some s') :
    s.cache.InsertsVacant s'.cache := by
  unfold CacheSystem.proceed at hproceed
  split at hproceed
  · cases hproceed
    exact .of_current? fun _ => rfl
  · split at hproceed <;> cases hproceed <;> exact .of_current? fun _ => rfl
  case _ id ref _ _ _ _ =>
    cases hproceed
    exact ModelRuntimeCache.finishRetirement_insertsVacant _ id ref
  case _ id mediaType _ =>
    have hrecheck := ModelRuntimeCache.acquireRecheck_insertsVacant limits s.cache id mediaType
    split at hproceed
    all_goals
      rename_i hresult
      rw [hresult] at hrecheck
      cases hproceed
      exact hrecheck
  · cases hproceed

/-- When a step gives an id an entry, the id has none, or `put` replaces an idle one. -/
theorem inserted_of_step (h : s.Accounted) (hstep : step limits event s = some s') {id : CanonicalId}
    (hcur : s'.cache.current? id = some ref) (hnew : s.cache.current? id ≠ some ref) :
    s.cache.current? id = none ∨ ∃ t runtime mediaType old, event = .call t (.put id runtime mediaType) ∧
      s.cache.current? id = some old ∧ ¬ (s.cache.heap old).IsBusy := by
  have hvacant : s.cache.InsertsVacant s'.cache → s.cache.current? id = none := fun hinserts =>
    (hinserts id ref hcur).resolve_left hnew
  cases event with
  | call t call =>
    simp only [CacheSystem.step] at hstep
    split at hstep
    case h_2 => cases hstep
    cases call with
    | put id' runtime mediaType =>
      have hput : s'.cache = (s.cache.put limits id' runtime mediaType).2 := by
        simp only [CacheSystem.call] at hstep
        split at hstep
        case _ cleanup cache hresult =>
          cases hstep
          rw [hresult]
          rfl
        case _ e cache hresult =>
          cases hstep
          rw [hresult]
      rw [hput] at hcur
      rcases ModelRuntimeCache.put_inserts limits h.tidy id' runtime mediaType hcur with hcur | hnone | ⟨rfl, old, hold⟩
      · exact absurd hcur hnew
      · exact .inl hnone
      · exact .inr ⟨t, runtime, mediaType, old, rfl, hold⟩
    | _ => exact .inl (hvacant (call_insertsVacant h.toSound hstep (by simp)))
  | proceed t raises => exact .inl (hvacant (proceed_insertsVacant hstep))
  | recheck t expired =>
    simp only [CacheSystem.step] at hstep
    split at hstep <;> cases hstep
    rw [cache_look] at hcur
    exact absurd hcur hnew
  | wakeUp t =>
    simp only [CacheSystem.step] at hstep
    split at hstep <;> cases hstep
    exact absurd hcur hnew

/-- The teardown of an entry as the other callers see it. -/
structure RetiresForGood (limits : Limits) (ref : EntryRef) (s : CacheSystem ρ) : Prop where
  unleased : (s.cache.heap ref).leaseCount = 0
  get : ∀ id, s.cache.current? id = some ref → (s.cache.get id).1 = none
  acquire : ∀ id mediaType, (s.cache.acquireOrReserve limits id mediaType).1 ≠ .ok (.pinned ref) ∧
    (s.cache.acquireOrReserve limits id mediaType).1 ≠ .ok (.reserved ref) ∧
    (s.cache.acquireRecheck limits id mediaType).1 ≠ .ok ref

omit [DecidableEq ρ] in
theorem Retiring.forGood (hretiring : s.Retiring ref) (h : s.Accounted) : RetiresForGood limits ref s where
  unleased := h.leaseCount_retiring hretiring
  get id hcur := by
    by_contra hsome
    obtain ⟨runtime, hget⟩ := Option.ne_none_iff_exists'.1 hsome
    obtain ⟨ref', hcur', hready, -⟩ := ModelRuntimeCache.get_spec hget
    obtain rfl : ref = ref' := Option.some.inj (hcur.symm.trans hcur')
    rw [hretiring.2] at hready
    cases hready
  acquire id mediaType := by
    refine ⟨fun hpinned => ?_, fun hreserved => ?_, fun hreserved => ?_⟩
    · have hready := (ModelRuntimeCache.pinned_spec limits id mediaType hpinned).2
      rw [hretiring.2] at hready
      cases hready
    · exact hretiring.1.ne (ModelRuntimeCache.reserved_spec limits h.tidy id mediaType ref hreserved).1
    · exact hretiring.1.ne (ModelRuntimeCache.rechecked_spec limits h.tidy id mediaType ref hreserved).1

/-- No entry is torn down while it is leased, or twice; what is RETIRING stays so and is never
handed out; an id has one entry, and it gets a new one only when it has none or `put` replaces
an idle one, and when every earlier entry that was retired has been torn down. -/
theorem teardown_spec (h : s.Reachable limits) :
    (∀ event s' call, step limits event s = some s' → s'.evicted = s.evicted ++ [call] →
      (s.cache.heap call.1).leaseCount = 0 ∧ (s.cache.heap call.1).runtime = some call.2) ∧
    (∀ ref, s.Retiring ref → ∀ run s', runSteps (step limits) run s = some s' →
      s'.Retiring ref ∧ RetiresForGood limits ref s') ∧
    (s.cache.entries.map Prod.fst).Nodup ∧
    (∀ event s' id ref, step limits event s = some s' → s'.cache.current? id = some ref →
      s.cache.current? id ≠ some ref →
      (s.cache.current? id = none ∨ ∃ t runtime mediaType old, event = .call t (.put id runtime mediaType) ∧
        s.cache.current? id = some old ∧ ¬ (s.cache.heap old).IsBusy) ∧
      ∀ old, s.Retiring old → (s.cache.heap old).canonicalId = id →
        ∀ runtime, (s.cache.heap old).runtime = some runtime → (old, runtime) ∈ s.evicted) ∧
    (s.evicted.map Prod.fst).Nodup ∧ ∀ call ∈ s.evicted, (s.cache.heap call.1).runtime = some call.2 := by
  have haccounted := h.accounted
  refine ⟨fun event s' call hstep hcall => evicted_of_step haccounted hstep hcall, fun ref hretiring run s' hrun => ?_,
    haccounted.tidy.keys, fun event s' id ref hstep hcur hnew => ?_, haccounted.once,
    fun call hcall => (haccounted.spent call hcall).2⟩
  · obtain ⟨haccounted', hretiring'⟩ := hretiring.run haccounted hrun
    exact ⟨hretiring', hretiring'.forGood haccounted'⟩
  · have hinserted := inserted_of_step haccounted hstep hcur hnew
    refine ⟨hinserted, fun old hretiring hid runtime hruntime => ?_⟩
    -- A current entry that is RETIRING is busy, so the entry has left the cache.
    have hgone : s.cache.slot old = .gone := by
      refine (haccounted.retiring_cases hretiring).resolve_left fun hslot => ?_
      have hcurrent := ModelRuntimeCache.current?_of_slot s.cache old (by simp [hslot]) (by simp [hslot])
      rw [hid] at hcurrent
      rcases hinserted with hnone | ⟨t, runtime', mediaType, old', -, hold, hbusy⟩
      · rw [hnone] at hcurrent
        cases hcurrent
      · obtain rfl : old = old' := Option.some.inj (hcurrent.symm.trans hold)
        exact hbusy (.inr (by simp [hretiring.2, busyForUnloadStates]))
    exact (haccounted.finished old hgone hretiring.2).2 runtime hruntime

end Runs

theorem noMediaLimits_pos : ∀ entry ∈ ([] : Dict ℕ), 1 ≤ entry.2 := List.forall_mem_nil _

/-- Room for two entries. -/
def twoEntries : Limits := ⟨2, [], Nat.two_pos, noMediaLimits_pos⟩

/-- One runtime object under two ids, one of which is leased when the other is unloaded. -/
def sharedRun : List (Event ℕ) :=
  [.call 0 (.put "a" 7 none), .call 0 (.put "b" 7 none), .call 0 (.acquireOrReserve "a" none), .call 1 (.unload "b")]

/-- The runtime object of an entry that is leased may be torn down, and a second time, when it
has been installed under another id as well. -/
theorem shared_runtime_evicted :
    ∃ s s' s'' : CacheSystem ℕ, s.Reachable twoEntries ∧ step twoEntries (.proceed 1 false) s = some s' ∧
      (s.cache.heap 0).runtime = some 7 ∧ 0 < (s.cache.heap 0).leaseCount ∧ s'.evicted = s.evicted ++ [(1, 7)] ∧
      runSteps (step twoEntries) [.proceed 1 false, .call 0 (.releaseLease "a" 0), .call 1 (.unload "a"),
        .proceed 1 false] s' = some s'' ∧ s''.evicted.map Prod.snd = [7, 7] := by
  have hfirst : (runSteps (step twoEntries) sharedRun (start ℕ)).map (fun s =>
      decide ((s.cache.heap 0).runtime = some 7 ∧ 0 < (s.cache.heap 0).leaseCount ∧ s.evicted = [])) = some true := by
    decide +kernel
  have hsecond : ((runSteps (step twoEntries) sharedRun (start ℕ)).bind (step twoEntries (.proceed 1 false))).map
      (fun s => decide (s.evicted = [(1, 7)])) = some true := by decide +kernel
  have hthird : (((runSteps (step twoEntries) sharedRun (start ℕ)).bind (step twoEntries (.proceed 1 false))).bind
      (runSteps (step twoEntries) [.proceed 1 false, .call 0 (.releaseLease "a" 0), .call 1 (.unload "a"),
        .proceed 1 false])).map (fun s => decide (s.evicted.map Prod.snd = [7, 7])) = some true := by decide +kernel
  obtain ⟨s, hs, hleased⟩ := Option.map_eq_some_iff.1 hfirst
  rw [hs, Option.bind_some] at hsecond hthird
  obtain ⟨s', hs', hevicted⟩ := Option.map_eq_some_iff.1 hsecond
  rw [hs', Option.bind_some] at hthird
  obtain ⟨s'', hs'', htwice⟩ := Option.map_eq_some_iff.1 hthird
  obtain ⟨hruntime, hleased, hnone⟩ := of_decide_eq_true hleased
  exact ⟨s, s', s'', ⟨sharedRun, hs⟩, hs', hruntime, hleased, by rw [hnone]; exact of_decide_eq_true hevicted, hs'',
    of_decide_eq_true htwice⟩

/-- `teardown_spec` when the second entry of `sharedRun` is being unloaded. -/
theorem teardown_spec_sharedRun : ∃ s : CacheSystem ℕ, s.Reachable twoEntries ∧ s.Retiring 1 ∧
    RetiresForGood twoEntries 1 s := by
  have hunloaded : (runSteps (step twoEntries) sharedRun (start ℕ)).map (fun s =>
      decide (1 < s.cache.made ∧ (s.cache.heap 1).state = .retiring)) = some true := by decide +kernel
  obtain ⟨s, hs, hretiring⟩ := Option.map_eq_some_iff.1 hunloaded
  have hreachable : s.Reachable twoEntries := ⟨sharedRun, hs⟩
  have hretiring : s.Retiring 1 := (of_decide_eq_true hretiring : 1 < s.cache.made ∧ (s.cache.heap 1).state = .retiring)
  exact ⟨s, hreachable, hretiring, ((teardown_spec hreachable).2.1 1 hretiring [] s rfl).2⟩

end CacheSystem

end CreativeStudio.Models
