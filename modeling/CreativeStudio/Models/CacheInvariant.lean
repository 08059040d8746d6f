import CreativeStudio.Models.CacheSystem

/-!
# The invariant of the runtime cache and its threads

`Regular` says what every section keeps: the reservations that have been given out are the
current entries of their ids, and what a thread has to tear down is being retired. `Sound` adds
that a parked thread has something to wait for. `step_spec` is the step lemma: the entries make
turns of the automaton, and a step that ends a wait notifies.
-/

namespace CreativeStudio.Models
open Data Conc

variable {ρ : Type} {limits : Limits} {s s' : CacheSystem ρ} {t : Tid}
  {victims : List (CanonicalId × EntryRef)} {c' : ModelRuntimeCache ρ}

/-- What a chore is about is on its way out. -/
def Chore.Valid (c : ModelRuntimeCache ρ) : Chore ρ → Prop
  | .cleanup _ _ _ => True
  | .retirement id ref | .removal id ref =>
    ref < c.made ∧ (c.heap ref).canonicalId = id ∧ (c.slot ref = .retiring ∨ c.slot ref = .gone)

theorem Chore.Valid.kept {c : ModelRuntimeCache ρ} {P : Turn → Prop} {chore : Chore ρ} (h : Chore.Valid c chore)
    (hacts : c.Acts P victims c') : Chore.Valid c' chore := by
  have hgone : ∀ ref, c.slot ref = .retiring ∨ c.slot ref = .gone →
      c'.slot ref = .retiring ∨ c'.slot ref = .gone := by
    intro ref hslot
    have hspent : (c.slot ref).Spent := by rcases hslot with hslot | hslot <;> rw [hslot] <;> trivial
    obtain ⟨hspent', hrank, -⟩ := hspent.moves (hacts.turns ref)
    exact hspent'.rank_le_one.1 (hrank.trans (hspent.rank_le_one.2 hslot))
  cases chore with
  | cleanup _ _ _ => trivial
  | retirement id ref | removal id ref =>
    obtain ⟨hmade, hid, hslot⟩ := h
    exact ⟨hmade.trans_le hacts.made, (hacts.named ref hmade).trans hid, hgone ref hslot⟩

namespace CacheSystem

/-- What every section keeps. -/
structure Regular (s : CacheSystem ρ) : Prop where
  tidy : s.cache.Tidy
  reserved : ∀ reservation ∈ s.reservations, s.cache.Reserved reservation.1 reservation.2
  nodup : s.reservations.Nodup
  chores : ∀ t, ∀ chore ∈ (s.activity t).chores, Chore.Valid s.cache chore

/-- A parked thread has something to wait for. -/
structure Sound (s : CacheSystem ρ) : Prop extends Regular s where
  asleep : ∀ t id ref, s.activity t = .draining id ref true → s.cache.StillBlocks id ref

theorem sound_start : (start ρ).Sound where
  tidy := ⟨List.nodup_nil, by simp [start, ModelRuntimeCache.empty, ModelRuntimeCache.current?, Dict.get?],
    by simp [start, ModelRuntimeCache.empty, ModelRuntimeCache.current?, Dict.get?],
    by simp [start, ModelRuntimeCache.empty, ModelRuntimeCache.current?, Dict.get?]⟩
  reserved := by simp [start]
  nodup := List.nodup_nil
  chores := by simp [start]
  asleep := by simp [start]

/-! ## Sections -/

/-- A section that leaves the reservations to their owners. -/
theorem Regular.acts (h : s.Regular) (hacts : s.cache.Acts (fun move => ¬ move.Own) victims c') :
    ({ s with cache := c' } : CacheSystem ρ).Regular where
  tidy := hacts.tidy
  reserved reservation hmem := (h.reserved reservation hmem).kept h.tidy hacts
  nodup := h.nodup
  chores t chore hmem := (h.chores t chore hmem).kept hacts

theorem Sound.acts (h : s.Sound) (hacts : s.cache.Acts Turn.Plain victims c') :
    ({ s with cache := c' } : CacheSystem ρ).Sound where
  toRegular := h.toRegular.acts (hacts.mono fun _ hmove => hmove.2)
  asleep t id ref hasleep := (h.asleep t id ref hasleep).kept h.tidy (hacts.mono fun _ hmove => hmove.1)

/-- The owner of a reservation uses it. -/
theorem Sound.ofOwner {id : CanonicalId} {ref : EntryRef} (h : s.Sound) (hmem : (id, ref) ∈ s.reservations)
    (hacts : s.cache.Acts (fun move => ¬ move.Frees) [] c')
    (hslot : ∀ ref', ref' ≠ ref → c'.slot ref' = s.cache.slot ref') :
    ({ s with cache := c', reservations := s.reservations.erase (id, ref) } : CacheSystem ρ).Sound where
  tidy := hacts.tidy
  reserved reservation hreservation := by
    obtain ⟨hne, hother⟩ := (h.nodup.mem_erase_iff).1 hreservation
    have hreserved := h.reserved reservation hother
    have hname := (h.reserved (id, ref) hmem).1
    have href : reservation.2 ≠ ref := by
      intro heq
      have hid : reservation.1 = id := h.tidy.inj hreserved.1 (heq ▸ hname)
      exact hne (Prod.ext hid heq)
    have hloading : c'.slot reservation.2 = .loading := (hslot _ href).trans hreserved.2
    refine ⟨?_, hloading⟩
    have hcur := ModelRuntimeCache.current?_of_slot c' reservation.2 (by simp [hloading])
      (by simp [hloading])
    rwa [hacts.named _ (h.tidy.made _ _ hreserved.1), h.tidy.named _ _ hreserved.1] at hcur
  nodup := h.nodup.erase _
  chores t chore hchore := (h.chores t chore hchore).kept hacts
  asleep t id ref hasleep := (h.asleep t id ref hasleep).kept h.tidy hacts

/-- A new reservation. -/
theorem Sound.reserve {id : CanonicalId} {ref : EntryRef} (h : s.Sound) (hacts : s.cache.Acts Turn.Plain [] c')
    (href : ref = s.cache.made) (hreserved : c'.Reserved id ref) :
    ({ s with cache := c', reservations := (id, ref) :: s.reservations } : CacheSystem ρ).Sound where
  toRegular :=
    { tidy := hacts.tidy
      reserved := by
        intro reservation hmem
        rcases List.mem_cons.1 hmem with rfl | hmem
        · exact hreserved
        · exact (h.acts hacts).reserved reservation hmem
      nodup := by
        refine List.nodup_cons.2 ⟨fun hmem => ?_, h.nodup⟩
        have hlt := h.tidy.made _ _ (h.reserved _ hmem).1
        exact hlt.ne href
      chores := (h.acts hacts).chores }
  asleep := (h.acts hacts).asleep

/-! ## Threads -/

theorem Regular.occupy {activity : Activity ρ} (h : s.Regular)
    (hchores : ∀ chore ∈ activity.chores, Chore.Valid s.cache chore) : (s.occupy t activity).Regular where
  tidy := h.tidy
  reserved := h.reserved
  nodup := h.nodup
  chores u chore hmem := by
    by_cases heq : u = t
    · subst heq
      simp only [CacheSystem.occupy, Function.update_self] at hmem
      exact hchores chore hmem
    · simp only [CacheSystem.occupy, Function.update_of_ne heq] at hmem
      exact h.chores u chore hmem

theorem Sound.occupy {activity : Activity ρ} (h : s.Sound)
    (hchores : ∀ chore ∈ activity.chores, Chore.Valid s.cache chore)
    (hasleep : ∀ id ref, activity = .draining id ref true → s.cache.StillBlocks id ref) :
    (s.occupy t activity).Sound where
  toRegular := h.toRegular.occupy hchores
  asleep u id ref hdraining := by
    by_cases heq : u = t
    · subst heq
      simp only [CacheSystem.occupy, Function.update_self] at hdraining
      exact hasleep id ref hdraining
    · simp only [CacheSystem.occupy, Function.update_of_ne heq] at hdraining
      exact h.asleep u id ref hdraining

theorem Regular.notifyAll (h : s.Regular) : s.notifyAll.Sound where
  tidy := h.tidy
  reserved := h.reserved
  nodup := h.nodup
  chores t chore hmem := by
    refine h.chores t chore ?_
    simp only [CacheSystem.notifyAll] at hmem
    cases hactivity : s.activity t <;> simp_all [Activity.awake, Activity.chores]
  asleep t id ref hasleep := by
    simp only [CacheSystem.notifyAll] at hasleep
    cases hactivity : s.activity t <;> simp [hactivity, Activity.awake] at hasleep

theorem after_ne_draining {chores : List (Chore ρ)} {raised : Bool} {resume : Option (CanonicalId × Option String)}
    {id : CanonicalId} {ref : EntryRef} {asleep : Bool} :
    Activity.after chores raised resume ≠ .draining id ref asleep := by
  unfold Activity.after
  split <;> simp

/-- An operation turns to the chores that a section has left it. -/
theorem Sound.clean {first : List (Chore ρ)} {resume : Option (CanonicalId × Option String)} {P : Turn → Prop}
    {c : ModelRuntimeCache ρ} (h : s.Sound) (hacts : c.Acts P victims s.cache)
    (hfirst : ∀ chore ∈ first, Chore.Valid s.cache chore) : (s.clean t first victims resume).Sound := by
  refine h.occupy (fun chore hmem => ?_) fun id ref hdraining => absurd hdraining after_ne_draining
  rw [Activity.chores_after] at hmem
  rcases List.mem_append.1 hmem with hmem | hmem
  · exact hfirst chore hmem
  · obtain ⟨victim, hvictim, rfl⟩ := List.mem_map.1 hmem
    have hcur := hacts.current victim hvictim
    exact ⟨hacts.tidy.made _ _ hcur, hacts.tidy.named _ _ hcur, .inl (hacts.marked victim hvictim)⟩

@[simp] theorem cache_look (s : CacheSystem ρ) (t : Tid) (id : CanonicalId) (ref : EntryRef) (expired : Bool) :
    (s.look t id ref expired).cache = s.cache := by
  unfold CacheSystem.look
  split
  · split <;> rfl
  · rfl

theorem Sound.look {id : CanonicalId} {ref : EntryRef} {expired : Bool} (h : s.Sound) :
    (s.look t id ref expired).Sound := by
  have hidle : (s.occupy t .idle).Sound := h.occupy (by simp) (by simp)
  unfold CacheSystem.look
  split
  case isTrue hblocks =>
    split
    · exact { hidle with }
    · refine h.occupy (by simp [Activity.chores]) fun id' ref' hdraining => ?_
      simp only [Activity.draining.injEq, and_true] at hdraining
      obtain ⟨rfl, rfl⟩ := hdraining
      exact hblocks
  · exact { hidle with }

/-! ## Steps -/

/-- What a step comes to. -/
structure Advances (s s' : CacheSystem ρ) : Prop where
  sound : s'.Sound
  turns : s.cache.Turns (fun _ => True) s'.cache
  made : s.cache.made ≤ s'.cache.made
  named : ∀ ref < s.cache.made, (s'.cache.heap ref).canonicalId = (s.cache.heap ref).canonicalId
  /-- Who waits goes on waiting, or is notified. -/
  waits : (∀ id ref, s.cache.StillBlocks id ref → s'.cache.StillBlocks id ref) ∨ s'.notified = s.notified + 1

/-- The runtime of an idle entry, which is out of the cache, is to be cleaned up. -/
def Replaced (s s' : CacheSystem ρ) (chore : Chore ρ) : Prop :=
  ∃ id ref runtime, chore = .cleanup id ref runtime ∧ s.cache.current? id = some ref ∧ ¬ (s.cache.heap ref).IsBusy ∧
    (s.cache.heap ref).runtime = some runtime ∧ s'.cache.slot ref = .gone ∧ s'.cache.heap ref = s.cache.heap ref

/-- A section of a thread that has nothing to clean up. It leaves the thread the clean-up of
what it has replaced and the retirement of its victims. -/
structure Section (t : Tid) (first : List (Chore ρ)) (victims : List (CanonicalId × EntryRef))
    (s s' : CacheSystem ρ) : Prop where
  sound : s'.Sound
  acts : s.cache.Acts (fun move => move ≠ .finish) victims s'.cache
  /-- A section that frees something notifies. -/
  quiet : s.cache.Acts (fun move => ¬ move.Frees) victims s'.cache ∨ s'.notified = s.notified + 1
  evicted : s'.evicted = s.evicted
  others : ∀ u, u ≠ t → s'.activity u = s.activity u ∨ s'.activity u = (s.activity u).awake
  chores : (s'.activity t).chores = first ++ victims.map fun victim => .retirement victim.1 victim.2
  first : first.length ≤ 1 ∧ ∀ chore ∈ first, Replaced s s' chore

theorem Section.advances {first : List (Chore ρ)} (hsection : Section t first victims s s') (h : s.Sound) :
    Advances s s' where
  sound := hsection.sound
  turns := hsection.acts.turns.mono fun _ _ => trivial
  made := hsection.acts.made
  named := hsection.acts.named
  waits := hsection.quiet.imp_left fun hacts _ _ hblocks => hblocks.kept h.tidy hacts

/-- A section that frees nothing. -/
theorem Section.of_quiet {P : Turn → Prop} {first : List (Chore ρ)} (hsound : s'.Sound)
    (hacts : s.cache.Acts P victims s'.cache) (hP : ∀ move, P move → ¬ move.Frees) (hevicted : s'.evicted = s.evicted)
    (hothers : ∀ u, u ≠ t → s'.activity u = s.activity u)
    (hchores : (s'.activity t).chores = first ++ victims.map fun victim => .retirement victim.1 victim.2)
    (hfirst : first.length ≤ 1 ∧ ∀ chore ∈ first, Replaced s s' chore) : Section t first victims s s' where
  sound := hsound
  acts := hacts.mono fun move hmove hfinish => hP move hmove (.inr hfinish)
  quiet := .inl (hacts.mono hP)
  evicted := hevicted
  others u hne := .inl (hothers u hne)
  chores := hchores
  first := hfirst

theorem plain_frees : ∀ move : Turn, move.Plain → ¬ move.Frees := fun _ hmove => hmove.1

/-- A section that leaves nothing to do. -/
theorem Section.brief {P : Turn → Prop} (hidle : (s.activity t).chores = []) (hsound : s'.Sound)
    (hacts : s.cache.Acts P [] s'.cache) (hP : ∀ move, P move → ¬ move.Frees) (hevicted : s'.evicted = s.evicted)
    (hactivity : s'.activity = s.activity) : Section t [] [] s s' :=
  .of_quiet hsound hacts hP hevicted (fun _ _ => by rw [hactivity]) (by rw [hactivity, hidle]; rfl) (by simp)

@[simp] theorem chores_clean (s : CacheSystem ρ) (t : Tid) (first : List (Chore ρ))
    (victims : List (CanonicalId × EntryRef)) (resume : Option (CanonicalId × Option String)) :
    ((s.clean t first victims resume).activity t).chores =
      first ++ victims.map fun victim => .retirement victim.1 victim.2 := by
  simp [clean, CacheSystem.occupy]

theorem activity_occupy (s : CacheSystem ρ) {t u : Tid} (activity : Activity ρ) (hne : u ≠ t) :
    (s.occupy t activity).activity u = s.activity u :=
  Function.update_of_ne hne _ _

@[simp] theorem chores_awake (activity : Activity ρ) : activity.awake.chores = activity.chores := by
  cases activity <;> rfl

theorem Section.chores_other {first : List (Chore ρ)} (h : Section t first victims s s') {u : Tid} (hne : u ≠ t) :
    (s'.activity u).chores = (s.activity u).chores := by
  rcases h.others u hne with hsame | hawake
  · rw [hsame]
  · rw [hawake, chores_awake]

/-- A section that turns to the retirement of its victims. -/
theorem Section.retires {first : List (Chore ρ)} {resume : Option (CanonicalId × Option String)} (h : s.Sound)
    (hacts : s.cache.Acts Turn.Plain victims c') (hone : first.length ≤ 1)
    (hfirst : ∀ chore ∈ first, Replaced s ({ s with cache := c' } : CacheSystem ρ) chore) :
    Section t first victims s (({ s with cache := c' } : CacheSystem ρ).clean t first victims resume) := by
  have hvalid : ∀ chore ∈ first, Chore.Valid c' chore := by
    intro chore hmem
    obtain ⟨id, ref, runtime, rfl, -⟩ := hfirst chore hmem
    trivial
  exact .of_quiet ((h.acts hacts).clean hacts hvalid) hacts plain_frees rfl
    (fun u hne => by rw [clean, activity_occupy _ _ hne]) (chores_clean ..) ⟨hone, hfirst⟩

theorem Section.look {id : CanonicalId} {ref : EntryRef} {expired : Bool} (h : s.Sound) :
    Section t [] [] s (s.look t id ref expired) := by
  refine .of_quiet (P := Turn.Plain) h.look (by rw [cache_look]; exact .refl h.tidy) plain_frees ?_ (fun u hne => ?_) ?_
    (by simp) <;> unfold CacheSystem.look <;> split
  · split <;> rfl
  · rfl
  · split <;> simp [CacheSystem.occupy, hne]
  · simp [CacheSystem.occupy, hne]
  · split <;> simp [CacheSystem.occupy, Activity.chores]
  · simp [CacheSystem.occupy, Activity.chores]

theorem call_section [DecidableEq ρ] {call : Call ρ} (h : s.Sound) (hidle : (s.activity t).chores = [])
    (hcall : s.call limits t call = some s') : ∃ first victims, Section t first victims s s' := by
  cases call with
  | get id =>
    cases hcall
    have hacts : s.cache.Acts Turn.Plain [] (s.cache.get id).2 := ModelRuntimeCache.get_acts h.tidy id
    exact ⟨[], [], .brief hidle (h.acts hacts) hacts plain_frees rfl rfl⟩
  | put id runtime mediaType =>
    have hput := ModelRuntimeCache.put_acts limits h.tidy id runtime mediaType
    have hreplaced := ModelRuntimeCache.put_replaced limits h.tidy id runtime mediaType
    simp only [CacheSystem.call] at hcall
    rcases hresult : s.cache.put limits id runtime mediaType with ⟨_ | cleanup, cache⟩ <;>
      simp only [hresult] at hput hreplaced hcall <;> cases hcall
    · subst hput
      exact ⟨[], [], .brief hidle (h.acts (.refl h.tidy)) (.refl h.tidy) plain_frees rfl rfl⟩
    · refine ⟨_, _, .retires h hput ?_ fun chore hmem => ?_⟩
      · unfold replacement
        split <;> simp
      · unfold replacement at hmem
        split at hmem
        case _ id' ref runtime' hold =>
          rw [List.mem_singleton.1 hmem]
          obtain ⟨rfl, hcur, hbusy, hruntime, hgone, hheap⟩ := hreplaced _ _ rfl hold
          exact ⟨_, ref, runtime', rfl, hcur, hbusy, hruntime, hgone, hheap⟩
        · cases hmem
  | unload id =>
    have hunload := ModelRuntimeCache.unload_acts h.tidy id
    simp only [CacheSystem.call] at hcall
    rcases hresult : s.cache.unload id with ⟨_ | _ | ref, cache⟩ <;>
      simp only [hresult] at hunload hcall <;> cases hcall
    · subst hunload
      exact ⟨[], [], .brief hidle (h.acts (.refl h.tidy)) (.refl h.tidy) plain_frees rfl rfl⟩
    · subst hunload
      exact ⟨[], [], .brief hidle (h.acts (.refl h.tidy)) (.refl h.tidy) plain_frees rfl rfl⟩
    · exact ⟨_, _, .retires h hunload (by simp) (by simp)⟩
  | unloadAll =>
    have hunload := ModelRuntimeCache.unloadAll_acts h.tidy
    simp only [CacheSystem.call] at hcall
    rcases hresult : s.cache.unloadAll with ⟨_ | targets, cache⟩ <;>
      simp only [hresult] at hunload hcall <;> cases hcall
    · subst hunload
      exact ⟨[], [], .brief hidle (h.acts (.refl h.tidy)) (.refl h.tidy) plain_frees rfl rfl⟩
    · exact ⟨_, _, .retires h hunload (by simp) (by simp)⟩
  | acquireOrReserve id mediaType =>
    have hacquire := ModelRuntimeCache.acquireOrReserve_acts limits h.tidy id mediaType
    have hreserved := ModelRuntimeCache.reserved_spec limits h.tidy id mediaType
    simp only [CacheSystem.call] at hcall
    rcases hresult : s.cache.acquireOrReserve limits id mediaType with ⟨_ | ref | ref | ⟨victimId, victim⟩, cache⟩ <;>
      simp only [hresult] at hacquire hreserved hcall <;> cases hcall
    · subst hacquire
      exact ⟨[], [], .brief hidle (h.acts (.refl h.tidy)) (.refl h.tidy) plain_frees rfl rfl⟩
    · exact ⟨[], [], .brief hidle (h.acts hacquire) hacquire plain_frees rfl rfl⟩
    · obtain ⟨hmade, hcur, hslot⟩ := hreserved ref rfl
      exact ⟨[], [], .brief hidle (h.reserve hacquire hmade ⟨hcur, hslot⟩) hacquire plain_frees rfl rfl⟩
    · exact ⟨_, _, .retires h hacquire (by simp) (by simp)⟩
  | publishReadyAndPin id reserved runtime =>
    simp only [CacheSystem.call] at hcall
    split at hcall
    case isTrue hmem =>
      cases hcall
      obtain ⟨-, hacts, hslot⟩ := ModelRuntimeCache.publishReadyAndPin_acts h.tidy (h.reserved _ hmem) runtime
      have hsound := h.ofOwner hmem hacts fun ref hne => by rw [hslot, Function.update_of_ne hne]
      exact ⟨[], [], .brief hidle hsound hacts (fun _ hmove => hmove) rfl rfl⟩
    · cases hcall
  | abortReservation id reserved =>
    simp only [CacheSystem.call] at hcall
    split at hcall
    case isTrue hmem =>
      cases hcall
      obtain ⟨hacts, hslot⟩ := ModelRuntimeCache.abortReservation_acts h.tidy (h.reserved _ hmem)
      have hsound := h.ofOwner hmem hacts fun ref hne => by rw [hslot, Function.update_of_ne hne]
      exact ⟨[], [], .brief hidle hsound hacts (fun _ hmove => hmove) rfl rfl⟩
    · cases hcall
  | releaseLease id ref =>
    have hacts := ModelRuntimeCache.releaseLease_acts limits h.tidy id ref
    simp only [CacheSystem.call] at hcall
    split at hcall
    · cases hcall
      have hsound := (h.toRegular.acts (hacts.mono fun _ hmove => hmove.1)).notifyAll
      exact ⟨[], _, hsound.clean hacts (by simp), hacts.mono fun _ hmove => hmove.2, .inr rfl, rfl,
        fun u hne => .inr (by rw [clean, activity_occupy _ _ hne]; rfl), chores_clean .., by simp⟩
    case isFalse hcur =>
      cases hcall
      have hstale : (s.cache.releaseLease limits id ref).2 = s.cache := by
        rw [ModelRuntimeCache.releaseLease, if_neg hcur]
      rw [hstale]
      exact ⟨[], [], .brief hidle (h.acts (.refl h.tidy)) (.refl h.tidy) plain_frees rfl rfl⟩
  | markInvalid id ref =>
    cases hcall
    have hacts := ModelRuntimeCache.markInvalid_acts h.tidy id ref
    exact ⟨[], [], .brief hidle (h.acts hacts) hacts plain_frees rfl rfl⟩
  | waitForStaleEntryDrain id ref expired =>
    cases hcall
    exact ⟨[], [], .look h⟩

/-- A thread does one of its chores. -/
inductive Does (s : CacheSystem ρ) : CacheSystem ρ → Prop
  | cleanup {t id ref runtime chores raised resume} (raised' : Bool)
      (hactivity : s.activity t = .cleaning (.cleanup id ref runtime :: chores) raised resume) :
      Does s { s.occupy t (.after chores raised' resume) with evicted := s.evicted ++ [(ref, runtime)] }
  | retirement {t id ref chores raised resume} (raised' : Bool)
      (hactivity : s.activity t = .cleaning (.retirement id ref :: chores) raised resume) :
      Does s { s.occupy t (.cleaning (.removal id ref :: chores) raised' resume) with
        evicted := s.evicted ++ ((s.cache.heap ref).runtime.map fun runtime => (ref, runtime)).toList }
  | removal {t id ref chores raised resume}
      (hactivity : s.activity t = .cleaning (.removal id ref :: chores) raised resume) :
      Does s ({ s with cache := s.cache.finishRetirement id ref }.notifyAll.occupy t (.after chores raised resume))

theorem recheck_section (t : Tid) (id : CanonicalId) (mediaType : Option String) {reservations : List (CanonicalId × EntryRef)}
    (h : s.Sound)
    (hreservations : (∃ e, (s.cache.acquireRecheck limits id mediaType).1 = .error e ∧ reservations = s.reservations) ∨
      ∃ ref, (s.cache.acquireRecheck limits id mediaType).1 = .ok ref ∧ reservations = (id, ref) :: s.reservations) :
    Section t [] [] s (({ s with
      cache := (s.cache.acquireRecheck limits id mediaType).2
      reservations } : CacheSystem ρ).occupy t .idle) := by
  have hacts := ModelRuntimeCache.acquireRecheck_acts limits h.tidy id mediaType
  have hsound : ({ s with
      cache := (s.cache.acquireRecheck limits id mediaType).2
      reservations } : CacheSystem ρ).Sound := by
    rcases hreservations with ⟨_, -, rfl⟩ | ⟨ref, hreserved, rfl⟩
    · exact h.acts hacts
    · obtain ⟨hmade, hcur, hslot⟩ := ModelRuntimeCache.rechecked_spec limits h.tidy id mediaType ref hreserved
      exact h.reserve hacts hmade ⟨hcur, hslot⟩
  exact .of_quiet (hsound.occupy (by simp) (by simp)) hacts plain_frees rfl
    (fun u hne => by rw [activity_occupy _ _ hne]) (by simp [CacheSystem.occupy]) (by simp)

theorem proceed_cases {raises : Bool} (h : s.Sound) (hproceed : s.proceed limits t raises = some s') :
    Does s s' ∨ (s.activity t).chores = [] ∧ Section t [] [] s s' ∧ s'.notified = s.notified := by
  unfold CacheSystem.proceed at hproceed
  split at hproceed
  case _ hactivity =>
    cases hproceed
    exact .inl (.cleanup _ hactivity)
  case _ id ref chores raised resume hactivity =>
    left
    cases hruntime : (s.cache.heap ref).runtime with
    | some runtime =>
      simp only [hruntime] at hproceed
      cases hproceed
      have hdoes := Does.retirement (raised || raises) hactivity
      rwa [hruntime] at hdoes
    | none =>
      simp only [hruntime] at hproceed
      cases hproceed
      have hdoes := Does.retirement raised hactivity
      simpa [hruntime, CacheSystem.occupy] using hdoes
  case _ hactivity =>
    cases hproceed
    exact .inl (.removal hactivity)
  case _ id mediaType hactivity =>
    right
    refine ⟨by rw [hactivity]; rfl, ?_⟩
    split at hproceed
    case _ ref cache hresult =>
      cases hproceed
      have hsection := recheck_section t id mediaType h
        (.inr ⟨ref, by rw [hresult], rfl⟩)
      rw [hresult] at hsection
      exact ⟨hsection, rfl⟩
    case _ e cache hresult =>
      cases hproceed
      have hsection := recheck_section t id mediaType h
        (.inl ⟨e, by rw [hresult], rfl⟩)
      rw [hresult] at hsection
      exact ⟨hsection, rfl⟩
  · cases hproceed

/-- A step is a section of a thread that has nothing to clean up, or a chore. -/
theorem step_cases [DecidableEq ρ] {event : Event ρ} (h : s.Sound) (hstep : step limits event s = some s') :
    Does s s' ∨ ∃ t first victims, (s.activity t).chores = [] ∧ Section t first victims s s' := by
  cases event with
  | call t call =>
    simp only [CacheSystem.step] at hstep
    split at hstep
    case _ hidle =>
      obtain ⟨first, victims, hsection⟩ := call_section h (by rw [hidle]; rfl) hstep
      exact .inr ⟨t, first, victims, by rw [hidle]; rfl, hsection⟩
    · cases hstep
  | proceed t raises =>
    rcases proceed_cases h hstep with hdoes | ⟨hidle, hsection, -⟩
    · exact .inl hdoes
    · exact .inr ⟨t, [], [], hidle, hsection⟩
  | recheck t expired =>
    simp only [CacheSystem.step] at hstep
    split at hstep
    case _ id ref hactivity =>
      cases hstep
      exact .inr ⟨t, [], [], by rw [hactivity]; rfl, .look h⟩
    · cases hstep
  | wakeUp t =>
    simp only [CacheSystem.step] at hstep
    split at hstep
    case _ id ref hactivity =>
      cases hstep
      refine .inr ⟨t, [], [], by rw [hactivity]; rfl, ?_⟩
      exact .of_quiet (P := Turn.Plain) (h.occupy (by simp [Activity.chores]) (by simp)) (.refl h.tidy) plain_frees rfl
        (fun u hne => by rw [activity_occupy _ _ hne]) (by simp [CacheSystem.occupy, Activity.chores]) (by simp)
    · cases hstep

theorem Advances.still (hsound : s'.Sound) (hcache : s'.cache = s.cache) : Advances s s' where
  sound := hsound
  turns := hcache ▸ .of_eq rfl
  made := hcache ▸ Nat.le_refl _
  named _ _ := hcache ▸ rfl
  waits := .inl fun _ _ hblocks => hcache ▸ hblocks

theorem Does.advances (hdoes : Does s s') (h : s.Sound) : Advances s s' := by
  cases hdoes with
  | @cleanup t id ref runtime chores raised resume raised' hactivity =>
    have hchores := h.chores t
    rw [hactivity] at hchores
    have hsound : (s.occupy t (.after chores raised' resume)).Sound :=
      h.occupy (fun chore hmem => hchores chore (List.mem_cons_of_mem _ (by simpa using hmem)))
        fun _ _ hdraining => absurd hdraining after_ne_draining
    exact .still { hsound with } rfl
  | @retirement t id ref chores raised resume raised' hactivity =>
    have hchores := h.chores t
    rw [hactivity] at hchores
    have hsound : (s.occupy t (.cleaning (.removal id ref :: chores) raised' resume)).Sound := by
      refine h.occupy (fun chore hmem => ?_) (by simp)
      rcases List.mem_cons.1 hmem with rfl | hmem
      · exact hchores (.retirement id ref) List.mem_cons_self
      · exact hchores chore (List.mem_cons_of_mem _ hmem)
    exact .still { hsound with } rfl
  | @removal t id ref chores raised resume hactivity =>
    have hchores := h.chores t
    rw [hactivity] at hchores
    obtain ⟨hmade, hid, hslot⟩ := hchores (.removal id ref) List.mem_cons_self
    have hacts := (ModelRuntimeCache.finishRetirement_acts h.tidy hmade hid hslot).1
    refine ⟨(h.toRegular.acts hacts).notifyAll.occupy (fun chore hmem => ?_)
      (fun _ _ hdraining => absurd hdraining after_ne_draining), hacts.turns.mono fun _ _ => trivial, hacts.made,
      hacts.named, .inr rfl⟩
    rw [Activity.chores_after] at hmem
    exact (hchores chore (List.mem_cons_of_mem _ hmem)).kept hacts

theorem step_spec [DecidableEq ρ] {event : Event ρ} (h : s.Sound) (hstep : step limits event s = some s') :
    Advances s s' := by
  rcases step_cases h hstep with hdoes | ⟨t, first, victims, -, hsection⟩
  · exact hdoes.advances h
  · exact hsection.advances h

theorem Reachable.sound [DecidableEq ρ] (h : s.Reachable limits) : s.Sound := by
  obtain ⟨run, hrun⟩ := h
  exact holds_of_run (fun _ _ _ hsound hstep => (step_spec hsound hstep).sound) sound_start hrun

end CacheSystem

end CreativeStudio.Models
