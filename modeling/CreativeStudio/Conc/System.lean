import CreativeStudio.Conc.Prog

/-!
# Interleavings, and the rule that proves invariants of them

A system runs any number of threads over one shared state. A step is one atomic
command of one thread, a new call started on a thread that is idle, or a reset that
drops every call in flight.

`Discipline` packages what a proof about a system says once: an invariant of the
shared state, how every step changes the state, what other threads leave alone of
what one thread holds, and what must hold whenever a thread is about to execute a
command. `Discipline.wp` is the resulting weakest precondition of a program, closed
under interference before every command, and `System.Sound` carries it to every
reachable configuration. A discipline can be built over another one: `base` is what
has been shown of every step already.
-/

namespace CreativeStudio.Conc

variable {C : Type → Type} {σ ε α β : Type}

/-- The invariant, how the state evolves, and what each command needs where it is
executed. -/
structure Discipline (M : Machine C σ) where
  /-- Holds of the shared state between any two commands. -/
  inv : σ → Prop
  /-- What every step does to the state. -/
  evolves : σ → σ → Prop
  /-- What the steps of other threads leave alone for this thread. -/
  keeps : Tid → σ → σ → Prop
  /-- What has to hold when the thread is about to execute the command. -/
  ok : ∀ {β : Type}, Tid → C β → σ → Prop
  /-- What is already known of a step of the thread. -/
  base : Tid → σ → σ → Prop
  evolves_refl : ∀ s, evolves s s
  evolves_trans : ∀ s₁ s₂ s₃, evolves s₁ s₂ → evolves s₂ s₃ → evolves s₁ s₃
  keeps_refl : ∀ t s, keeps t s s
  keeps_trans : ∀ t s₁ s₂ s₃, keeps t s₁ s₂ → keeps t s₂ s₃ → keeps t s₁ s₃

namespace Discipline
variable {M : Machine C σ}

/-- A state change of thread `t` that keeps the invariant and that every other
thread tolerates. -/
structure Tolerated (D : Discipline M) (t : Tid) (s s' : σ) : Prop where
  inv : D.inv s'
  evolves : D.evolves s s'
  keeps : ∀ u, u ≠ t → D.keeps u s s'

/-- What other threads may have done to the state while thread `t` was not running. -/
structure Interfered (D : Discipline M) (t : Tid) (s s' : σ) : Prop where
  inv : D.inv s'
  evolves : D.evolves s s'
  keeps : D.keeps t s s'

variable {D : Discipline M}

theorem Tolerated.refl {t : Tid} {s : σ} (h : D.inv s) : D.Tolerated t s s :=
  ⟨h, D.evolves_refl s, fun u _ => D.keeps_refl u s⟩

theorem Interfered.refl {t : Tid} {s : σ} (h : D.inv s) : D.Interfered t s s :=
  ⟨h, D.evolves_refl s, D.keeps_refl t s⟩

theorem Interfered.trans {t : Tid} {s₁ s₂ s₃ : σ} (h : D.Interfered t s₁ s₂)
    (h' : D.Interfered t s₂ s₃) : D.Interfered t s₁ s₃ :=
  ⟨h'.inv, D.evolves_trans _ _ _ h.evolves h'.evolves, D.keeps_trans _ _ _ _ h.keeps h'.keeps⟩

variable (D)

/-- Weakest precondition of a program of thread `t`. Other threads run before every
command; the postcondition sees a returned value or an exception. -/
def wp (t : Tid) : Prog C ε α → (Except ε α → σ → Prop) → σ → Prop
  | .ret a, Q, s => Q (.ok a) s
  | .raise e, Q, s => Q (.error e) s
  | .op c k, Q, s => ∀ s₁, D.Interfered t s s₁ →
      D.ok t c s₁ ∧ ∀ b s₂, (b, s₂) ∈ M.step t c s₁ → D.base t s₁ s₂ →
        D.Tolerated t s₁ s₂ ∧ wp t (k b) Q s₂

@[simp] theorem wp_ret (t : Tid) (a : α) (Q : Except ε α → σ → Prop) (s : σ) :
    D.wp t (.ret a) Q s ↔ Q (.ok a) s := Iff.rfl
@[simp] theorem wp_raise (t : Tid) (e : ε) (Q : Except ε α → σ → Prop) (s : σ) :
    D.wp t (.raise e) Q s ↔ Q (.error e) s := Iff.rfl

variable {D}

theorem wp_mono {t : Tid} {p : Prog C ε α} {Q Q' : Except ε α → σ → Prop} {s : σ}
    (hp : D.wp t p Q s) (h : ∀ r s, Q r s → Q' r s) : D.wp t p Q' s := by
  induction p generalizing s with
  | ret a => exact h _ _ hp
  | raise e => exact h _ _ hp
  | op c k ih =>
    intro s₁ hs
    obtain ⟨hok, hstep⟩ := hp s₁ hs
    exact ⟨hok, fun b s₂ hb hbase => ⟨(hstep b s₂ hb hbase).1, ih b (hstep b s₂ hb hbase).2⟩⟩

/-- A program that ends has evolved the state it started from. -/
theorem wp_evolves {t : Tid} {p : Prog C ε α} {Q : Except ε α → σ → Prop} {s₀ s : σ}
    (h₀ : D.evolves s₀ s) (hp : D.wp t p (fun r s' => D.evolves s₀ s' → Q r s') s) :
    D.wp t p Q s := by
  induction p generalizing s with
  | ret a => exact hp h₀
  | raise e => exact hp h₀
  | op c k ih =>
    intro s₁ hs
    obtain ⟨hok, hstep⟩ := hp s₁ hs
    refine ⟨hok, fun b s₂ hb hbase => ⟨(hstep b s₂ hb hbase).1, ?_⟩⟩
    have htol := (hstep b s₂ hb hbase).1
    exact ih b (D.evolves_trans _ _ _ h₀ (D.evolves_trans _ _ _ hs.evolves htol.evolves))
      (hstep b s₂ hb hbase).2

/-- Sequencing: the continuation runs from whatever the first part leaves, and that
state has evolved from the one the first part started in. -/
theorem wp_bind {t : Tid} {p : Prog C ε α} {f : α → Prog C ε β}
    {Q : Except ε β → σ → Prop} {s : σ}
    (h : D.wp t p (fun r s' => D.evolves s s' → match r with
      | .ok a => D.wp t (f a) Q s'
      | .error e => Q (.error e) s') s) : D.wp t (p >>= f) Q s := by
  suffices key : ∀ s, D.wp t p (fun r s' => match r with
      | .ok a => D.wp t (f a) Q s'
      | .error e => Q (.error e) s') s → D.wp t (p >>= f) Q s from
    key s (wp_evolves (D.evolves_refl s) h)
  clear h s
  intro s h
  induction p generalizing s with
  | ret a => exact h
  | raise e => exact h
  | op c k ih =>
    intro s₁ hs
    obtain ⟨hok, hstep⟩ := h s₁ hs
    exact ⟨hok, fun b s₂ hb hbase => ⟨(hstep b s₂ hb hbase).1, ih b _ (hstep b s₂ hb hbase).2⟩⟩

/-- Capturing the exception hands it to the postcondition as a value. -/
theorem wp_attempt {t : Tid} {p : Prog C ε α} {Q : Except ε (Except ε α) → σ → Prop} {s : σ}
    (h : D.wp t p (fun r s' => Q (.ok r) s') s) : D.wp t p.attempt Q s := by
  induction p generalizing s with
  | ret a => exact h
  | raise e => exact h
  | op c k ih =>
    intro s₁ hs
    obtain ⟨hok, hstep⟩ := h s₁ hs
    exact ⟨hok, fun b s₂ hb hbase => ⟨(hstep b s₂ hb hbase).1, ih b (hstep b s₂ hb hbase).2⟩⟩

/-- What other threads did before the program's first command does not matter. -/
theorem wp_of_interfered {t : Tid} {p : Prog C ε α} {s s' : σ} (hs : D.Interfered t s s')
    (hp : D.wp t p (fun _ _ => True) s) : D.wp t p (fun _ _ => True) s' := by
  cases p with
  | ret a => trivial
  | raise e => trivial
  | op c k => exact fun s₁ hs₁ => hp s₁ (hs.trans hs₁)

/-- One command whose answers are `exec`uted or `call`ed for. -/
theorem wp_exec {t : Tid} {c : C β} {Q : Except ε β → σ → Prop} {s : σ}
    (h : ∀ s₁, D.Interfered t s s₁ → D.ok t c s₁ ∧ ∀ b s₂, (b, s₂) ∈ M.step t c s₁ →
      D.base t s₁ s₂ → D.Tolerated t s₁ s₂ ∧ Q (.ok b) s₂) : D.wp t (Prog.exec c) Q s := h

theorem wp_call {t : Tid} {c : C (Except ε β)} {Q : Except ε β → σ → Prop} {s : σ}
    (h : ∀ s₁, D.Interfered t s s₁ → D.ok t c s₁ ∧ ∀ r s₂, (r, s₂) ∈ M.step t c s₁ →
      D.base t s₁ s₂ → D.Tolerated t s₁ s₂ ∧ Q r s₂) : D.wp t (Prog.call c) Q s := by
  intro s₁ hs
  obtain ⟨hok, hstep⟩ := h s₁ hs
  refine ⟨hok, fun r s₂ hr hbase => ⟨(hstep r s₂ hr hbase).1, ?_⟩⟩
  cases r with
  | ok b => exact (hstep _ s₂ hr hbase).2
  | error e => exact (hstep _ s₂ hr hbase).2

theorem wp_ofExcept {t : Tid} {r : Except ε α} {Q : Except ε α → σ → Prop} {s : σ}
    (h : Q r s) : D.wp t (Prog.ofExcept r) Q s := by
  cases r with
  | ok a => exact h
  | error e => exact h

/-! ### Programs that need nothing from their context -/

variable (D)

/-- The program may run from any state, in any context. -/
def Safe (t : Tid) (p : Prog C ε α) : Prop := ∀ s, D.wp t p (fun _ _ => True) s

/-- A command that any thread may execute anywhere. -/
def Free (t : Tid) (c : C β) : Prop :=
  ∀ s, D.inv s → D.ok t c s ∧ ∀ b s', (b, s') ∈ M.step t c s → D.base t s s' →
    D.Tolerated t s s'

variable {D}

theorem safe_ret {t : Tid} (a : α) : D.Safe t (.ret a : Prog C ε α) := fun _ => trivial
theorem safe_raise {t : Tid} (e : ε) : D.Safe t (.raise e : Prog C ε α) := fun _ => trivial

theorem Safe.bind {t : Tid} {p : Prog C ε α} {f : α → Prog C ε β} (hp : D.Safe t p)
    (hf : ∀ a, D.Safe t (f a)) : D.Safe t (p >>= f) := by
  intro s
  refine wp_bind (wp_mono (hp s) fun r s' _ _ => ?_)
  cases r with
  | ok a => exact hf a s'
  | error e => trivial

theorem Safe.attempt {t : Tid} {p : Prog C ε α} (hp : D.Safe t p) : D.Safe t p.attempt :=
  fun s => wp_attempt (wp_mono (hp s) fun _ _ _ => trivial)

theorem Safe.orElse {t : Tid} {p : Prog C ε α} {h : ε → Prog C ε α} (hp : D.Safe t p)
    (hh : ∀ e, D.Safe t (h e)) : D.Safe t (p.orElse h) := by
  refine Safe.bind hp.attempt fun r => ?_
  cases r with
  | ok a => exact safe_ret a
  | error e => exact hh e

theorem safe_ofExcept {t : Tid} (r : Except ε α) : D.Safe t (Prog.ofExcept r : Prog C ε α) := by
  cases r with
  | ok a => exact safe_ret a
  | error e => exact safe_raise e

theorem Safe.andFinally {t : Tid} {p : Prog C ε α} {f : Prog C ε Unit} (hp : D.Safe t p)
    (hf : D.Safe t f) : D.Safe t (p.andFinally f) :=
  Safe.bind hp.attempt fun r => Safe.bind hf fun _ => safe_ofExcept r

theorem Free.exec {t : Tid} {c : C β} (hc : D.Free t c) :
    D.Safe t (Prog.exec c : Prog C ε β) := fun _ =>
  wp_exec fun s₁ hs => ⟨(hc s₁ hs.inv).1, fun b s₂ hb hbase =>
    ⟨(hc s₁ hs.inv).2 b s₂ hb hbase, trivial⟩⟩

theorem Free.call {t : Tid} {c : C (Except ε β)} (hc : D.Free t c) :
    D.Safe t (Prog.call c : Prog C ε β) := fun _ =>
  wp_call fun s₁ hs => ⟨(hc s₁ hs.inv).1, fun b s₂ hb hbase =>
    ⟨(hc s₁ hs.inv).2 b s₂ hb hbase, trivial⟩⟩

theorem safe_of_uses {t : Tid} {S : ∀ {β : Type}, C β → Prop}
    (hfree : ∀ {β : Type} (c : C β), S c → D.Free t c) {p : Prog C ε α} (hp : p.Uses S) :
    D.Safe t p := by
  intro s
  induction p generalizing s with
  | ret a => trivial
  | raise e => trivial
  | op c k ih =>
    intro s₁ hint
    obtain ⟨hok, hstep⟩ := hfree c hp.1 s₁ hint.inv
    exact ⟨hok, fun b s₂ hb hbase => ⟨hstep b s₂ hb hbase, ih b (hp.2 b) s₂⟩⟩

/-! ### Facts that a program carries along -/

/-- A program keeps a fact that its commands keep and that other threads leave alone. -/
theorem wp_frame {t : Tid} {S : ∀ {β : Type}, C β → Prop} {P : σ → Prop}
    (hkeep : ∀ {β : Type} (c : C β) b s s', S c → P s → (b, s') ∈ M.step t c s → P s')
    (hother : ∀ s s', D.Interfered t s s' → P s → P s') {p : Prog C ε α} (hp : p.Uses S)
    {Q : Except ε α → σ → Prop} {s : σ} (hwp : D.wp t p Q s) (hs : P s) :
    D.wp t p (fun r s' => Q r s' ∧ P s') s := by
  induction p generalizing s with
  | ret a => exact ⟨hwp, hs⟩
  | raise e => exact ⟨hwp, hs⟩
  | op c k ih =>
    intro s₁ hint
    obtain ⟨hok, hstep⟩ := hwp s₁ hint
    exact ⟨hok, fun b s₂ hb hbase => ⟨(hstep b s₂ hb hbase).1,
      ih b (hp.2 b) (hstep b s₂ hb hbase).2
        (hkeep c b s₁ s₂ hp.1 (hother s s₁ hint hs) hb)⟩⟩

/-- A program of free commands that keep a fact. -/
theorem wp_of_uses {t : Tid} {S : ∀ {β : Type}, C β → Prop} {P : σ → Prop}
    (hfree : ∀ {β : Type} (c : C β), S c → D.Free t c)
    (hkeep : ∀ {β : Type} (c : C β) b s s', S c → P s → (b, s') ∈ M.step t c s → P s')
    (hother : ∀ s s', D.Interfered t s s' → P s → P s') {p : Prog C ε α} (hp : p.Uses S) {s : σ}
    (hs : P s) : D.wp t p (fun _ s' => P s') s :=
  wp_mono (wp_frame hkeep hother hp (safe_of_uses hfree hp s) hs) fun _ _ h => h.2

/-! ### One discipline over another -/

/-- The discipline that adds to what `D` has already shown of every step. -/
def extend (D : Discipline M) (inv : σ → Prop) (evolves : σ → σ → Prop)
    (keeps : Tid → σ → σ → Prop) (ok : ∀ {β : Type}, Tid → C β → σ → Prop)
    (evolves_refl : ∀ s, evolves s s)
    (evolves_trans : ∀ s₁ s₂ s₃, evolves s₁ s₂ → evolves s₂ s₃ → evolves s₁ s₃)
    (keeps_refl : ∀ t s, keeps t s s)
    (keeps_trans : ∀ t s₁ s₂ s₃, keeps t s₁ s₂ → keeps t s₂ s₃ → keeps t s₁ s₃) :
    Discipline M where
  inv s := D.inv s ∧ inv s
  evolves s s' := D.evolves s s' ∧ evolves s s'
  keeps t s s' := D.keeps t s s' ∧ keeps t s s'
  ok := ok
  base := D.Tolerated
  evolves_refl s := ⟨D.evolves_refl s, evolves_refl s⟩
  evolves_trans _ _ _ h h' :=
    ⟨D.evolves_trans _ _ _ h.1 h'.1, evolves_trans _ _ _ h.2 h'.2⟩
  keeps_refl t s := ⟨D.keeps_refl t s, keeps_refl t s⟩
  keeps_trans _ _ _ _ h h' :=
    ⟨D.keeps_trans _ _ _ _ h.1 h'.1, keeps_trans _ _ _ _ h.2 h'.2⟩

/-- What a program was shown to do is still known over an extension, where only what is
new has to be shown. -/
theorem wp_extend {inv : σ → Prop} {evolves : σ → σ → Prop} {keeps : Tid → σ → σ → Prop}
    {ok : ∀ {β : Type}, Tid → C β → σ → Prop} {h₁ h₂ h₃ h₄} {t : Tid} {p : Prog C ε α}
    {Q Q' : Except ε α → σ → Prop} {s : σ} (hbase : ∀ t s s', D.base t s s') (h : D.wp t p Q s)
    (h' : (D.extend inv evolves keeps ok h₁ h₂ h₃ h₄).wp t p Q' s) :
    (D.extend inv evolves keeps ok h₁ h₂ h₃ h₄).wp t p (fun r s' => Q r s' ∧ Q' r s') s := by
  induction p generalizing s with
  | ret a => exact ⟨h, h'⟩
  | raise e => exact ⟨h, h'⟩
  | op c k ih =>
    intro s₁ hint
    have hint' : D.Interfered t s s₁ := ⟨hint.inv.1, hint.evolves.1, hint.keeps.1⟩
    obtain ⟨hok, hstep⟩ := h' s₁ hint
    exact ⟨hok, fun b s₂ hb htol => ⟨(hstep b s₂ hb htol).1,
      ih b ((h s₁ hint').2 b s₂ hb (hbase t s₁ s₂)).2 (hstep b s₂ hb htol).2⟩⟩

end Discipline

/-- A machine together with the calls its threads make and the resets it may go
through. -/
structure System (C : Type → Type) (σ ε : Type) extends Machine C σ where
  /-- The shared state the system starts in. -/
  init : σ → Prop
  /-- The calls an idle thread may start in a state. -/
  calls : Tid → σ → Prog C ε Unit → Prop
  /-- A reset drops every call in flight and leaves a new shared state. -/
  reset : σ → σ → Prop

/-- The shared state and what each thread still has to run. -/
structure Config (C : Type → Type) (σ ε : Type) where
  state : σ
  threads : Tid → Prog C ε Unit

/-- A thread is idle when its last call has returned or raised. -/
def Prog.Idle : Prog C ε α → Prop
  | .op _ _ => False
  | _ => True

namespace System
variable (S : System C σ ε)

/-- One step of the system. -/
inductive Step : Config C σ ε → Config C σ ε → Prop
  | op {s s' : σ} {th : Tid → Prog C ε Unit} {t : Tid} {β : Type} {c : C β}
      {k : β → Prog C ε Unit} {b : β} (hth : th t = .op c k)
      (hstep : (b, s') ∈ S.step t c s) :
      Step ⟨s, th⟩ ⟨s', Function.update th t (k b)⟩
  | call {s : σ} {th : Tid → Prog C ε Unit} {t : Tid} {p : Prog C ε Unit}
      (hidle : (th t).Idle) (hcall : S.calls t s p) :
      Step ⟨s, th⟩ ⟨s, Function.update th t p⟩
  | reset {s s' : σ} {th : Tid → Prog C ε Unit} (hreset : S.reset s s') :
      Step ⟨s, th⟩ ⟨s', fun _ => .ret ()⟩

/-- A configuration the system starts in: no call is running. -/
def Initial (c : Config C σ ε) : Prop := S.init c.state ∧ ∀ t, c.threads t = .ret ()

/-- The configurations of all runs. -/
def Reachable (c : Config C σ ε) : Prop :=
  ∃ c₀, S.Initial c₀ ∧ Relation.ReflTransGen S.Step c₀ c

variable {S}

theorem Reachable.step {c c' : Config C σ ε} (h : S.Reachable c) (hs : S.Step c c') :
    S.Reachable c' := by
  obtain ⟨c₀, hi, hr⟩ := h
  exact ⟨c₀, hi, hr.tail hs⟩

theorem Reachable.trans {c c' : Config C σ ε} (h : S.Reachable c)
    (hs : Relation.ReflTransGen S.Step c c') : S.Reachable c' := by
  obtain ⟨c₀, hi, hr⟩ := h
  exact ⟨c₀, hi, hr.trans hs⟩

/-- What a discipline has to show about a system. -/
structure Sound (D : Discipline S.toMachine) : Prop where
  init : ∀ s, S.init s → D.inv s
  calls : ∀ t s p, D.inv s → S.calls t s p → D.wp t p (fun _ _ => True) s
  reset : ∀ s s', D.inv s → S.reset s s' → D.inv s'
  /-- What the discipline takes as known holds of every step of every run. -/
  base : ∀ (c : Config C σ ε) (t : Tid) {β : Type} (cmd : C β) (k : β → Prog C ε Unit) b s',
    S.Reachable c → c.threads t = .op cmd k → (b, s') ∈ S.step t cmd c.state →
      D.base t c.state s'

/-- The shared state keeps the invariant, and every thread is at a point its
discipline accounts for. -/
structure Sound.Good (D : Discipline S.toMachine) (c : Config C σ ε) : Prop where
  inv : D.inv c.state
  threads : ∀ t, D.wp t (c.threads t) (fun _ _ => True) c.state

/-- A command of one thread keeps the others where they are. -/
theorem Sound.Good.op {D : Discipline S.toMachine} {s s' : σ} {th : Tid → Prog C ε Unit} {t : Tid}
    {cmd : C β} {k : β → Prog C ε Unit} {b : β} (hg : Sound.Good D ⟨s, th⟩) (hth : th t = .op cmd k)
    (hstep : (b, s') ∈ S.step t cmd s) (hbase : D.base t s s') :
    Sound.Good D ⟨s', Function.update th t (k b)⟩ := by
  have ht : D.wp t (th t) (fun _ _ => True) s := hg.threads t
  rw [hth] at ht
  obtain ⟨htol, hk⟩ := (ht s (.refl hg.inv)).2 b s' hstep hbase
  refine ⟨htol.inv, fun u => ?_⟩
  by_cases hu : u = t
  · subst hu; simpa using hk
  · have hint : D.Interfered u s s' := ⟨htol.inv, htol.evolves, htol.keeps u hu⟩
    simpa [Function.update_of_ne hu] using
      Discipline.wp_of_interfered hint (hg.threads u)

/-- A step from outside that every thread tolerates. -/
theorem Sound.Good.outside {D : Discipline S.toMachine} {s s' : σ} {th : Tid → Prog C ε Unit}
    (hg : Sound.Good D ⟨s, th⟩) (hint : ∀ u, D.Interfered u s s') (hinv : D.inv s') :
    Sound.Good D ⟨s', th⟩ :=
  ⟨hinv, fun u => Discipline.wp_of_interfered (hint u) (hg.threads u)⟩

theorem Sound.Good.call {D : Discipline S.toMachine} (hD : Sound D) {s : σ} {th : Tid → Prog C ε Unit}
    {t : Tid} {p : Prog C ε Unit} (hg : Sound.Good D ⟨s, th⟩) (hcall : S.calls t s p) :
    Sound.Good D ⟨s, Function.update th t p⟩ := by
  refine ⟨hg.inv, fun u => ?_⟩
  by_cases hu : u = t
  · subst hu; simpa using hD.calls u s p hg.inv hcall
  · simpa [Function.update_of_ne hu] using hg.threads u

theorem Sound.good_step {D : Discipline S.toMachine} (hD : Sound D) {c c' : Config C σ ε}
    (hc : S.Reachable c) (hg : Sound.Good D c) (hs : S.Step c c') : Sound.Good D c' := by
  cases hs with
  | @op s s' th t β cmd k b hth hstep =>
    exact hg.op hth hstep (hD.base ⟨s, th⟩ t cmd k b s' hc hth hstep)
  | call hidle hcall => exact hg.call hD hcall
  | @reset s s' th hreset => exact ⟨hD.reset s s' hg.inv hreset, fun _ => trivial⟩

/-- Every reachable configuration keeps the invariant, whatever the interleaving. -/
theorem Sound.good {D : Discipline S.toMachine} (hD : Sound D) {c : Config C σ ε}
    (hc : S.Reachable c) : Sound.Good D c := by
  obtain ⟨c₀, ⟨hi, hth⟩, hr⟩ := hc
  induction hr with
  | refl => exact ⟨hD.init _ hi, fun t => by rw [hth t]; trivial⟩
  | tail hr hs ih => exact hD.good_step ⟨c₀, ⟨hi, hth⟩, hr⟩ ih hs

/-- Every command a reachable configuration is about to execute has what it needs. -/
theorem Sound.ok {D : Discipline S.toMachine} (hD : Sound D) {c : Config C σ ε}
    (hc : S.Reachable c) {t : Tid} {cmd : C β} {k : β → Prog C ε Unit}
    (ht : c.threads t = .op cmd k) : D.ok t cmd c.state := by
  have hg := hD.good hc
  have hw := hg.threads t
  rw [ht] at hw
  exact (hw c.state (.refl hg.inv)).1

/-- The command a thread executes next keeps to the discipline. -/
theorem Sound.tolerated {D : Discipline S.toMachine} (hD : Sound D) {c : Config C σ ε}
    (hc : S.Reachable c) {t : Tid} {cmd : C β} {k : β → Prog C ε Unit}
    (ht : c.threads t = .op cmd k) {b : β} {s' : σ} (hs : (b, s') ∈ S.step t cmd c.state) :
    D.Tolerated t c.state s' := by
  have hg := hD.good hc
  have hw := hg.threads t
  rw [ht] at hw
  exact ((hw c.state (.refl hg.inv)).2 b s' hs (hD.base c t cmd k b s' hc ht hs)).1

/-- What every step and every reset does to the state, a whole run does. -/
theorem Sound.evolves_of_run {D : Discipline S.toMachine} (hD : Sound D)
    (hreset : ∀ s s', D.inv s → S.reset s s' → D.evolves s s') {c c' : Config C σ ε}
    (hc : S.Reachable c) (hr : Relation.ReflTransGen S.Step c c') :
    D.evolves c.state c'.state := by
  induction hr with
  | refl => exact D.evolves_refl _
  | tail hr hs ih =>
    refine D.evolves_trans _ _ _ ih ?_
    have hc' := hc.trans hr
    cases hs with
    | op hth hstep => exact (hD.tolerated hc' hth hstep).evolves
    | call _ _ => exact D.evolves_refl _
    | reset h => exact hreset _ _ (hD.good hc').inv h

end System

/-! ## Executing a schedule -/

namespace Machine
variable (M : Machine C σ)

/-- A thread that runs beside the threads of a configuration. -/
def beside : Machine C (Config C σ ε) where
  step t c conf := (M.step t c conf.state).map fun r => (r.1, ⟨r.2, conf.threads⟩)

theorem mem_beside {t : Tid} {c : C β} {b : β} {conf conf' : Config C σ ε} :
    (b, conf') ∈ M.beside.step t c conf ↔
      (b, conf'.state) ∈ M.step t c conf.state ∧ conf'.threads = conf.threads := by
  obtain ⟨s', th'⟩ := conf'
  simp only [beside, List.mem_map, Prod.mk.injEq, Config.mk.injEq, Prod.exists]
  constructor
  · rintro ⟨b', s'', hmem, rfl, rfl, rfl⟩
    exact ⟨hmem, rfl⟩
  · rintro ⟨hmem, rfl⟩
    exact ⟨b, s', hmem, rfl, rfl, rfl⟩

/-- Let thread `t` execute its next command with the outcome numbered `n`. -/
def runThread (t : Tid) (n : ℕ) (c : Config C σ ε) : Option (Config C σ ε) :=
  match c.threads t with
  | .op cmd k => (M.step t cmd c.state)[n]?.map fun r =>
      ⟨r.2, Function.update c.threads t (k r.1)⟩
  | _ => none

/-- Follow a schedule of threads and outcome numbers. -/
def runSchedule : List (Tid × ℕ) → Config C σ ε → Option (Config C σ ε)
  | [], c => some c
  | (t, n) :: rest, c => (M.runThread t n c).bind (runSchedule rest)

end Machine

/-- A schedule only makes steps of the system. -/
theorem System.run_of_runSchedule {S : System C σ ε} {sched : List (Tid × ℕ)}
    {c c' : Config C σ ε} (hrun : S.runSchedule sched c = some c') :
    Relation.ReflTransGen S.Step c c' := by
  induction sched generalizing c with
  | nil =>
    obtain rfl : c = c' := by simpa [Machine.runSchedule] using hrun
    exact .refl
  | cons tn rest ih =>
    obtain ⟨t, n⟩ := tn
    obtain ⟨c₁, h₁, hrest⟩ := Option.bind_eq_some_iff.mp hrun
    refine .head ?_ (ih hrest)
    obtain ⟨s, th⟩ := c
    unfold Machine.runThread at h₁
    split at h₁
    next β cmd k hth =>
      obtain ⟨⟨b, s'⟩, hget, rfl⟩ := Option.map_eq_some_iff.mp h₁
      exact System.Step.op hth (List.mem_of_getElem? hget)
    next => cases h₁

theorem System.reachable_runSchedule {S : System C σ ε} {sched : List (Tid × ℕ)}
    {c c' : Config C σ ε} (hc : S.Reachable c)
    (hrun : S.runSchedule sched c = some c') : S.Reachable c' :=
  hc.trans (System.run_of_runSchedule hrun)

end CreativeStudio.Conc
