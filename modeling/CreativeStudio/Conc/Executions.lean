import CreativeStudio.Conc.System

/-!
# Executions of one program

What a program does from its first command to its end, step by step. Between two of its own
commands, and after the last, the rest of the world may take steps of a given relation; for a
program that runs alone, the relation is empty. Every step is recorded with the state before
it and the state after it, so that a statement can speak of the whole history.
-/

namespace CreativeStudio.Conc

variable {C : Type → Type} {σ : Type*} {ε α β : Type}

/-- A command, and what it was answered. -/
structure Event (C : Type → Type) where
  {answers : Type}
  command : C answers
  answer : answers

/-- One step of an execution: a command of the program, or a step of another thread. -/
structure Transition (C : Type → Type) (σ : Type*) where
  before : σ
  own : Option (Event C)
  after : σ

/-- Nobody else takes a step. -/
def Alone : σ → σ → Prop := fun _ _ => False

/-- The executions of a program of thread `t`, while the others take steps of `rely`. -/
inductive Runs (M : Machine C σ) (rely : σ → σ → Prop) (t : Tid) :
    Prog C ε α → σ → List (Transition C σ) → Except ε α → σ → Prop
  | ret (a : α) (s : σ) : Runs M rely t (.ret a) s [] (.ok a) s
  | raise (e : ε) (s : σ) : Runs M rely t (.raise e) s [] (.error e) s
  | other {p : Prog C ε α} {s s₁ s' : σ} {τ : List (Transition C σ)} {r : Except ε α}
      (hrely : rely s s₁) (hrest : Runs M rely t p s₁ τ r s') :
      Runs M rely t p s (⟨s, none, s₁⟩ :: τ) r s'
  | op {β : Type} {c : C β} {k : β → Prog C ε α} {b : β} {s s₁ s' : σ}
      {τ : List (Transition C σ)} {r : Except ε α}
      (hstep : (b, s₁) ∈ M.step t c s) (hrest : Runs M rely t (k b) s₁ τ r s') :
      Runs M rely t (.op c k) s (⟨s, some ⟨c, b⟩, s₁⟩ :: τ) r s'

namespace Runs
variable {M : Machine C σ} {rely : σ → σ → Prop} {t : Tid} {s s' : σ}
  {τ : List (Transition C σ)}

/-- An execution of a sequence is one of its first part that raises, or one that returns,
followed by one of the second part. -/
theorem of_bind {p : Prog C ε α} {f : α → Prog C ε β} {r : Except ε β}
    (h : Runs M rely t (p >>= f) s τ r s') :
    (∃ e, r = .error e ∧ Runs M rely t p s τ (.error e) s') ∨
      ∃ a s₁ τ₁ τ₂, τ = τ₁ ++ τ₂ ∧ Runs M rely t p s τ₁ (.ok a) s₁ ∧
        Runs M rely t (f a) s₁ τ₂ r s' := by
  generalize hq : (p >>= f) = q at h
  induction h generalizing p with
  | ret b s =>
    cases p with
    | ret a => exact .inr ⟨a, s, [], [], rfl, .ret a s, by rw [← Prog.ret_bind a f, hq]; exact .ret b s⟩
    | raise e => cases hq
    | op c k => cases hq
  | raise e s =>
    cases p with
    | ret a => exact .inr ⟨a, s, [], [], rfl, .ret a s, by rw [← Prog.ret_bind a f, hq]; exact .raise e s⟩
    | raise e' =>
      obtain rfl : e' = e := by simpa using hq
      exact .inl ⟨e', rfl, .raise e' s⟩
    | op c k => cases hq
  | other hrely hrest ih =>
    rcases ih hq with ⟨e, rfl, hp⟩ | ⟨a, s₁, τ₁, τ₂, rfl, hp, hf⟩
    · exact .inl ⟨e, rfl, .other hrely hp⟩
    · exact .inr ⟨a, s₁, _ :: τ₁, τ₂, rfl, .other hrely hp, hf⟩
  | op hstep hrest ih =>
    cases p with
    | ret a =>
      refine .inr ⟨a, _, [], _, rfl, .ret a _, ?_⟩
      rw [← Prog.ret_bind a f, hq]
      exact .op hstep hrest
    | raise e => cases hq
    | op c k =>
      cases hq
      rcases ih rfl with ⟨e, rfl, hp⟩ | ⟨a, s₁, τ₁, τ₂, rfl, hp, hf⟩
      · exact .inl ⟨e, rfl, .op hstep hp⟩
      · exact .inr ⟨a, s₁, _ :: τ₁, τ₂, rfl, .op hstep hp, hf⟩

/-- Catching the exceptions of a program changes nothing but the way it ends. -/
theorem of_attempt {p : Prog C ε α} {r : Except ε (Except ε α)}
    (h : Runs M rely t p.attempt s τ r s') : ∃ r', r = .ok r' ∧ Runs M rely t p s τ r' s' := by
  generalize hq : p.attempt = q at h
  induction h generalizing p with
  | ret b s =>
    cases p with
    | ret a =>
      obtain rfl : Except.ok a = b := by simpa using hq
      exact ⟨_, rfl, .ret a s⟩
    | raise e =>
      obtain rfl : Except.error e = b := by simpa using hq
      exact ⟨_, rfl, .raise e s⟩
    | op c k => cases hq
  | raise e s => cases p <;> cases hq
  | other hrely hrest ih =>
    obtain ⟨r', rfl, hp⟩ := ih hq
    exact ⟨r', rfl, .other hrely hp⟩
  | op hstep hrest ih =>
    cases p with
    | ret a => cases hq
    | raise e => cases hq
    | op c k =>
      cases hq
      obtain ⟨r', rfl, hp⟩ := ih rfl
      exact ⟨r', rfl, .op hstep hp⟩

/-- An execution of a `try` statement: its body ends somehow, and then what follows runs. -/
theorem of_attempt_bind {p : Prog C ε α} {f : Except ε α → Prog C ε β} {r : Except ε β}
    (h : Runs M rely t (p.attempt >>= f) s τ r s') :
    ∃ r' s₁ τ₁ τ₂, τ = τ₁ ++ τ₂ ∧ Runs M rely t p s τ₁ r' s₁ ∧ Runs M rely t (f r') s₁ τ₂ r s' := by
  rcases h.of_bind with ⟨e, -, hattempt⟩ | ⟨a, s₁, τ₁, τ₂, rfl, hattempt, hf⟩
  · obtain ⟨r', hr', -⟩ := hattempt.of_attempt
    cases hr'
  · obtain ⟨r', hr', hp⟩ := hattempt.of_attempt
    obtain rfl := Except.ok.inj hr'
    exact ⟨a, s₁, τ₁, τ₂, rfl, hp, hf⟩

theorem result_of_ret {a : α} {r : Except ε α} (h : Runs M rely t (.ret a) s τ r s') : r = .ok a := by
  generalize hp : (Prog.ret a : Prog C ε α) = p at h
  induction h with
  | ret b s =>
    cases hp
    rfl
  | raise e s => cases hp
  | other hrely hrest ih => exact ih hp
  | op hstep hrest ih => cases hp

theorem result_of_raise {e : ε} {r : Except ε α} (h : Runs M rely t (.raise e) s τ r s') :
    r = .error e := by
  generalize hp : (Prog.raise e : Prog C ε α) = p at h
  induction h with
  | ret b s => cases hp
  | raise e s =>
    cases hp
    rfl
  | other hrely hrest ih => exact ih hp
  | op hstep hrest ih => cases hp

/-- The first command of a program, and what follows it. -/
theorem of_op {c : C β} {k : β → Prog C ε α} {r : Except ε α} (h : Runs M rely t (.op c k) s τ r s') :
    ∃ b s₁ s₂ τ₁ τ₂, τ = τ₁ ++ ⟨s₁, some ⟨c, b⟩, s₂⟩ :: τ₂ ∧ (b, s₂) ∈ M.step t c s₁ ∧
      Runs M rely t (k b) s₂ τ₂ r s' := by
  generalize hp : (Prog.op c k : Prog C ε α) = p at h
  induction h with
  | ret a s => cases hp
  | raise e s => cases hp
  | other hrely hrest ih =>
    obtain ⟨b, s₁, s₂, τ₁, τ₂, rfl, hstep, hk⟩ := ih hp
    exact ⟨b, s₁, s₂, _ :: τ₁, τ₂, rfl, hstep, hk⟩
  | op hstep hrest ih =>
    cases hp
    exact ⟨_, _, _, [], _, rfl, hstep, hrest⟩

/-- A call ends with what its command was answered. -/
theorem mem_of_call {c : C (Except ε β)} {r : Except ε β} (h : Runs M rely t (Prog.call c) s τ r s') :
    ∃ step ∈ τ, step.own = some ⟨c, r⟩ := by
  obtain ⟨b, s₁, s₂, τ₁, τ₂, rfl, -, hk⟩ := of_op h
  refine ⟨_, List.mem_append_right _ List.mem_cons_self, ?_⟩
  cases b with
  | ok a => rw [hk.result_of_ret]
  | error e => rw [hk.result_of_raise]

theorem mem_of_exec {c : C β} {r : Except ε β} (h : Runs M rely t (Prog.exec c) s τ r s') :
    ∃ b, r = .ok b ∧ ∃ step ∈ τ, step.own = some ⟨c, b⟩ := by
  obtain ⟨b, s₁, s₂, τ₁, τ₂, rfl, -, hk⟩ := of_op h
  exact ⟨b, hk.result_of_ret, _, List.mem_append_right _ List.mem_cons_self, rfl⟩

/-- An own step is a step of the machine. -/
theorem step_of_mem {p : Prog C ε α} {r : Except ε α} (h : Runs M rely t p s τ r s')
    {step : Transition C σ} (hstep : step ∈ τ) {event : Event C} (hevent : step.own = some event) :
    (event.answer, step.after) ∈ M.step t event.command step.before := by
  induction h with
  | ret a s => cases hstep
  | raise e s => cases hstep
  | other hrely hrest ih =>
    rcases List.mem_cons.mp hstep with rfl | hmem
    · cases hevent
    · exact ih hmem
  | op hcommand hrest ih =>
    rcases List.mem_cons.mp hstep with rfl | hmem
    · obtain rfl := Option.some.inj hevent
      exact hcommand
    · exact ih hmem

/-- Every own step of an execution is a command of the program. -/
theorem own_of_uses {S : ∀ {β : Type}, C β → Prop} {p : Prog C ε α} {r : Except ε α}
    (h : Runs M rely t p s τ r s') (hp : p.Uses S) {step : Transition C σ} (hstep : step ∈ τ)
    {event : Event C} (hevent : step.own = some event) : S event.command := by
  induction h with
  | ret a s => cases hstep
  | raise e s => cases hstep
  | other hrely hrest ih =>
    rcases List.mem_cons.mp hstep with rfl | hmem
    · cases hevent
    · exact ih hp hmem
  | op hcommand hrest ih =>
    rcases List.mem_cons.mp hstep with rfl | hmem
    · obtain rfl := Option.some.inj hevent
      exact hp.1
    · exact ih (hp.2 _) hmem

/-- The one own step of a call is its command, with the answer that the call ends with. -/
theorem own_of_call {c : C (Except ε β)} {r : Except ε β} (h : Runs M rely t (Prog.call c) s τ r s')
    {step : Transition C σ} (hstep : step ∈ τ) {event : Event C} (hevent : step.own = some event) :
    event = ⟨c, r⟩ := by
  generalize hp : (Prog.call c : Prog C ε β) = p at h
  induction h with
  | ret a s => cases hp
  | raise e s => cases hp
  | other hrely hrest ih =>
    rcases List.mem_cons.mp hstep with rfl | hmem
    · cases hevent
    · exact ih hmem hp
  | @op _ _ _ b _ _ _ _ r hcommand hrest ih =>
    cases hp
    have hresult : r = b := by
      cases b with
      | ok a => exact hrest.result_of_ret
      | error e => exact hrest.result_of_raise
    rcases List.mem_cons.mp hstep with rfl | hmem
    · obtain rfl := Option.some.inj hevent
      rw [hresult]
    · have hnone := hrest.own_of_uses (S := fun _ => False) (by cases b <;> trivial) hmem hevent
      exact hnone.elim

/-- What every step of an execution keeps, the execution keeps. -/
theorem preserves {S : ∀ {β : Type}, C β → Prop} {P : σ → Prop} {p : Prog C ε α} {r : Except ε α}
    (h : Runs M rely t p s τ r s') (hp : p.Uses S)
    (hown : ∀ {β : Type} (c : C β) b s s', S c → (b, s') ∈ M.step t c s → P s → P s')
    (hother : ∀ s s', rely s s' → P s → P s') (hs : P s) : P s' := by
  induction h with
  | ret a s => exact hs
  | raise e s => exact hs
  | other hrely hrest ih => exact ih hp (hother _ _ hrely hs)
  | op hstep hrest ih => exact ih (hp.2 _) (hown _ _ _ _ hp.1 hstep hs)

theorem mono {rely' : σ → σ → Prop} {p : Prog C ε α} {r : Except ε α} (h : Runs M rely t p s τ r s')
    (himp : ∀ s s', rely s s' → rely' s s') : Runs M rely' t p s τ r s' := by
  induction h with
  | ret a s => exact .ret a s
  | raise e s => exact .raise e s
  | other hrely hrest ih => exact .other (himp _ _ hrely) ih
  | op hstep hrest ih => exact .op hstep ih

/-- An invariant of every step may be relied on when the others take theirs. -/
theorem strengthen {I : σ → Prop} {p : Prog C ε α} {r : Except ε α} (h : Runs M rely t p s τ r s')
    (hown : ∀ {β : Type} (c : C β) b s s', (b, s') ∈ M.step t c s → I s → I s')
    (hother : ∀ s s', rely s s' → I s → I s') (hs : I s) :
    Runs M (fun s s' => rely s s' ∧ I s) t p s τ r s' := by
  induction h with
  | ret a s => exact .ret a s
  | raise e s => exact .raise e s
  | other hrely hrest ih => exact .other ⟨hrely, hs⟩ (ih (hother _ _ hrely hs))
  | op hstep hrest ih => exact .op hstep (ih (hown _ _ _ _ hstep hs))

/-- A relation that holds of every step, and composes, holds from the end of any step to the
end of the execution. -/
theorem evolves_of_mem {R : σ → σ → Prop} {p : Prog C ε α} {r : Except ε α}
    (h : Runs M rely t p s τ r s') (hrefl : ∀ s, R s s) (htrans : ∀ s₁ s₂ s₃, R s₁ s₂ → R s₂ s₃ → R s₁ s₃)
    (hown : ∀ {β : Type} (c : C β) b s s', (b, s') ∈ M.step t c s → R s s')
    (hother : ∀ s s', rely s s' → R s s') :
    R s s' ∧ ∀ step ∈ τ, R step.after s' := by
  induction h with
  | ret a s => exact ⟨hrefl s, by simp⟩
  | raise e s => exact ⟨hrefl s, by simp⟩
  | other hrely hrest ih =>
    exact ⟨htrans _ _ _ (hother _ _ hrely) ih.1, List.forall_mem_cons.mpr ih⟩
  | op hstep hrest ih =>
    exact ⟨htrans _ _ _ (hown _ _ _ _ hstep) ih.1, List.forall_mem_cons.mpr ih⟩

/-! ### A program that runs alone -/

/-- An execution of one command. -/
theorem of_exec {c : C β} {r : Except ε β} (h : Runs M Alone t (Prog.exec c) s τ r s') :
    ∃ b, r = .ok b ∧ τ = [⟨s, some ⟨c, b⟩, s'⟩] ∧ (b, s') ∈ M.step t c s := by
  cases h with
  | other hrely hrest => exact hrely.elim
  | op hstep hrest =>
    cases hrest with
    | ret _ _ => exact ⟨_, rfl, rfl, hstep⟩
    | other hrely hrest => exact hrely.elim

/-- An execution of one command that may raise. -/
theorem of_call {c : C (Except ε β)} {r : Except ε β} (h : Runs M Alone t (Prog.call c) s τ r s') :
    τ = [⟨s, some ⟨c, r⟩, s'⟩] ∧ (r, s') ∈ M.step t c s := by
  cases h with
  | other hrely hrest => exact hrely.elim
  | @op _ _ _ b _ _ _ _ _ hstep hrest =>
    cases b with
    | ok b =>
      cases hrest with
      | ret _ _ => exact ⟨rfl, hstep⟩
      | other hrely hrest => exact hrely.elim
    | error e =>
      cases hrest with
      | raise _ _ => exact ⟨rfl, hstep⟩
      | other hrely hrest => exact hrely.elim

/-- A command and a program whose exceptions are caught do not raise. -/
theorem ok_of_exec_attempt {c : C β} {p : Prog C ε α} {r : Except ε (Except ε α)}
    (h : Runs M Alone t (Prog.exec c >>= fun _ => p.attempt) s τ r s') : ∃ r', r = .ok r' := by
  rcases h.of_bind with ⟨e, rfl, hexec⟩ | ⟨b, s₁, τ₁, τ₂, rfl, -, hattempt⟩
  · obtain ⟨b, hb, -⟩ := hexec.of_exec
    cases hb
  · obtain ⟨r', rfl, -⟩ := hattempt.of_attempt
    exact ⟨r', rfl⟩

theorem of_ret {a : α} {r : Except ε α} (h : Runs M Alone t (.ret a) s τ r s') :
    r = .ok a ∧ τ = [] ∧ s' = s := by
  cases h with
  | ret _ _ => exact ⟨rfl, rfl, rfl⟩
  | other hrely hrest => exact hrely.elim

theorem of_raise {e : ε} {r : Except ε α} (h : Runs M Alone t (.raise e) s τ r s') :
    r = .error e ∧ τ = [] ∧ s' = s := by
  cases h with
  | raise _ _ => exact ⟨rfl, rfl, rfl⟩
  | other hrely hrest => exact hrely.elim

end Runs

/-! ## Assertions that the others leave alone -/

/-- The steps of the others keep the assertion. -/
def Stable (rely : σ → σ → Prop) (P : σ → Prop) : Prop := ∀ s s', rely s s' → P s → P s'

section Stable
variable {rely : σ → σ → Prop} {P Q : σ → Prop}

theorem stable_const (p : Prop) : Stable rely fun _ => p := fun _ _ _ h => h

theorem stable_and (hP : Stable rely P) (hQ : Stable rely Q) : Stable rely fun s => P s ∧ Q s :=
  fun s s' hrely h => ⟨hP s s' hrely h.1, hQ s s' hrely h.2⟩

theorem stable_or (hP : Stable rely P) (hQ : Stable rely Q) : Stable rely fun s => P s ∨ Q s :=
  fun s s' hrely h => h.imp (hP s s' hrely) (hQ s s' hrely)

theorem stable_imp {p : Prop} (hP : p → Stable rely P) : Stable rely fun s => p → P s :=
  fun s s' hrely h hp => hP hp s s' hrely (h hp)

theorem stable_exists {ι : Sort*} {P : ι → σ → Prop} (hP : ∀ i, Stable rely (P i)) :
    Stable rely fun s => ∃ i, P i s :=
  fun s s' hrely ⟨i, h⟩ => ⟨i, hP i s s' hrely h⟩

end Stable

/-- Every execution of the program from a state with `P` ends with `Q`. -/
def Ensures (M : Machine C σ) (rely : σ → σ → Prop) (t : Tid) (P : σ → Prop) (p : Prog C ε α)
    (Q : Except ε α → σ → Prop) : Prop :=
  ∀ s τ r s', P s → Runs M rely t p s τ r s' → Q r s'

namespace Ensures
variable {M : Machine C σ} {rely : σ → σ → Prop} {t : Tid} {P P' : σ → Prop}

theorem mono {p : Prog C ε α} {Q Q' : Except ε α → σ → Prop} (h : Ensures M rely t P p Q)
    (hP : ∀ s, P' s → P s) (hQ : ∀ r s, Q r s → Q' r s) : Ensures M rely t P' p Q' :=
  fun s τ r s' hs hruns => hQ r s' (h s τ r s' (hP s hs) hruns)

theorem bind {p : Prog C ε α} {f : α → Prog C ε β} {Q : Except ε α → σ → Prop}
    {Q' : Except ε β → σ → Prop} (hp : Ensures M rely t P p Q)
    (hraise : ∀ e s, Q (.error e) s → Q' (.error e) s)
    (hf : ∀ a, Ensures M rely t (Q (.ok a)) (f a) Q') : Ensures M rely t P (p >>= f) Q' := by
  intro s τ r s' hs hruns
  rcases hruns.of_bind with ⟨e, rfl, hp'⟩ | ⟨a, s₁, τ₁, τ₂, -, hp', hf'⟩
  · exact hraise e s' (hp s τ _ s' hs hp')
  · exact hf a s₁ τ₂ r s' (hp s τ₁ _ s₁ hs hp') hf'

/-- A `try` statement: what follows sees how its body ended. -/
theorem attempt_bind {p : Prog C ε α} {f : Except ε α → Prog C ε β} {Q : Except ε α → σ → Prop}
    {Q' : Except ε β → σ → Prop} (hp : Ensures M rely t P p Q)
    (hf : ∀ r, Ensures M rely t (Q r) (f r) Q') : Ensures M rely t P (p.attempt >>= f) Q' := by
  intro s τ r s' hs hruns
  obtain ⟨r', s₁, τ₁, τ₂, -, hp', hf'⟩ := hruns.of_attempt_bind
  exact hf r' s₁ τ₂ r s' (hp s τ₁ r' s₁ hs hp') hf'

theorem ret {a : α} {Q : Except ε α → σ → Prop} (hQ : Stable rely (Q (.ok a)))
    (h : ∀ s, P s → Q (.ok a) s) : Ensures M rely t P (.ret a) Q := by
  intro s τ r s' hs hruns
  suffices key : Q (.ok a) s → Q r s' from key (h s hs)
  clear hs
  generalize hp : (Prog.ret a : Prog C ε α) = p at hruns
  induction hruns with
  | ret b s =>
    cases hp
    exact id
  | raise e s => cases hp
  | other hrely hrest ih => exact fun hs => ih hp (hQ _ _ hrely hs)
  | op hstep hrest ih => cases hp

theorem raise {e : ε} {Q : Except ε α → σ → Prop} (hQ : Stable rely (Q (.error e)))
    (h : ∀ s, P s → Q (.error e) s) : Ensures M rely t P (.raise e) Q := by
  intro s τ r s' hs hruns
  suffices key : Q (.error e) s → Q r s' from key (h s hs)
  clear hs
  generalize hp : (Prog.raise e : Prog C ε α) = p at hruns
  induction hruns with
  | ret b s => cases hp
  | raise e s =>
    cases hp
    exact id
  | other hrely hrest ih => exact fun hs => ih hp (hQ _ _ hrely hs)
  | op hstep hrest ih => cases hp

theorem ofExcept {r : Except ε α} {Q : Except ε α → σ → Prop} (hQ : Stable rely (Q r))
    (h : ∀ s, P s → Q r s) : Ensures M rely t P (Prog.ofExcept r) Q := by
  cases r with
  | ok a => exact ret hQ h
  | error e => exact raise hQ h

/-- One command, and a continuation that answers for what it needs. -/
theorem op {c : C β} {k : β → Prog C ε α} {Q : β → σ → Prop} {Q' : Except ε α → σ → Prop}
    (hP : Stable rely P) (hstep : ∀ s b s', P s → (b, s') ∈ M.step t c s → Q b s')
    (hk : ∀ b, Ensures M rely t (Q b) (k b) Q') : Ensures M rely t P (.op c k) Q' := by
  intro s τ r s' hs hruns
  generalize hp : (Prog.op c k : Prog C ε α) = p at hruns
  induction hruns with
  | ret a s => cases hp
  | raise e s => cases hp
  | other hrely hrest ih => exact ih (hP _ _ hrely hs) hp
  | op hmem hrest ih =>
    cases hp
    exact hk _ _ _ _ _ (hstep _ _ _ hs hmem) hrest

theorem exec {c : C β} {Q : Except ε β → σ → Prop} (hP : Stable rely P)
    (hQ : ∀ b, Stable rely (Q (.ok b))) (hstep : ∀ s b s', P s → (b, s') ∈ M.step t c s → Q (.ok b) s') :
    Ensures M rely t P (Prog.exec c) Q :=
  op hP hstep fun b => ret (hQ b) fun _ hs => hs

theorem call {c : C (Except ε β)} {Q : Except ε β → σ → Prop} (hP : Stable rely P)
    (hQ : ∀ r, Stable rely (Q r)) (hstep : ∀ s r s', P s → (r, s') ∈ M.step t c s → Q r s') :
    Ensures M rely t P (Prog.call c) Q :=
  op hP hstep fun r => match r with
    | .ok _ => ret (hQ _) fun _ hs => hs
    | .error _ => raise (hQ _) fun _ hs => hs

/-- Two assertions about the same executions. -/
theorem and {p : Prog C ε α} {Q Q' : Except ε α → σ → Prop} (h : Ensures M rely t P p Q)
    (h' : Ensures M rely t P' p Q') :
    Ensures M rely t (fun s => P s ∧ P' s) p fun r s => Q r s ∧ Q' r s :=
  fun s τ r s' hs hruns => ⟨h s τ r s' hs.1 hruns, h' s τ r s' hs.2 hruns⟩

end Ensures

/-! ## Following a list of outcomes -/

namespace Machine
variable (M : Machine C σ)

/-- Run a program alone, its commands with the outcomes numbered in the list. -/
def follow (t : Tid) : Prog C ε α → List ℕ → σ → Option (List (Transition C σ) × Except ε α × σ)
  | .ret a, [], s => some ([], .ok a, s)
  | .raise e, [], s => some ([], .error e, s)
  | .op c k, n :: rest, s => (M.step t c s)[n]?.bind fun (b, s₁) =>
      (follow t (k b) rest s₁).map fun (τ, r, s') => (⟨s, some ⟨c, b⟩, s₁⟩ :: τ, r, s')
  | _, _, _ => none

end Machine

/-- What is followed is an execution. -/
theorem runs_of_follow {M : Machine C σ} {t : Tid} {p : Prog C ε α} {outcomes : List ℕ} {s s' : σ}
    {τ : List (Transition C σ)} {r : Except ε α} (h : M.follow t p outcomes s = some (τ, r, s')) :
    Runs M Alone t p s τ r s' := by
  induction p generalizing outcomes s τ with
  | ret a =>
    cases outcomes with
    | nil =>
      simp only [Machine.follow, Option.some.injEq, Prod.mk.injEq] at h
      obtain ⟨rfl, rfl, rfl⟩ := h
      exact .ret a s
    | cons n rest => simp [Machine.follow] at h
  | raise e =>
    cases outcomes with
    | nil =>
      simp only [Machine.follow, Option.some.injEq, Prod.mk.injEq] at h
      obtain ⟨rfl, rfl, rfl⟩ := h
      exact .raise e s
    | cons n rest => simp [Machine.follow] at h
  | op c k ih =>
    cases outcomes with
    | nil => simp [Machine.follow] at h
    | cons n rest =>
      simp only [Machine.follow, Option.bind_eq_some_iff, Option.map_eq_some_iff, Prod.mk.injEq] at h
      obtain ⟨⟨b, s₁⟩, hstep, ⟨τ', r', s''⟩, hrest, rfl, rfl, rfl⟩ := h
      exact .op (List.mem_of_getElem? hstep) (ih b hrest)

end CreativeStudio.Conc
