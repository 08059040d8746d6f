import CreativeStudio.Conc.Executions

/-!
# Traces of a program in an unknown environment

Nothing is assumed about the environment: a command may be answered with any value of its type. A
trace is the list of the commands with their answers. `follows_bind` and its companions say which
traces a composed program has; `Prog.run` computes the one trace that a given environment leads to.
-/

namespace CreativeStudio.Conc

variable {C : Type → Type} {ε α β γ : Type}

/-- The traces of a program, and how each of them ends. -/
inductive Follows : Prog C ε α → List (Event C) → Except ε α → Prop
  | ret (a : α) : Follows (.ret a) [] (.ok a)
  | raise (e : ε) : Follows (.raise e) [] (.error e)
  | op {β : Type} {c : C β} {k : β → Prog C ε α} (b : β) {τ : List (Event C)} {r : Except ε α}
      (hrest : Follows (k b) τ r) : Follows (.op c k) (⟨c, b⟩ :: τ) r

section
variable {τ : List (Event C)} {r : Except ε α}

@[simp] theorem follows_ret {a : α} : Follows (.ret a : Prog C ε α) τ r ↔ τ = [] ∧ r = .ok a := by
  constructor
  · intro h
    cases h
    exact ⟨rfl, rfl⟩
  · intro h
    rw [h.1, h.2]
    exact .ret a

@[simp] theorem follows_raise {e : ε} : Follows (.raise e : Prog C ε α) τ r ↔ τ = [] ∧ r = .error e := by
  constructor
  · intro h
    cases h
    exact ⟨rfl, rfl⟩
  · intro h
    rw [h.1, h.2]
    exact .raise e

@[simp] theorem follows_op {c : C β} {k : β → Prog C ε α} :
    Follows (.op c k) τ r ↔ ∃ b τ', τ = ⟨c, b⟩ :: τ' ∧ Follows (k b) τ' r := by
  constructor
  · intro h
    cases h with
    | op b hrest => exact ⟨b, _, rfl, hrest⟩
  · intro h
    rcases h with ⟨b, τ', hτ, hrest⟩
    rw [hτ]
    exact .op b hrest

theorem follows_exec {c : C α} : Follows (Prog.exec c : Prog C ε α) τ r ↔ ∃ a, τ = [⟨c, a⟩] ∧ r = .ok a := by
  simp only [Prog.exec, follows_op, follows_ret]
  constructor
  · intro h
    rcases h with ⟨a, τ', hτ, hτ', hr⟩
    exact ⟨a, hτ' ▸ hτ, hr⟩
  · intro h
    rcases h with ⟨a, hτ, hr⟩
    exact ⟨a, [], hτ, rfl, hr⟩

@[simp] theorem follows_ofExcept {x : Except ε α} :
    Follows (Prog.ofExcept x : Prog C ε α) τ r ↔ τ = [] ∧ r = x := by
  cases x with
  | ok a => exact follows_ret
  | error e => exact follows_raise

/-- A trace of a sequence: the first part raises, or it returns and the second part follows. -/
theorem follows_bind {p : Prog C ε β} {f : β → Prog C ε α} :
    Follows (p >>= f) τ r ↔ (∃ e, r = .error e ∧ Follows p τ (.error e)) ∨
      ∃ b τ₁ τ₂, τ = τ₁ ++ τ₂ ∧ Follows p τ₁ (.ok b) ∧ Follows (f b) τ₂ r := by
  induction p generalizing τ with
  | ret b =>
    rw [Prog.ret_bind]
    constructor
    · intro h
      exact .inr ⟨b, [], τ, rfl, .ret b, h⟩
    · intro h
      rcases h with ⟨e, -, h⟩ | ⟨b', τ₁, τ₂, hτ, hp, hf⟩
      · cases h
      · cases hp
        rwa [hτ]
  | raise e =>
    rw [Prog.raise_bind, follows_raise]
    constructor
    · intro h
      exact .inl ⟨e, h.2, h.1 ▸ .raise e⟩
    · intro h
      rcases h with ⟨e', hr, h⟩ | ⟨b, τ₁, τ₂, -, hp, -⟩
      · cases h
        exact ⟨rfl, hr⟩
      · cases hp
  | op c k ih =>
    rw [Prog.op_bind, follows_op]
    constructor
    · intro h
      rcases h with ⟨x, τ', hτ, h⟩
      rcases (ih x).1 h with ⟨e, hr, hp⟩ | ⟨b, τ₁, τ₂, hτ', hp, hf⟩
      · exact .inl ⟨e, hr, hτ ▸ .op x hp⟩
      · exact .inr ⟨b, _ :: τ₁, τ₂, by rw [hτ, hτ', List.cons_append], .op x hp, hf⟩
    · intro h
      rcases h with ⟨e, hr, hp⟩ | ⟨b, τ₁, τ₂, hτ, hp, hf⟩
      · cases hp with
        | op x hp => exact ⟨x, _, rfl, (ih x).2 (.inl ⟨e, hr, hp⟩)⟩
      · cases hp with
        | op x hp => exact ⟨x, _, hτ, (ih x).2 (.inr ⟨b, _, τ₂, rfl, hp, hf⟩)⟩

/-- Catching exceptions changes nothing but the way a trace ends. -/
theorem follows_attempt {p : Prog C ε β} {r : Except ε (Except ε β)} :
    Follows p.attempt τ r ↔ ∃ r', r = .ok r' ∧ Follows p τ r' := by
  induction p generalizing τ with
  | ret b =>
    rw [Prog.attempt_ret, follows_ret]
    constructor
    · intro h
      exact ⟨.ok b, h.2, h.1 ▸ .ret b⟩
    · intro h
      rcases h with ⟨r', hr, h⟩
      cases h
      exact ⟨rfl, hr⟩
  | raise e =>
    rw [Prog.attempt_raise, follows_ret]
    constructor
    · intro h
      exact ⟨.error e, h.2, h.1 ▸ .raise e⟩
    · intro h
      rcases h with ⟨r', hr, h⟩
      cases h
      exact ⟨rfl, hr⟩
  | op c k ih =>
    rw [Prog.attempt_op, follows_op]
    constructor
    · intro h
      rcases h with ⟨x, τ', hτ, h⟩
      rcases (ih x).1 h with ⟨r', hr, hp⟩
      exact ⟨r', hr, hτ ▸ .op x hp⟩
    · intro h
      rcases h with ⟨r', hr, h⟩
      cases h with
      | op x hp => exact ⟨x, _, rfl, (ih x).2 ⟨r', hr, hp⟩⟩

/-- A trace of a `try` statement: its body ends somehow, and then what follows runs. -/
theorem follows_attempt_bind {p : Prog C ε β} {f : Except ε β → Prog C ε α} :
    Follows (p.attempt >>= f) τ r ↔
      ∃ r' τ₁ τ₂, τ = τ₁ ++ τ₂ ∧ Follows p τ₁ r' ∧ Follows (f r') τ₂ r := by
  rw [follows_bind]
  constructor
  · intro h
    rcases h with ⟨e, -, h⟩ | ⟨r', τ₁, τ₂, hτ, h, hf⟩
    · rcases follows_attempt.1 h with ⟨r', hr', -⟩
      cases hr'
    · rcases follows_attempt.1 h with ⟨r'', hr', hp⟩
      cases hr'
      exact ⟨r', τ₁, τ₂, hτ, hp, hf⟩
  · intro h
    rcases h with ⟨r', τ₁, τ₂, hτ, hp, hf⟩
    exact .inr ⟨r', τ₁, τ₂, hτ, follows_attempt.2 ⟨r', rfl, hp⟩, hf⟩

end

namespace Prog

/-- `with acquire() as resource: body(resource)`: what was acquired is released on both exits, and
the release is told whether there is an exception. -/
def withResource (acquire : Prog C ε β) (release : Bool → C Unit) (body : β → Prog C ε α) : Prog C ε α := do
  let resource ← acquire
  let r ← (body resource).attempt
  exec (release !r.isOk)
  ofExcept r

/-- The trace that an environment leads to. It answers a command with the trace so far in view. -/
def run (answer : ∀ {β : Type}, List (Event C) → C β → β) :
    Prog C ε α → List (Event C) → List (Event C) × Except ε α
  | ret a, _ => ([], .ok a)
  | raise e, _ => ([], .error e)
  | op c k, past =>
    let b := answer past c
    let rest := run answer (k b) (past ++ [⟨c, b⟩])
    (⟨c, b⟩ :: rest.1, rest.2)

end Prog

/-- Every environment leads to an end. -/
theorem follows_run (answer : ∀ {β : Type}, List (Event C) → C β → β) (p : Prog C ε α) (past : List (Event C)) :
    Follows p (p.run answer past).1 (p.run answer past).2 := by
  induction p generalizing past with
  | ret a => exact .ret a
  | raise e => exact .raise e
  | op c k ih => exact .op _ (ih _ _)

/-- A trace of a `with` statement: nothing is acquired, or the body runs and then what was acquired
is released. -/
theorem follows_withResource {acquire : Prog C ε β} {release : Bool → C Unit} {body : β → Prog C ε α}
    {τ : List (Event C)} {r : Except ε α} :
    Follows (Prog.withResource acquire release body) τ r ↔
      (∃ e, r = .error e ∧ Follows acquire τ (.error e)) ∨
        ∃ resource τ₁ τ₂, τ = τ₁ ++ (τ₂ ++ [⟨release !r.isOk, ()⟩]) ∧
          Follows acquire τ₁ (.ok resource) ∧ Follows (body resource) τ₂ r := by
  rw [Prog.withResource, follows_bind]
  refine or_congr Iff.rfl ?_
  constructor
  · intro h
    rcases h with ⟨resource, τ₁, τ', hτ, hacquire, h⟩
    rcases follows_attempt_bind.1 h with ⟨r', τ₂, τ₃, hτ', hbody, h⟩
    rcases follows_bind.1 h with ⟨e, -, h⟩ | ⟨u, τ₄, τ₅, hτ₃, h, hend⟩
    · rcases follows_exec.1 h with ⟨u, -, hr⟩
      cases hr
    · rcases follows_exec.1 h with ⟨u', hτ₄, -⟩
      rcases follows_ofExcept.1 hend with ⟨hτ₅, hr⟩
      rw [hr]
      refine ⟨resource, τ₁, τ₂, ?_, hacquire, hbody⟩
      rw [hτ, hτ', hτ₃, hτ₄, hτ₅, List.append_nil]
  · intro h
    rcases h with ⟨resource, τ₁, τ₂, hτ, hacquire, hbody⟩
    refine ⟨resource, τ₁, _, hτ, hacquire, follows_attempt_bind.2 ⟨r, τ₂, _, rfl, hbody, ?_⟩⟩
    refine follows_bind.2 (.inr ⟨(), _, [], (List.append_nil _).symm, ?_, ?_⟩)
    · exact follows_exec.2 ⟨(), rfl, rfl⟩
    · exact follows_ofExcept.2 ⟨rfl, rfl⟩

/-! ## Events of a trace -/

/-- What every command of a program satisfies, every event of a trace does. -/
theorem Follows.forall_of_uses {S : ∀ {β : Type}, C β → Prop} {p : Prog C ε α} {τ : List (Event C)} {r : Except ε α}
    (h : Follows p τ r) (hp : p.Uses S) : ∀ event ∈ τ, S event.command := by
  induction h with
  | ret a => exact List.forall_mem_nil _
  | raise e => exact List.forall_mem_nil _
  | op b hrest ih => exact List.forall_mem_cons.2 ⟨hp.1, ih (hp.2 b)⟩

/-- At every event of a trace, `P` holds of what was before it, the event and what comes after it. -/
def AtEvery (P : List (Event C) → Event C → List (Event C) → Prop) (τ : List (Event C)) : Prop :=
  ∀ before event after, τ = before ++ event :: after → P before event after

section
variable {P : List (Event C) → Event C → List (Event C) → Prop} {event : Event C} {τ τ₁ τ₂ : List (Event C)}

@[simp] theorem atEvery_nil : AtEvery P ([] : List (Event C)) := by
  intro before event after h
  exact absurd h.symm (List.append_ne_nil_of_right_ne_nil _ (List.cons_ne_nil _ _))

theorem atEvery_cons : AtEvery P (event :: τ) ↔ P [] event τ ∧ AtEvery (fun before => P (event :: before)) τ := by
  constructor
  · intro h
    refine ⟨h [] event τ rfl, ?_⟩
    intro before event' after hτ
    exact h (event :: before) event' after (congrArg (List.cons event) hτ)
  · intro h before event' after hτ
    cases before with
    | nil =>
      cases hτ
      exact h.1
    | cons first before =>
      rw [List.cons_append, List.cons.injEq] at hτ
      rw [← hτ.1]
      exact h.2 before event' after hτ.2

theorem atEvery_append : AtEvery P (τ₁ ++ τ₂) ↔
    AtEvery (fun before event after => P before event (after ++ τ₂)) τ₁ ∧ AtEvery (fun before => P (τ₁ ++ before)) τ₂ := by
  induction τ₁ generalizing P with
  | nil => simp
  | cons event τ₁ ih => rw [List.cons_append, atEvery_cons, ih, atEvery_cons, and_assoc]; rfl

/-- It is enough to look at the events for themselves. -/
theorem atEvery_of_forall (h : ∀ event ∈ τ, ∀ before after, P before event after) : AtEvery P τ := by
  intro before event after hτ
  exact h event (hτ ▸ List.mem_append_right before List.mem_cons_self) before after

end
end CreativeStudio.Conc
