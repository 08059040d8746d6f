import Mathlib.Logic.Function.Basic
import Mathlib.Logic.Relation
import Mathlib.Data.List.Basic

/-!
# Programs of one thread over a signature of atomic commands

A program is a tree of atomic commands. `C β` is the type of commands that answer
with a `β`; the machine says what one command does to the shared state, and lists
every outcome it can have. An empty list means that the command is not enabled, so
the thread waits; several outcomes stand for a choice of the environment, such as a
storage call that may raise.

Programs raise and catch exceptions, and `attempt` is the one primitive that every
`try` statement of a source language is written with.
-/

namespace CreativeStudio.Conc

/-- Threads are numbered. -/
abbrev Tid := ℕ

/-- A program of one thread: return, raise, or execute one atomic command and
continue with its answer. -/
inductive Prog (C : Type → Type) (ε α : Type) : Type 1
  | ret (a : α)
  | raise (e : ε)
  | op {β : Type} (c : C β) (k : β → Prog C ε α)

namespace Prog
variable {C : Type → Type} {ε α β γ : Type}

/-- Sequencing; an exception skips the continuation. -/
def bind : Prog C ε α → (α → Prog C ε β) → Prog C ε β
  | ret a, f => f a
  | raise e, _ => raise e
  | op c k, f => op c fun b => bind (k b) f

instance : Monad (Prog C ε) where
  pure := ret
  bind := bind

@[simp] theorem pure_eq (a : α) : (pure a : Prog C ε α) = ret a := rfl
@[simp] theorem ret_bind (a : α) (f : α → Prog C ε β) : (ret a >>= f) = f a := rfl
@[simp] theorem raise_bind (e : ε) (f : α → Prog C ε β) : (raise e >>= f) = raise e := rfl
@[simp] theorem op_bind (c : C γ) (k : γ → Prog C ε α) (f : α → Prog C ε β) :
    (op c k >>= f) = op c fun b => k b >>= f := rfl

theorem bind_ret (p : Prog C ε α) : (p >>= ret) = p := by
  induction p with
  | ret a => rfl
  | raise e => rfl
  | op c k ih => simp only [op_bind, ih]

theorem bind_assoc (p : Prog C ε α) (f : α → Prog C ε β) (g : β → Prog C ε γ) :
    ((p >>= f) >>= g) = (p >>= fun a => f a >>= g) := by
  induction p with
  | ret a => rfl
  | raise e => rfl
  | op c k ih => simp only [op_bind, ih]

instance : LawfulMonad (Prog C ε) :=
  LawfulMonad.mk' _ (fun p => bind_ret p) (fun _ _ => rfl) (fun p f g => bind_assoc p f g)

/-- Execute one command and return its answer. -/
def exec (c : C β) : Prog C ε β := op c ret

/-- Execute one command that answers with a value or an exception, and raise the
exception. -/
def call (c : C (Except ε β)) : Prog C ε β := op c fun
  | .ok b => ret b
  | .error e => raise e

/-- Run a program to its end and hand its exception over as a value. -/
def attempt : Prog C ε α → Prog C ε (Except ε α)
  | ret a => ret (.ok a)
  | raise e => ret (.error e)
  | op c k => op c fun b => (k b).attempt

@[simp] theorem attempt_ret (a : α) : (ret a : Prog C ε α).attempt = ret (.ok a) := rfl
@[simp] theorem attempt_raise (e : ε) : (raise e : Prog C ε α).attempt = ret (.error e) := rfl
@[simp] theorem attempt_op (c : C β) (k : β → Prog C ε α) :
    (op c k).attempt = op c fun b => (k b).attempt := rfl

/-- Re-raise a result that `attempt` captured. -/
def ofExcept : Except ε α → Prog C ε α
  | .ok a => ret a
  | .error e => raise e

/-- `try: p except e: h e`. -/
def orElse (p : Prog C ε α) (h : ε → Prog C ε α) : Prog C ε α := do
  match ← p.attempt with
  | .ok a => ret a
  | .error e => h e

/-- `try: p finally: f`; the finalizer runs on both exits. -/
def andFinally (p : Prog C ε α) (f : Prog C ε Unit) : Prog C ε α := do
  let r ← p.attempt
  f
  ofExcept r

/-- `try: p except e: f; raise e`; the clean-up runs on the exceptional exit only. -/
def onRaise (p : Prog C ε α) (f : Prog C ε Unit) : Prog C ε α := do
  match ← p.attempt with
  | .ok a => ret a
  | .error e => do f; raise e

/-- Exceptions of the source language are those of the program. -/
instance : MonadExceptOf ε (Prog C ε) where
  throw := raise
  tryCatch := orElse

@[simp] theorem throw_eq (e : ε) : (throw e : Prog C ε α) = raise e := rfl

/-- A value that the program may return. -/
def Returns : Prog C ε α → α → Prop
  | ret a, b => a = b
  | raise _, _ => False
  | op _ k, b => ∃ x, Returns (k x) b

section Returns

@[simp] theorem returns_ret (a b : α) : (ret a : Prog C ε α).Returns b ↔ a = b := Iff.rfl
@[simp] theorem returns_raise (e : ε) (b : α) : (raise e : Prog C ε α).Returns b ↔ False := Iff.rfl
@[simp] theorem returns_op (c : C β) (k : β → Prog C ε α) (b : α) :
    (op c k).Returns b ↔ ∃ x, (k x).Returns b := Iff.rfl

@[simp] theorem returns_bind (p : Prog C ε α) (f : α → Prog C ε β) (b : β) :
    (p >>= f).Returns b ↔ ∃ a, p.Returns a ∧ (f a).Returns b := by
  induction p with
  | ret a => simp
  | raise e => simp
  | op c k ih =>
    simp only [op_bind, returns_op, ih]
    exact ⟨fun ⟨x, a, ha, hb⟩ => ⟨a, ⟨x, ha⟩, hb⟩, fun ⟨a, ⟨x, ha⟩, hb⟩ => ⟨x, a, ha, hb⟩⟩

@[simp] theorem returns_ite {c : Prop} [Decidable c] (p q : Prog C ε α) (b : α) :
    (if c then p else q).Returns b ↔ if c then p.Returns b else q.Returns b := by
  split <;> rfl

end Returns

/-- Every command of the program satisfies `S`. -/
def Uses (S : ∀ {β : Type}, C β → Prop) : Prog C ε α → Prop
  | ret _ => True
  | raise _ => True
  | op c k => S c ∧ ∀ b, Uses S (k b)

section Uses
variable {S : ∀ {β : Type}, C β → Prop}

@[simp] theorem uses_ret (a : α) : (ret a : Prog C ε α).Uses S := trivial
@[simp] theorem uses_raise (e : ε) : (raise e : Prog C ε α).Uses S := trivial
@[simp] theorem uses_op (c : C β) (k : β → Prog C ε α) :
    (op c k).Uses S ↔ S c ∧ ∀ b, (k b).Uses S := Iff.rfl

/-- The continuation is only looked at where it can be reached. -/
theorem uses_bind (p : Prog C ε α) (f : α → Prog C ε β) :
    (p >>= f).Uses S ↔ p.Uses S ∧ ∀ a, p.Returns a → (f a).Uses S := by
  induction p with
  | ret a => simp [Returns]
  | raise e => simp [Returns]
  | op c k ih =>
    simp only [op_bind, uses_op, ih, Returns]
    constructor
    · rintro ⟨hc, h⟩
      exact ⟨⟨hc, fun x => (h x).1⟩, fun a ⟨x, hx⟩ => (h x).2 a hx⟩
    · rintro ⟨⟨hc, hk⟩, h⟩
      exact ⟨hc, fun x => ⟨hk x, fun a hx => h a ⟨x, hx⟩⟩⟩

theorem uses_attempt (p : Prog C ε α) : p.attempt.Uses S ↔ p.Uses S := by
  induction p with
  | ret a => simp
  | raise e => simp
  | op c k ih => simp only [attempt_op, uses_op, ih]

theorem uses_exec (c : C β) : (exec c : Prog C ε β).Uses S ↔ S c := by simp [exec]

theorem uses_call (c : C (Except ε β)) : (call c).Uses S ↔ S c := by
  simp only [call, uses_op, and_iff_left_iff_imp]
  rintro - (e | b) <;> trivial

theorem uses_ofExcept (r : Except ε α) : (ofExcept r : Prog C ε α).Uses S := by
  cases r <;> trivial

end Uses
end Prog

/-- What the atomic commands do: every outcome of thread `t` executing a command in
a state. No outcome means that the thread has to wait. -/
structure Machine (C : Type → Type) (σ : Type*) where
  step : ∀ {β : Type}, Tid → C β → σ → List (β × σ)

end CreativeStudio.Conc
