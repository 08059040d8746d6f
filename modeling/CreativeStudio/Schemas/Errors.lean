import CreativeStudio.Schemas.Generation

/-!
# Exceptions

The exceptions the program tells apart by type. A class of the source that is always
caught together with its subclasses is one constructor.
-/

namespace CreativeStudio

inductive Exc
  /-- `ValueError`, and `pydantic.ValidationError` with it. -/
  | value (message : String)
  /-- `JobRecordDecodeError`: the row's own content cannot be reconstructed. -/
  | decode (job : JobId)
  /-- `sqlite3.Error` and `OSError`: storage failed just now. -/
  | storage
  /-- `sqlite3.IntegrityError` on a primary key. -/
  | integrity
  /-- `UnsupportedReferenceError` and `MissingReferenceAssetError`. -/
  | reference (message : String)
  /-- `BatchStageMaterializationError`, with the batch it names. -/
  | stageMaterialization (batch : ℕ)
  /-- `GenerationCancelled`. -/
  | generationCancelled
  /-- `LookupError`. -/
  | lookup (message : String)
  /-- Any other exception. -/
  | other (message : String)
  deriving DecidableEq, Repr

/-- `str(exc)`. -/
def Exc.text : Exc → String
  | value message => message
  | decode job => s!"Job {job}'s persisted row could not be reconstructed"
  | storage => "storage failure"
  | integrity => "UNIQUE constraint failed: jobs.id"
  | reference message => message
  | stageMaterialization batch => s!"Batch {batch}: materializing its Job rows could not be confirmed"
  | generationCancelled => ""
  | lookup message => message
  | other message => message

/-! ## Computations that may raise -/

section
variable {ε α β : Type}

theorem ok_of_bind {x : Except ε α} {f : α → Except ε β} {b : β} (h : x.bind f = .ok b) :
    ∃ a, x = .ok a ∧ f a = .ok b := by
  cases x with
  | error e => cases h
  | ok a => exact ⟨a, rfl, h⟩

theorem bind_eq_ok {x : Except ε α} {f : α → Except ε β} {b : β} :
    x >>= f = .ok b ↔ ∃ a, x = .ok a ∧ f a = .ok b := by
  cases x <;> simp [Bind.bind, Except.bind]

theorem bind_pure_eq_ok {x : Except ε α} {f : α → β} {b : β} :
    (x >>= fun a => pure (f a)) = .ok b ↔ ∃ a, x = .ok a ∧ b = f a := by
  simp only [bind_eq_ok, pure, Except.pure, Except.ok.injEq, @eq_comm _ b]

theorem ok_of_map {x : Except ε α} {f : α → β} {b : β} (h : x.map f = .ok b) :
    ∃ a, x = .ok a ∧ f a = b := by
  cases x with
  | error e => cases h
  | ok a => exact ⟨a, rfl, Except.ok.inj h⟩

theorem error_of_bind {x : Except ε α} {f : α → Except ε β} {e : ε} (h : x.bind f = .error e) :
    x = .error e ∨ ∃ a, x = .ok a ∧ f a = .error e := by
  cases x with
  | error e' =>
    cases h
    exact .inl rfl
  | ok a => exact .inr ⟨a, rfl, h⟩

theorem ok_of_mapError {δ : Type} {x : Except ε α} {f : ε → δ} {a : α} (h : x.mapError f = .ok a) : x = .ok a := by
  cases x with
  | error e => cases h
  | ok b => exact congrArg Except.ok (Except.ok.inj h)

theorem ok_of_toOption {x : Except ε α} {a : α} (h : x.toOption = some a) : x = .ok a := by
  cases x with
  | error e => cases h
  | ok b => exact congrArg Except.ok (Option.some.inj h)

/-- A loop whose turns all return, returns. -/
theorem exists_foldlM_ok {f : α → β → Except ε α} {items : List β}
    (h : ∀ a, ∀ b ∈ items, ∃ a', f a b = .ok a') (a : α) : ∃ a', items.foldlM f a = .ok a' := by
  induction items generalizing a with
  | nil => exact ⟨a, rfl⟩
  | cons b rest ih =>
    obtain ⟨mid, hmid⟩ := h a b List.mem_cons_self
    obtain ⟨last, hlast⟩ := ih (fun a b hb => h a b (List.mem_cons_of_mem _ hb)) mid
    exact ⟨last, by rw [List.foldlM_cons, hmid]; exact hlast⟩

/-- What a turn that returns says of its item holds of every item of a loop that returns. -/
theorem forall_of_foldlM_ok {f : α → β → Except ε α} {p : β → Prop} {items : List β}
    (h : ∀ a, ∀ b ∈ items, ∀ a', f a b = .ok a' → p b) {a last : α} (hlast : items.foldlM f a = .ok last) :
    ∀ b ∈ items, p b := by
  induction items generalizing a with
  | nil => exact nofun
  | cons b rest ih =>
    obtain ⟨mid, hmid, hrest⟩ := ok_of_bind hlast
    exact List.forall_mem_cons.mpr
      ⟨h a b List.mem_cons_self mid hmid, ih (fun a b hb => h a b (List.mem_cons_of_mem _ hb)) hrest⟩

/-- A loop returns when every turn does, if that is up to the item alone. -/
theorem exists_foldlM_ok_iff {f : α → β → Except ε α} {p : β → Prop} {items : List β}
    (h : ∀ a, ∀ b ∈ items, (∃ a', f a b = .ok a') ↔ p b) (a : α) :
    (∃ a', items.foldlM f a = .ok a') ↔ ∀ b ∈ items, p b := by
  constructor
  · rintro ⟨last, hlast⟩
    exact forall_of_foldlM_ok (fun a b hb a' hstep => (h a b hb).mp ⟨a', hstep⟩) hlast
  · exact fun hp => exists_foldlM_ok (fun a b hb => (h a b hb).mpr (hp b hb)) a

/-- What mapping a function returns, it returned for each item. -/
theorem mapM_eq_ok_iff {f : β → Except ε α} {items : List β} {values : List α} :
    items.mapM f = .ok values ↔ List.Forall₂ (fun b a => f b = .ok a) items values := by
  induction items generalizing values with
  | nil => simp [pure, Except.pure, eq_comm]
  | cons b rest ih =>
    rw [List.mapM_cons, List.forall₂_cons_left_iff]
    constructor
    · intro h
      obtain ⟨a, ha, h⟩ := bind_eq_ok.mp h
      obtain ⟨others, hothers, h⟩ := bind_eq_ok.mp h
      exact ⟨a, others, ha, ih.mp hothers, (Except.ok.inj h).symm⟩
    · rintro ⟨a, others, ha, hothers, rfl⟩
      rw [ha, ih.mpr hothers]
      rfl

/-- Mapping a function returns when it does for every item. -/
theorem exists_mapM_ok_iff {f : β → Except ε α} {items : List β} :
    (∃ values, items.mapM f = .ok values) ↔ ∀ b ∈ items, ∃ a, f b = .ok a := by
  induction items with
  | nil => simp [pure, Except.pure]
  | cons b rest ih =>
    rw [List.mapM_cons, List.forall_mem_cons, ← ih]
    constructor
    · rintro ⟨values, h⟩
      obtain ⟨a, ha, h⟩ := bind_eq_ok.mp h
      obtain ⟨others, hothers, -⟩ := bind_eq_ok.mp h
      exact ⟨⟨a, ha⟩, others, hothers⟩
    · rintro ⟨⟨a, ha⟩, others, hothers⟩
      exact ⟨a :: others, by rw [ha, hothers]; rfl⟩

/-- A check of each item returns when every single check does. -/
theorem foldlM_check_ok {check : β → Except ε Unit} {items : List β} :
    items.foldlM (fun _ b => check b) () = .ok () ↔ ∀ b ∈ items, check b = .ok () := by
  induction items with
  | nil => simp [List.foldlM_nil, pure, Except.pure]
  | cons b rest ih =>
    rw [List.forall_mem_cons, ← ih]
    constructor
    · intro h
      obtain ⟨⟨⟩, hb, hrest⟩ := ok_of_bind h
      exact ⟨hb, hrest⟩
    · rintro ⟨hb, hrest⟩
      rw [List.foldlM_cons, hb]
      exact hrest

/-- Two computations raise the same, or return values that are related. -/
inductive Matched {γ : Type*} {δ : Type*} (R : γ → δ → Prop) : Except ε γ → Except ε δ → Prop
  | ok {c : γ} {d : δ} (h : R c d) : Matched R (.ok c) (.ok d)
  | error (e : ε) : Matched R (.error e) (.error e)

section Matched
universe u
variable {γ δ γ' δ' ι : Type u} {R : γ → δ → Prop} {R' : γ' → δ' → Prop}

theorem Matched.bind {x : Except ε γ} {y : Except ε δ} {f : γ → Except ε γ'} {g : δ → Except ε δ'}
    (h : Matched R x y) (hf : ∀ c d, R c d → Matched R' (f c) (g d)) : Matched R' (x >>= f) (y >>= g) := by
  cases h with
  | ok h => exact hf _ _ h
  | error e => exact .error e

theorem Matched.map {x : Except ε γ} {y : Except ε δ} {f : γ → γ'} {g : δ → δ'}
    (h : Matched R x y) (hf : ∀ c d, R c d → R' (f c) (g d)) : Matched R' (x.map f) (y.map g) := by
  cases h with
  | ok h => exact .ok (hf _ _ h)
  | error e => exact .error e

theorem Matched.foldlM {f : γ → ι → Except ε γ} {g : δ → ι → Except ε δ}
    (hstep : ∀ c d i, R c d → Matched R (f c i) (g d i)) (items : List ι) {c : γ} {d : δ} (h : R c d) :
    Matched R (items.foldlM f c) (items.foldlM g d) := by
  induction items generalizing c d with
  | nil => exact .ok h
  | cons i rest ih => exact (hstep c d i h).bind fun _ _ => ih

theorem Matched.exists_ok {c : γ} {y : Except ε δ} (h : Matched R (.ok c) y) : ∃ d, y = .ok d ∧ R c d := by
  cases h with
  | ok h => exact ⟨_, rfl, h⟩

end Matched

end

end CreativeStudio
