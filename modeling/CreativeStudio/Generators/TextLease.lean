import CreativeStudio.Generators.TextGenerator

/-!
# What the text generator does under the lease and after it

The traces of the generator in an environment that may answer anything. `LeaseRun` lists what can
happen while the runtime is leased: up to two calls, and a question before, between and after them
whether the job is cancelled.
-/

namespace CreativeStudio.Generators
open Conc Data Story

/-- A command of the generator with its answer. -/
abbrev TextEvent := Event TextCmd

section
variable {lib : WriterLibrary} {generator : TextGenerator} {request : TextRequest} {plan : TextPlan} {observed : Bool}
  {runtime : TextRuntime} {τ : List TextEvent}

/-! ## Single commands -/

theorem follows_lift {α : Type} {x : Except Exc α} {r : Except TextExc α} :
    Follows (lift x) τ r ↔ τ = [] ∧ r = x.mapError .other := follows_ofExcept

theorem follows_ask {α : Type} {c : TextCmd (Except Exc α)} {r : Except TextExc α} :
    Follows (ask c) τ r ↔ ∃ a : Except Exc α, τ = [⟨c, a⟩] ∧ r = a.mapError .other := by
  rw [ask, follows_bind]
  constructor
  · intro h
    rcases h with ⟨e, -, h⟩ | ⟨a, τ₁, τ₂, hτ, hexec, hlift⟩
    · rcases follows_exec.1 h with ⟨a, -, ha⟩
      cases ha
    · rcases follows_exec.1 hexec with ⟨a', hτ₁, ha⟩
      cases ha
      rcases follows_lift.1 hlift with ⟨hτ₂, hr⟩
      exact ⟨a, by rw [hτ, hτ₁, hτ₂, List.append_nil], hr⟩
  · intro h
    rcases h with ⟨a, hτ, hr⟩
    exact .inr ⟨a, τ, [], (List.append_nil τ).symm, follows_exec.2 ⟨a, hτ, rfl⟩, follows_lift.2 ⟨rfl, hr⟩⟩

/-- The question whether the job is cancelled, if there is anyone to ask, and what it comes to. -/
def Probed (observed : Bool) (τ : List TextEvent) (stop : Bool × Option Exc) : Prop :=
  if observed then ∃ answer, τ = [⟨.isCancelled, answer⟩] ∧ stop = Audio.safeIsCancelled (some answer)
  else τ = [] ∧ stop = (false, none)

theorem follows_probe {r : Except TextExc (Bool × Option Exc)} :
    Follows (probe observed) τ r ↔ ∃ stop, r = .ok stop ∧ Probed observed τ stop := by
  cases observed with
  | false =>
    have hprobe : probe false = Prog.ret (false, none) := rfl
    rw [hprobe, follows_ret]
    constructor
    · intro h
      exact ⟨_, h.2, h.1, rfl⟩
    · intro h
      rcases h with ⟨stop, hr, hτ, hstop⟩
      exact ⟨hτ, hstop ▸ hr⟩
  | true =>
    have hprobe : probe true = Prog.op .isCancelled fun answer => .ret (Audio.safeIsCancelled (some answer)) := rfl
    rw [hprobe, follows_op]
    constructor
    · intro h
      rcases h with ⟨answer, τ', hτ, h⟩
      rcases follows_ret.1 h with ⟨hτ', hr⟩
      exact ⟨_, hr, answer, hτ' ▸ hτ, rfl⟩
    · intro h
      rcases h with ⟨stop, hr, answer, hτ, hstop⟩
      exact ⟨answer, [], hτ, follows_ret.2 ⟨rfl, hstop ▸ hr⟩⟩

/-! ## The attempts -/

/-- What a stop between the attempts is signalled as. -/
def stopSignal (rawText : Text) (attempts : ℕ) : Bool × Option Exc → TextExc
  | (_, some e) => .structuredProbeError e
  | (_, none) => .structuredCancelled rawText attempts

/-- The event of one call. -/
def called (request : TextRequest) (plan : TextPlan) (runtime : TextRuntime) (prompt : Text) (answer : Except Exc Text) :
    TextEvent := ⟨.generateText (callOf request plan runtime prompt), answer⟩

/-- One attempt: the call raises, its answer is accepted, or it is refused, and then the question is
asked after the first one. -/
theorem follows_attemptStructured {attempt : ℕ} {attempts : List ℕ} {prompt rawText : Text} {lastError : String}
    {r : Except TextExc StructuredAnswer}
    (h : Follows (attemptStructured lib request plan observed runtime (attempt :: attempts) prompt lastError rawText) τ r) :
    (∃ e, τ = [called request plan runtime prompt (.error e)] ∧ r = .error (.other e)) ∨
      (∃ raw structured, τ = [called request plan runtime prompt (.ok raw)] ∧
        acceptAnswer lib plan.task raw = .ok structured ∧ r = .ok ⟨structured, raw, attempt⟩) ∨
      ∃ raw e asked rest stop, τ = called request plan runtime prompt (.ok raw) :: (asked ++ rest) ∧
        acceptAnswer lib plan.task raw = .error e ∧ Probed (attempt = 1 ∧ observed) asked stop ∧
        (stop ≠ (false, none) → rest = [] ∧ r = .error (stopSignal raw attempt stop)) ∧
        (stop = (false, none) → Follows (attemptStructured lib request plan observed runtime attempts
          (repairPrompt plan.prompt raw e.text) e.text raw) rest r) := by
  rw [attemptStructured] at h
  rcases follows_bind.1 h with ⟨e, hr, hask⟩ | ⟨raw, τ₁, τ₂, hτ, hask, hrest⟩
  · rcases follows_ask.1 hask with ⟨answer, hτ, hanswer⟩
    cases answer with
    | ok raw => cases hanswer
    | error e' =>
      cases hanswer
      exact .inl ⟨e', hτ, hr⟩
  · rcases follows_ask.1 hask with ⟨answer, hτ₁, hanswer⟩
    cases answer with
    | error e' => cases hanswer
    | ok raw' =>
      cases hanswer
      cases haccept : acceptAnswer lib plan.task raw with
      | ok structured =>
        rw [haccept] at hrest
        rcases follows_ret.1 hrest with ⟨hτ₂, hr⟩
        exact .inr (.inl ⟨raw, structured, by rw [hτ, hτ₁, hτ₂]; rfl, haccept, hr⟩)
      | error e =>
        rw [haccept] at hrest
        dsimp only at hrest
        by_cases hask : attempt = 1 ∧ observed
        · rw [if_pos hask] at hrest
          rcases follows_bind.1 hrest with ⟨e', -, hprobe⟩ | ⟨stop, asked, rest, hτ₂, hprobe, hrest⟩
          · rcases follows_probe.1 hprobe with ⟨stop, hstop, -⟩
            cases hstop
          · rcases follows_probe.1 hprobe with ⟨stop', hstop, hprobed⟩
            cases hstop
            refine .inr (.inr ⟨raw, e, asked, rest, stop, by rw [hτ, hτ₁, hτ₂]; rfl, haccept, ?_, ?_, ?_⟩)
            · rw [hask.2] at hprobed
              simpa [hask] using hprobed
            · intro hne
              rcases stop with ⟨_ | _, _ | probeError⟩
              · exact absurd rfl hne
              · exact follows_raise.1 hrest
              · exact follows_raise.1 hrest
              · exact follows_raise.1 hrest
            · intro heq
              subst heq
              exact hrest
        · rw [if_neg hask] at hrest
          refine .inr (.inr ⟨raw, e, [], τ₂, (false, none), by rw [hτ, hτ₁]; rfl, haccept, ?_, ?_, ?_⟩)
          · simp [Probed, hask]
          · intro hne
            exact absurd rfl hne
          · intro _
            exact hrest

/-! ## The lease -/

/-- What can happen under the lease, and what it leaves behind. -/
inductive LeaseRun (lib : WriterLibrary) (request : TextRequest) (plan : TextPlan) (observed : Bool)
    (runtime : TextRuntime) : List TextEvent → Except TextExc (TextRuntime × TextOutcome) → Prop
  /-- The runtime cannot be called. -/
  | noGenerate (h : runtime.hasGenerate = false) :
      LeaseRun lib request plan observed runtime [] (.error (.other (.other "'generate'")))
  /-- The job is stopped before the first call. -/
  | notStarted {asked : List TextEvent} {stop : Bool × Option Exc} (hasked : Probed observed asked stop)
      (hstop : stop ≠ (false, none)) (h : runtime.hasGenerate) :
      LeaseRun lib request plan observed runtime asked (.ok (runtime, .notStarted stop))
  /-- The first call raises. -/
  | firstRaised {asked : List TextEvent} {e : Exc} (hasked : Probed observed asked (false, none))
      (h : runtime.hasGenerate) : LeaseRun lib request plan observed runtime
        (asked ++ [called request plan runtime plan.prompt (.error e)]) (.error (.other e))
  /-- The first answer is accepted. -/
  | firstAccepted {asked late : List TextEvent} {raw : Text} {structured : Dict Value} {stop : Bool × Option Exc}
      (hasked : Probed observed asked (false, none)) (haccept : acceptAnswer lib plan.task raw = .ok structured)
      (hlate : Probed observed late stop) (h : runtime.hasGenerate) : LeaseRun lib request plan observed runtime
        (asked ++ called request plan runtime plan.prompt (.ok raw) :: late)
        (.ok (runtime, .answered ⟨structured, raw, 1⟩ stop))
  /-- The job is stopped between the calls. -/
  | stopped {asked between : List TextEvent} {raw : Text} {e : Exc} {stop : Bool × Option Exc}
      (hasked : Probed observed asked (false, none)) (hrefuse : acceptAnswer lib plan.task raw = .error e)
      (hbetween : Probed observed between stop) (hstop : stop ≠ (false, none)) (h : runtime.hasGenerate) :
      LeaseRun lib request plan observed runtime (asked ++ called request plan runtime plan.prompt (.ok raw) :: between)
        (.ok (runtime, .stopped stop))
  /-- The second call raises. -/
  | secondRaised {asked between : List TextEvent} {raw : Text} {e e' : Exc} (hasked : Probed observed asked (false, none))
      (hrefuse : acceptAnswer lib plan.task raw = .error e) (hbetween : Probed observed between (false, none))
      (h : runtime.hasGenerate) : LeaseRun lib request plan observed runtime
        (asked ++ called request plan runtime plan.prompt (.ok raw) :: (between ++
          [called request plan runtime (repairPrompt plan.prompt raw e.text) (.error e')])) (.error (.other e'))
  /-- The second answer is accepted. -/
  | secondAccepted {asked between late : List TextEvent} {raw raw' : Text} {e : Exc} {structured : Dict Value}
      {stop : Bool × Option Exc} (hasked : Probed observed asked (false, none))
      (hrefuse : acceptAnswer lib plan.task raw = .error e) (hbetween : Probed observed between (false, none))
      (haccept : acceptAnswer lib plan.task raw' = .ok structured) (hlate : Probed observed late stop)
      (h : runtime.hasGenerate) : LeaseRun lib request plan observed runtime
        (asked ++ called request plan runtime plan.prompt (.ok raw) :: (between ++
          called request plan runtime (repairPrompt plan.prompt raw e.text) (.ok raw') :: late))
        (.ok (runtime, .answered ⟨structured, raw', 2⟩ stop))
  /-- Both answers are refused. -/
  | rejected {asked between late : List TextEvent} {raw raw' : Text} {e e' : Exc} {stop : Bool × Option Exc}
      (hasked : Probed observed asked (false, none)) (hrefuse : acceptAnswer lib plan.task raw = .error e)
      (hbetween : Probed observed between (false, none)) (hrefuse' : acceptAnswer lib plan.task raw' = .error e')
      (hlate : Probed observed late stop) (h : runtime.hasGenerate) : LeaseRun lib request plan observed runtime
        (asked ++ called request plan runtime plan.prompt (.ok raw) :: (between ++
          called request plan runtime (repairPrompt plan.prompt raw e.text) (.ok raw') :: late))
        (.ok (runtime, .rejected raw' e'.text stop))

theorem follows_probe_map {α : Type} {f : Bool × Option Exc → α} {r : Except TextExc α} :
    Follows (do return f (← probe observed)) τ r ↔ ∃ stop, Probed observed τ stop ∧ r = .ok (f stop) := by
  rw [follows_bind]
  constructor
  · intro h
    rcases h with ⟨e, -, h⟩ | ⟨stop, τ₁, τ₂, hτ, hprobe, hret⟩
    · rcases follows_probe.1 h with ⟨stop, hstop, -⟩
      cases hstop
    · rcases follows_probe.1 hprobe with ⟨stop', hstop, hprobed⟩
      cases hstop
      rcases follows_ret.1 hret with ⟨hτ₂, hr⟩
      rw [hτ₂, List.append_nil] at hτ
      exact ⟨stop, hτ ▸ hprobed, hr⟩
  · intro h
    rcases h with ⟨stop, hprobed, hr⟩
    exact .inr ⟨stop, τ, [], (List.append_nil τ).symm, follows_probe.2 ⟨stop, rfl, hprobed⟩, follows_ret.2 ⟨rfl, hr⟩⟩

/-- A stop is the job being cancelled, or a question that raised. -/
theorem Probed.cases {asked : List TextEvent} {stop : Bool × Option Exc} (h : Probed observed asked stop) :
    stop = (false, none) ∨ stop = (true, none) ∨ ∃ e, stop = (false, some e) := by
  unfold Probed at h
  split at h
  · rcases h with ⟨answer, -, hstop⟩
    rcases answer with e | _ | _
    · exact .inr (.inr ⟨e, hstop⟩)
    · exact .inl hstop
    · exact .inr (.inl hstop)
  · exact .inl h.2

theorem Probed.of_and {p : Prop} [Decidable p] {asked : List TextEvent} {stop : Bool × Option Exc}
    (h : Probed (decide (p ∧ observed = true)) asked stop) (hp : p) : Probed observed asked stop := by
  have hsame : decide (p ∧ observed = true) = observed := by simp [hp]
  rwa [hsame] at h

/-- The traces of the body of the lease. -/
theorem leaseRun_of_follows {r : Except TextExc (TextRuntime × TextOutcome)}
    (h : Follows (leaseText lib request plan observed runtime) τ r) : LeaseRun lib request plan observed runtime τ r := by
  rw [leaseText] at h
  by_cases hgenerate : runtime.hasGenerate
  swap
  · rw [if_pos (by simpa using hgenerate)] at h
    rcases follows_raise.1 h with ⟨hτ, hr⟩
    rw [hτ, hr]
    exact .noGenerate (by simpa using hgenerate)
  rw [if_neg (by simpa using hgenerate)] at h
  rcases follows_bind.1 h with ⟨e, -, hprobe⟩ | ⟨stop, asked, rest, hτ, hprobe, hrest⟩
  · rcases follows_probe.1 hprobe with ⟨stop, hstop, -⟩
    cases hstop
  rcases follows_probe.1 hprobe with ⟨stop', hstop, hasked⟩
  cases hstop
  rcases hasked.cases with rfl | rfl | ⟨e, rfl⟩
  swap
  · rcases follows_ret.1 hrest with ⟨hrest, hr⟩
    rw [hτ, hrest, List.append_nil, hr]
    exact .notStarted hasked (by simp) hgenerate
  swap
  · rcases follows_ret.1 hrest with ⟨hrest, hr⟩
    rw [hτ, hrest, List.append_nil, hr]
    exact .notStarted hasked (by simp) hgenerate
  rcases follows_attempt_bind.1 hrest with ⟨r', τ₁, τ₂, hrest, hattempts, hconclude⟩
  rw [hτ, hrest]
  rcases follows_attemptStructured hattempts with ⟨e, hτ₁, hr'⟩ | ⟨raw, structured, hτ₁, haccept, hr'⟩ |
    ⟨raw, e, between, later, stop, hτ₁, hrefuse, hbetween, hstopped, hgoOn⟩
  · -- The first call raises.
    subst hr'
    rcases follows_raise.1 hconclude with ⟨hτ₂, hr⟩
    rw [hτ₁, hτ₂, hr, List.append_nil]
    exact .firstRaised hasked hgenerate
  · -- The first answer is accepted.
    subst hr'
    rcases follows_probe_map.1 hconclude with ⟨stop, hlate, hr⟩
    rw [hτ₁, hr]
    exact .firstAccepted hasked haccept hlate hgenerate
  have hbetween := hbetween.of_and rfl
  by_cases hclear : stop = (false, none)
  swap
  · -- The job is stopped between the calls.
    rcases hstopped hclear with ⟨hlater, hr'⟩
    subst hr'
    rcases hbetween.cases with rfl | rfl | ⟨probeError, rfl⟩
    · exact absurd rfl hclear
    · rcases follows_ret.1 hconclude with ⟨hτ₂, hr⟩
      rw [hτ₁, hlater, hτ₂, hr, List.append_nil, List.append_nil]
      exact .stopped hasked hrefuse hbetween hclear hgenerate
    · rcases follows_ret.1 hconclude with ⟨hτ₂, hr⟩
      rw [hτ₁, hlater, hτ₂, hr, List.append_nil, List.append_nil]
      exact .stopped hasked hrefuse hbetween hclear hgenerate
  subst hclear
  rcases follows_attemptStructured (hgoOn rfl) with ⟨e', hlater, hr'⟩ | ⟨raw', structured, hlater, haccept, hr'⟩ |
    ⟨raw', e', asked', last, stop', hlater, hrefuse', hasked', -, hgiveUp⟩
  · -- The second call raises.
    subst hr'
    rcases follows_raise.1 hconclude with ⟨hτ₂, hr⟩
    rw [hτ₁, hlater, hτ₂, hr, List.append_nil]
    exact .secondRaised hasked hrefuse hbetween hgenerate
  · -- The second answer is accepted.
    subst hr'
    rcases follows_probe_map.1 hconclude with ⟨stop, hlate, hr⟩
    rw [hτ₁, hlater, hr, List.cons_append, List.append_assoc]
    exact .secondAccepted hasked hrefuse hbetween haccept hlate hgenerate
  · -- Both answers are refused. Nobody is asked after the second attempt.
    have hnobody : asked' = [] ∧ stop' = (false, none) := by simpa [Probed] using hasked'
    rcases hnobody with ⟨rfl, rfl⟩
    rcases follows_raise.1 (hgiveUp rfl) with ⟨hlast, hr'⟩
    subst hr'
    rcases follows_probe_map.1 hconclude with ⟨stop, hlate, hr⟩
    rw [hτ₁, hlater, hlast, hr, List.cons_append, List.append_assoc]
    exact .rejected hasked hrefuse hbetween hrefuse' hlate hgenerate

end

/-! ## Events -/

/-- Where a command belongs: it takes the lease, it is for under the lease, it returns the lease, or it
is for before and after it. -/
inductive Place
  | taken | leased | returned | apart
  deriving DecidableEq, Repr

/-- Where a command belongs. -/
def placeOf : {β : Type} → TextCmd β → Place
  | _, .getManifest => .apart
  | _, .acquireRuntime => .taken
  | _, .release _ => .returned
  | _, .isCancelled => .leased
  | _, .generateText _ => .leased
  | _, .uuid => .apart
  | _, .makeDirectory => .apart
  | _, .writeText _ _ => .apart
  | _, .evaluate _ _ _ _ => .apart

/-- A call of the model and its answer. -/
def callOf? : TextEvent → Option (TextCall × Except Exc Text)
  | ⟨.generateText call, answer⟩ => some (call, answer)
  | _ => none

/-- A call of the model that raises. -/
def callRaised (event : TextEvent) : Bool := (callOf? event).any fun call => !call.2.isOk

/-- What is raised because of an answer to the question whether the job is cancelled. -/
def stopOf : TextEvent → Option Exc
  | ⟨.isCancelled, .ok true⟩ => some .generationCancelled
  | ⟨.isCancelled, .error e⟩ => some e
  | _ => none

/-- A file that has been written: its name and text. -/
def writtenOf? : TextEvent → Option (String × Text)
  | ⟨.writeText file text, .ok _⟩ => some (file, text)
  | _ => none

section
variable {lib : WriterLibrary} {generator : TextGenerator} {request : TextRequest} {plan : TextPlan} {observed : Bool}
  {runtime : TextRuntime} {τ : List TextEvent}

@[simp] theorem callOf?_called (prompt : Text) (answer : Except Exc Text) :
    callOf? (called request plan runtime prompt answer) = some (callOf request plan runtime prompt, answer) := rfl

@[simp] theorem stopOf_called (prompt : Text) (answer : Except Exc Text) :
    stopOf (called request plan runtime prompt answer) = none := rfl

@[simp] theorem placeOf_called (prompt : Text) (answer : Except Exc Text) :
    placeOf (called request plan runtime prompt answer).command = .leased := rfl

@[simp] theorem callRaised_called (prompt : Text) (answer : Except Exc Text) :
    callRaised (called request plan runtime prompt answer) = !answer.isOk := rfl

/-- What is asked is no call, and it is a stop if and only if it comes to one. -/
theorem Probed.event {stop : Bool × Option Exc} (h : Probed observed τ stop) :
    ∀ event ∈ τ, placeOf event.command = .leased ∧ callOf? event = none ∧ stopOf event = stopError stop := by
  unfold Probed at h
  split at h
  · rcases h with ⟨answer, rfl, rfl⟩
    intro event hevent
    rw [List.mem_singleton] at hevent
    subst hevent
    refine ⟨rfl, rfl, ?_⟩
    rcases answer with e | _ | _ <;> rfl
  · rw [h.1]
    exact List.forall_mem_nil _

/-- A question that comes to no stop is no event, or one that says that the job goes on. -/
theorem Probed.clear (h : Probed observed τ (false, none)) :
    τ = if observed then [⟨.isCancelled, .ok false⟩] else [] := by
  cases observed with
  | false => exact h.1
  | true =>
    rcases h with ⟨answer, hτ, hstop⟩
    rcases answer with e | _ | _
    · cases hstop
    · exact hτ
    · cases hstop

theorem Probed.filterMap_callOf? {stop : Bool × Option Exc} (h : Probed observed τ stop) : τ.filterMap callOf? = [] :=
  List.filterMap_eq_nil_iff.2 fun event hevent => (h.event event hevent).2.1

theorem Probed.any_callRaised {stop : Bool × Option Exc} (h : Probed observed τ stop) : τ.any callRaised = false := by
  apply List.any_eq_false.2
  intro event hevent
  rw [callRaised, (h.event event hevent).2.1]
  simp

/-! ## The discipline of the lease -/

/-- Under the lease there are questions and calls only. -/
theorem LeaseRun.leased {r : Except TextExc (TextRuntime × TextOutcome)}
    (h : LeaseRun lib request plan observed runtime τ r) : ∀ event ∈ τ, placeOf event.command = .leased := by
  have hprobed {asked : List TextEvent} {stop : Bool × Option Exc} (h : Probed observed asked stop) :
      ∀ event ∈ asked, placeOf event.command = .leased := fun event hevent => (h.event event hevent).1
  have hcalled (prompt : Text) (answer : Except Exc Text) :
      placeOf (called request plan runtime prompt answer).command = .leased := rfl
  intro event hevent
  cases h with
  | noGenerate h => cases hevent
  | notStarted hasked hstop h => exact hprobed hasked event hevent
  | firstRaised hasked h =>
    simp only [List.mem_append, List.mem_singleton] at hevent
    rcases hevent with hevent | rfl
    · exact hprobed hasked event hevent
    · exact hcalled _ _
  | firstAccepted hasked haccept hlate h =>
    simp only [List.mem_append, List.mem_cons] at hevent
    rcases hevent with hevent | rfl | hevent
    · exact hprobed hasked event hevent
    · exact hcalled _ _
    · exact hprobed hlate event hevent
  | stopped hasked hrefuse hbetween hstop h =>
    simp only [List.mem_append, List.mem_cons] at hevent
    rcases hevent with hevent | rfl | hevent
    · exact hprobed hasked event hevent
    · exact hcalled _ _
    · exact hprobed hbetween event hevent
  | secondRaised hasked hrefuse hbetween h =>
    simp only [List.mem_append, List.mem_cons, List.not_mem_nil, or_false] at hevent
    rcases hevent with hevent | rfl | hevent | rfl
    · exact hprobed hasked event hevent
    · exact hcalled _ _
    · exact hprobed hbetween event hevent
    · exact hcalled _ _
  | secondAccepted hasked hrefuse hbetween haccept hlate h =>
    simp only [List.mem_append, List.mem_cons] at hevent
    rcases hevent with hevent | rfl | hevent | rfl | hevent
    · exact hprobed hasked event hevent
    · exact hcalled _ _
    · exact hprobed hbetween event hevent
    · exact hcalled _ _
    · exact hprobed hlate event hevent
  | rejected hasked hrefuse hbetween hrefuse' hlate h =>
    simp only [List.mem_append, List.mem_cons] at hevent
    rcases hevent with hevent | rfl | hevent | rfl | hevent
    · exact hprobed hasked event hevent
    · exact hcalled _ _
    · exact hprobed hbetween event hevent
    · exact hcalled _ _
    · exact hprobed hlate event hevent

/-- The model is called twice at most. -/
theorem LeaseRun.calls_le {r : Except TextExc (TextRuntime × TextOutcome)}
    (h : LeaseRun lib request plan observed runtime τ r) : (τ.filterMap callOf?).length ≤ 2 := by
  cases h with
  | noGenerate h => simp
  | notStarted hasked hstop h => simp [hasked.filterMap_callOf?]
  | firstRaised hasked h => simp [hasked.filterMap_callOf?]
  | firstAccepted hasked haccept hlate h => simp [hasked.filterMap_callOf?, hlate.filterMap_callOf?]
  | stopped hasked hrefuse hbetween hstop h => simp [hasked.filterMap_callOf?, hbetween.filterMap_callOf?]
  | secondRaised hasked hrefuse hbetween h => simp [hasked.filterMap_callOf?, hbetween.filterMap_callOf?]
  | secondAccepted hasked hrefuse hbetween haccept hlate h =>
    simp [hasked.filterMap_callOf?, hbetween.filterMap_callOf?, hlate.filterMap_callOf?]
  | rejected hasked hrefuse hbetween hrefuse' hlate h =>
    simp [hasked.filterMap_callOf?, hbetween.filterMap_callOf?, hlate.filterMap_callOf?]

/-- The lease ends with an exception if and only if a call raises, or there is nothing to call. -/
theorem LeaseRun.hadException {r : Except TextExc (TextRuntime × TextOutcome)}
    (h : LeaseRun lib request plan observed runtime τ r) :
    (!r.isOk) = (τ.any callRaised || !runtime.hasGenerate) := by
  cases h with
  | noGenerate h => simp [h, Except.isOk, Except.toBool]
  | notStarted hasked hstop h => simp [h, Except.isOk, Except.toBool, hasked.any_callRaised]
  | firstRaised hasked h => simp [h, Except.isOk, Except.toBool]
  | firstAccepted hasked haccept hlate h =>
    simp [h, Except.isOk, Except.toBool, hasked.any_callRaised, hlate.any_callRaised]
  | stopped hasked hrefuse hbetween hstop h =>
    simp [h, Except.isOk, Except.toBool, hasked.any_callRaised, hbetween.any_callRaised]
  | secondRaised hasked hrefuse hbetween h => simp [h, Except.isOk, Except.toBool]
  | secondAccepted hasked hrefuse hbetween haccept hlate h =>
    simp [h, Except.isOk, Except.toBool, hasked.any_callRaised, hbetween.any_callRaised, hlate.any_callRaised]
  | rejected hasked hrefuse hbetween hrefuse' hlate h =>
    simp [h, Except.isOk, Except.toBool, hasked.any_callRaised, hbetween.any_callRaised, hlate.any_callRaised]

/-! ## Stops -/

/-- After an answer that stops the job nothing more happens in the question it answers. -/
theorem Probed.stops {early late : List TextEvent} {stop : Bool × Option Exc}
    (hearly : ∀ event ∈ early, stopOf event = none) (hlate : Probed observed late stop) :
    AtEvery (fun _ event after => ∀ e, stopOf event = some e → after = [] ∧ stopError stop = some e) (early ++ late) := by
  rw [atEvery_append]
  constructor
  · apply atEvery_of_forall
    intro event hevent before after e he
    rw [hearly event hevent] at he
    cases he
  · have hevent := hlate.event
    cases observed with
    | false =>
      rw [hlate.1]
      exact atEvery_nil
    | true =>
      rcases hlate with ⟨answer, rfl, -⟩
      refine atEvery_cons.2 ⟨?_, atEvery_nil⟩
      intro e he
      exact ⟨rfl, (hevent _ List.mem_cons_self).2.2 ▸ he⟩

theorem Probed.stopOf_eq_none (h : Probed observed τ (false, none)) : ∀ event ∈ τ, stopOf event = none :=
  fun event hevent => (h.event event hevent).2.2

/-- A stop is the last thing that happens under the lease, and the first thing after it. -/
theorem LeaseRun.stops (generator : TextGenerator) {r : Except TextExc (TextRuntime × TextOutcome)}
    (h : LeaseRun lib request plan observed runtime τ r) :
    AtEvery (fun _ event after => ∀ e, stopOf event = some e →
      after = [] ∧ ∃ leased, r = .ok leased ∧ finishText lib generator request plan leased = Prog.raise (.other e)) τ := by
  have hlast {early late : List TextEvent} {outcome : TextOutcome} {stop : Bool × Option Exc}
      (hearly : ∀ event ∈ early, stopOf event = none) (hlate : Probed observed late stop)
      (hfinish : ∀ e, stopError stop = some e →
        finishText lib generator request plan (runtime, outcome) = Prog.raise (.other e)) :
      AtEvery (fun _ event after => ∀ e, stopOf event = some e → after = [] ∧ ∃ leased,
        (.ok (runtime, outcome) : Except TextExc (TextRuntime × TextOutcome)) = .ok leased ∧
          finishText lib generator request plan leased = Prog.raise (.other e)) (early ++ late) := by
    intro before event after hτ e he
    rcases Probed.stops hearly hlate before event after hτ e he with ⟨hafter, hstop⟩
    exact ⟨hafter, _, rfl, hfinish e hstop⟩
  have hnever {r : Except TextExc (TextRuntime × TextOutcome)} {τ : List TextEvent}
      (hnone : ∀ event ∈ τ, stopOf event = none) : AtEvery (fun _ event after => ∀ e, stopOf event = some e →
        after = [] ∧ ∃ leased, r = .ok leased ∧
          finishText lib generator request plan leased = Prog.raise (.other e)) τ := by
    apply atEvery_of_forall
    intro event hevent before after e he
    rw [hnone event hevent] at he
    cases he
  cases h with
  | noGenerate h => exact atEvery_nil
  | notStarted hasked hstop h =>
    have hearly : ∀ event ∈ ([] : List TextEvent), stopOf event = none := List.forall_mem_nil _
    refine hlast hearly hasked ?_
    intro e he
    rw [finishText, he]
    rfl
  | firstRaised hasked h =>
    apply hnever
    intro event hevent
    simp only [List.mem_append, List.mem_singleton] at hevent
    rcases hevent with hevent | rfl
    · exact hasked.stopOf_eq_none event hevent
    · rfl
  | firstAccepted hasked haccept hlate h =>
    rw [List.append_cons]
    refine hlast ?_ hlate ?_
    · simp only [List.forall_mem_append, List.forall_mem_singleton]
      exact ⟨hasked.stopOf_eq_none, rfl⟩
    · intro e he
      simp only [finishText, he]
  | stopped hasked hrefuse hbetween hstop h =>
    rw [List.append_cons]
    refine hlast ?_ hbetween ?_
    · simp only [List.forall_mem_append, List.forall_mem_singleton]
      exact ⟨hasked.stopOf_eq_none, rfl⟩
    · intro e he
      rw [finishText, he]
      rfl
  | secondRaised hasked hrefuse hbetween h =>
    apply hnever
    intro event hevent
    simp only [List.mem_append, List.mem_cons, List.not_mem_nil, or_false] at hevent
    rcases hevent with hevent | rfl | hevent | rfl
    · exact hasked.stopOf_eq_none event hevent
    · rfl
    · exact hbetween.stopOf_eq_none event hevent
    · rfl
  | secondAccepted hasked hrefuse hbetween haccept hlate h =>
    rw [List.append_cons, ← List.append_assoc, List.append_cons]
    refine hlast ?_ hlate ?_
    · simp only [List.forall_mem_append, List.forall_mem_singleton]
      exact ⟨⟨⟨hasked.stopOf_eq_none, rfl⟩, hbetween.stopOf_eq_none⟩, rfl⟩
    · intro e he
      simp only [finishText, he]
  | rejected hasked hrefuse hbetween hrefuse' hlate h =>
    rw [List.append_cons, ← List.append_assoc, List.append_cons]
    refine hlast ?_ hlate ?_
    · simp only [List.forall_mem_append, List.forall_mem_singleton]
      exact ⟨⟨⟨hasked.stopOf_eq_none, rfl⟩, hbetween.stopOf_eq_none⟩, rfl⟩
    · intro e he
      simp only [finishText, he]

end
end CreativeStudio.Generators
