import CreativeStudio.Generators.TextLease

/-!
# Whole runs of the text generator

Before the lease there is a manifest and a plan, after it there are files. `TextRun` puts the three
parts together, in an environment that may answer anything.
-/

namespace CreativeStudio.Generators
open Conc Data Story

/-- A run that comes to no lease, with its error. -/
inductive NoLease (lib : WriterLibrary) (request : TextRequest) : List TextEvent → Exc → Prop
  | noManifest (e : Exc) : NoLease lib request [⟨.getManifest, .error e⟩] e
  | noPlan {manifest : TextManifest} {e : Exc} (h : planText lib manifest request = .error e) :
      NoLease lib request [⟨.getManifest, .ok manifest⟩] e
  | noRuntime {manifest : TextManifest} {plan : TextPlan} (h : planText lib manifest request = .ok plan) (e : Exc) :
      NoLease lib request [⟨.getManifest, .ok manifest⟩, ⟨.acquireRuntime, .error e⟩] e

/-- A run of the generator, and what it ends with. -/
inductive TextRun (lib : WriterLibrary) (generator : TextGenerator) (request : TextRequest) (observed : Bool) :
    List TextEvent → Except TextExc TextResult → Prop
  /-- There is no lease. -/
  | noLease {τ : List TextEvent} {e : Exc} (h : NoLease lib request τ e) :
      TextRun lib generator request observed τ (.error (.other e))
  /-- The lease ends with an exception. -/
  | broken {manifest : TextManifest} {plan : TextPlan} {runtime : TextRuntime} {held : List TextEvent} {e : TextExc}
      (hplan : planText lib manifest request = .ok plan)
      (hheld : LeaseRun lib request plan observed runtime held (.error e)) :
      TextRun lib generator request observed (⟨.getManifest, .ok manifest⟩ :: ⟨.acquireRuntime, .ok runtime⟩ ::
        (held ++ [⟨.release true, ()⟩])) (.error e)
  /-- The lease ends, and the run goes on after it. -/
  | finished {manifest : TextManifest} {plan : TextPlan} {runtime : TextRuntime} {held after : List TextEvent}
      {leased : TextRuntime × TextOutcome} {r : Except TextExc TextResult}
      (hplan : planText lib manifest request = .ok plan)
      (hheld : LeaseRun lib request plan observed runtime held (.ok leased))
      (hafter : Follows (finishText lib generator request plan leased) after r) :
      TextRun lib generator request observed (⟨.getManifest, .ok manifest⟩ :: ⟨.acquireRuntime, .ok runtime⟩ ::
        (held ++ ⟨.release false, ()⟩ :: after)) r

section
variable {lib : WriterLibrary} {generator : TextGenerator} {request : TextRequest} {plan : TextPlan} {observed : Bool}
  {runtime : TextRuntime} {τ : List TextEvent} {r : Except TextExc TextResult}

/-- Every trace of the generator is such a run. -/
theorem textRun_of_follows (h : Follows (generateText lib generator request observed) τ r) :
    TextRun lib generator request observed τ r := by
  rw [generateText] at h
  rcases follows_bind.1 h with ⟨e, hr, hmanifest⟩ | ⟨manifest, τ₁, τ₂, hτ, hmanifest, h⟩
  · rcases follows_ask.1 hmanifest with ⟨answer, hτ, hanswer⟩
    cases answer with
    | ok manifest => cases hanswer
    | error e' =>
      cases hanswer
      rw [hτ, hr]
      exact .noLease (.noManifest e')
  rcases follows_ask.1 hmanifest with ⟨answer, hτ₁, hanswer⟩
  cases answer with
  | error e => cases hanswer
  | ok manifest' =>
  cases hanswer
  rcases follows_bind.1 h with ⟨e, hr, hplan⟩ | ⟨plan, τ₃, τ₄, hτ₂, hplan, h⟩
  · rcases follows_lift.1 hplan with ⟨hτ₂, hplan⟩
    cases hplanned : planText lib manifest request with
    | ok plan =>
      rw [hplanned] at hplan
      cases hplan
    | error e' =>
      rw [hplanned] at hplan
      cases hplan
      rw [hτ, hτ₁, hτ₂, hr]
      exact .noLease (.noPlan hplanned)
  rcases follows_lift.1 hplan with ⟨hτ₃, hplan⟩
  have hplan : planText lib manifest request = .ok plan := by
    cases hplanned : planText lib manifest request with
    | ok plan' =>
      rw [hplanned] at hplan
      cases hplan
      rfl
    | error e =>
      rw [hplanned] at hplan
      cases hplan
  rcases follows_bind.1 h with ⟨e, hr, hlease⟩ | ⟨leased, τ₅, after, hτ₄, hlease, hafter⟩
  · rcases follows_withResource.1 hlease with ⟨e', he, hacquire⟩ | ⟨runtime, τ₅, held, hτ₄, hacquire, hheld⟩
    · cases he
      rcases follows_ask.1 hacquire with ⟨answer, hτ₄, hanswer⟩
      cases answer with
      | ok runtime => cases hanswer
      | error e' =>
        cases hanswer
        rw [hτ, hτ₁, hτ₂, hτ₃, hτ₄, hr]
        exact .noLease (.noRuntime hplan e')
    · rcases follows_ask.1 hacquire with ⟨answer, hτ₅, hanswer⟩
      cases answer with
      | error e => cases hanswer
      | ok runtime' =>
        cases hanswer
        rw [hτ, hτ₁, hτ₂, hτ₃, hτ₄, hτ₅, hr]
        exact .broken hplan (leaseRun_of_follows hheld)
  · rcases follows_withResource.1 hlease with ⟨e', he, -⟩ | ⟨runtime, τ₆, held, hτ₅, hacquire, hheld⟩
    · cases he
    · rcases follows_ask.1 hacquire with ⟨answer, hτ₆, hanswer⟩
      cases answer with
      | error e => cases hanswer
      | ok runtime' =>
        cases hanswer
        have hall : τ = ⟨.getManifest, .ok manifest⟩ :: ⟨.acquireRuntime, .ok runtime⟩ ::
            (held ++ ⟨.release false, ()⟩ :: after) := by
          rw [hτ, hτ₁, hτ₂, hτ₃, hτ₄, hτ₅, hτ₆]
          simp [Except.isOk, Except.toBool]
        rw [hall]
        exact .finished hplan (leaseRun_of_follows hheld) hafter

/-! ## After the lease -/

theorem uses_ask {α : Type} {S : ∀ {β : Type}, TextCmd β → Prop} {c : TextCmd (Except Exc α)} (hc : S c) :
    (ask c).Uses S := by
  rw [ask, Prog.uses_bind, Prog.uses_exec]
  refine ⟨hc, ?_⟩
  intro a _
  exact Prog.uses_ofExcept _

theorem writeRawResponse_uses {task : StoryTask} {rawText : Text} :
    (writeRawResponse generator task rawText).Uses fun c => placeOf c = .apart := by
  simp only [writeRawResponse, Prog.uses_bind, Prog.uses_exec]
  refine ⟨uses_ask rfl, fun _ _ => ⟨rfl, fun _ _ => ⟨uses_ask rfl, fun _ _ => trivial⟩⟩⟩

theorem writeAnswer_uses {answer : StructuredAnswer} :
    (writeAnswer lib generator request plan runtime answer).Uses fun c => placeOf c = .apart := by
  simp only [writeAnswer, Prog.uses_bind, Prog.uses_exec]
  refine ⟨rfl, fun _ _ => ⟨Prog.uses_ofExcept _, fun _ _ => ⟨uses_ask rfl, fun _ _ => ⟨uses_ask rfl, fun _ _ =>
    ⟨Prog.uses_ofExcept _, fun _ _ => ⟨uses_ask rfl, fun _ _ => trivial⟩⟩⟩⟩⟩⟩

/-- After the lease nothing is asked of the runtime or the job. -/
theorem finishText_uses (leased : TextRuntime × TextOutcome) :
    (finishText lib generator request plan leased).Uses fun c => placeOf c = .apart := by
  rcases leased with ⟨runtime, stop | stop | ⟨rawText, lastError, late⟩ | ⟨answer, late⟩⟩
  · trivial
  · trivial
  · rw [finishText]
    cases stopError late with
    | some e => trivial
    | none =>
      rw [Prog.uses_bind]
      exact ⟨writeRawResponse_uses, fun _ _ => trivial⟩
  · rw [finishText]
    cases stopError late with
    | some e => trivial
    | none => exact writeAnswer_uses

/-- A run without a lease asks for a manifest, and for a runtime that it does not get. -/
theorem NoLease.events {e : Exc} (h : NoLease lib request τ e) : ∀ event ∈ τ, placeOf event.command = .apart ∨
    ∃ e, event = ⟨.acquireRuntime, .error e⟩ := by
  intro event hevent
  cases h with
  | noManifest e =>
    rw [List.mem_singleton.1 hevent]
    exact .inl rfl
  | noPlan h =>
    rw [List.mem_singleton.1 hevent]
    exact .inl rfl
  | noRuntime h e =>
    rcases List.mem_pair.1 hevent with rfl | rfl
    · exact .inl rfl
    · exact .inr ⟨e, rfl⟩

/-! ## A run with a repair -/

/-- A library that reads two answers: one of no fields, and one with some prose. -/
def smallWriter : WriterLibrary where
  toValueLibrary := smallValues
  parseInt _ := none
  loads text :=
    if text = ['\x7b', '\x7d'] then .ok (.obj [])
    else if text = "\x7b\"prose_markdown\": \"Rain.\"\x7d".toList then .ok (.obj [("prose_markdown", .str "Rain.")])
    else .error (.decode "Expecting value: line 1 column 1 (char 0)")
  dumpsIndented _ := "\x7b\n  \"title\": \"\",\n  \"prose_markdown\": \"Rain.\"\n\x7d".toList
  validationText _ _ := "prose_markdown: Field required"

/-- The manifest of a writer. -/
def smallManifest : TextManifest where
  id := "writer"
  publicModelId := "writer"
  displayName := "Writer"
  runtime := "template"
  provider := "local"
  loader := "template"
  defaultParams := []

/-- A request for prose. -/
def proseRequest : TextRequest where
  prompt := "A lighthouse in the rain."
  modelId := ""
  seed := some 7
  params := [("task", .str "prose")]

/-- Surroundings in which the first answer is refused and the second one is valid, and the job goes on. -/
def repairing : {β : Type} → List TextEvent → TextCmd β → β
  | _, _, .getManifest => .ok smallManifest
  | _, _, .acquireRuntime => .ok { manifest := smallManifest, typeName := "dict", hasGenerate := true, entries := [] }
  | _, _, .release _ => ()
  | _, _, .isCancelled => .ok false
  | _, past, .generateText _ =>
    .ok (if past.any (fun event => (callOf? event).isSome) then "\x7b\"prose_markdown\": \"Rain.\"\x7d".toList
      else ['\x7b', '\x7d'])
  | _, _, .uuid => "0123456789abcdef0123456789abcdef"
  | _, _, .makeDirectory => .ok ()
  | _, _, .writeText _ _ => .ok ()
  | _, _, .evaluate _ _ _ _ => .ok .null

/-- The run that they lead to. -/
def repairedRun : List TextEvent × Except TextExc TextResult :=
  (generateText smallWriter { outputDir := "outputs/texts" } proseRequest true).run repairing []

theorem follows_repairedRun : Follows (generateText smallWriter { outputDir := "outputs/texts" } proseRequest true)
    repairedRun.1 repairedRun.2 := follows_run repairing _ []

/-- The runtime is acquired once at most, and then released once. The model is called and the job is
asked in between only, and everything else, the files above all, is for before or after. The model
is called twice at most. The runtime is reported broken if and only if a call raises or there is
nothing to call, and then nothing follows. -/
def LeaseKept (τ : List TextEvent) (r : Except TextExc TextResult) : Prop :=
  (∃ e, r = .error (.other e) ∧
    ∀ event ∈ τ, placeOf event.command = .apart ∨ ∃ e, event = ⟨.acquireRuntime, .error e⟩) ∨
  ∃ before runtime held hadException after,
    τ = before ++ ⟨.acquireRuntime, .ok runtime⟩ :: (held ++ ⟨.release hadException, ()⟩ :: after) ∧
    (∀ event ∈ before, placeOf event.command = .apart) ∧ (∀ event ∈ held, placeOf event.command = .leased) ∧
    (∀ event ∈ after, placeOf event.command = .apart) ∧ (held.filterMap callOf?).length ≤ 2 ∧
    hadException = (held.any callRaised || !runtime.hasGenerate) ∧ (hadException → after = [])

/-- Whatever the surroundings answer, the lease is kept. -/
theorem generateText_lease (h : Follows (generateText lib generator request observed) τ r) : LeaseKept τ r := by
  cases textRun_of_follows h with
  | noLease hnone => exact .inl ⟨_, rfl, hnone.events⟩
  | @broken manifest plan runtime held e hplan hheld =>
    refine .inr ⟨[⟨.getManifest, .ok manifest⟩], runtime, held, true, [], rfl, ?_, hheld.leased, ?_, hheld.calls_le,
      hheld.hadException, fun _ => rfl⟩
    · exact List.forall_mem_singleton.2 rfl
    · exact List.forall_mem_nil _
  | @finished manifest plan runtime held after leased r hplan hheld hafter =>
    refine .inr ⟨[⟨.getManifest, .ok manifest⟩], runtime, held, false, after, rfl, ?_, hheld.leased, ?_, hheld.calls_le,
      hheld.hadException, ?_⟩
    · exact List.forall_mem_singleton.2 rfl
    · exact hafter.forall_of_uses (finishText_uses leased)
    · intro hfalse
      cases hfalse

/-- The run with a repair asks three times and calls twice; then it writes two files. -/
theorem repairedRun_events : repairedRun.1.map (fun event => placeOf event.command) =
      [.apart, .taken, .leased, .leased, .leased, .leased, .leased, .returned, .apart, .apart, .apart, .apart] ∧
    (repairedRun.1.filterMap callOf?).length = 2 ∧
    (repairedRun.1.filterMap writtenOf?).map Prod.fst =
      ["txt_0123456789abcdef0123456789abcdef.md", "txt_0123456789abcdef0123456789abcdef.json"] ∧
    repairedRun.2.toOption.map TextResult.generationAttempts = some 2 := by
  decide +kernel

/-- The model is called twice in the run with a repair, and both files follow the lease. -/
theorem generateText_lease_repairedRun : LeaseKept repairedRun.1 repairedRun.2 ∧
    repairedRun.1.map (fun event => placeOf event.command) =
      [.apart, .taken, .leased, .leased, .leased, .leased, .leased, .returned, .apart, .apart, .apart, .apart] :=
  ⟨generateText_lease follows_repairedRun, repairedRun_events.1⟩

/-! ## Stops -/

/-- The answer that the job goes on. -/
def goesOn : TextEvent := ⟨.isCancelled, .ok false⟩

theorem Probed.goesOn (h : Probed true τ (false, none)) (before : List TextEvent) :
    ∃ earlier, before ++ τ = earlier ++ [Generators.goesOn] := ⟨before, by rw [h.clear]; rfl⟩

theorem Probed.noCalls {P : List TextEvent → Prop} {stop : Bool × Option Exc} (h : Probed observed τ stop) :
    AtEvery (fun before event _ => (callOf? event).isSome → P before) τ := by
  apply atEvery_of_forall
  intro event hevent before after hcall
  rw [(h.event event hevent).2.1] at hcall
  cases hcall

/-- If there is anyone to ask, the job is asked for directly before each call. -/
theorem LeaseRun.asked {r : Except TextExc (TextRuntime × TextOutcome)}
    (h : LeaseRun lib request plan true runtime τ r) :
    AtEvery (fun before event _ => (callOf? event).isSome → ∃ earlier, before = earlier ++ [goesOn]) τ := by
  cases h with
  | noGenerate h => exact atEvery_nil
  | notStarted hasked hstop h => exact hasked.noCalls
  | firstRaised hasked h =>
    refine atEvery_append.2 ⟨hasked.noCalls, atEvery_cons.2 ⟨?_, atEvery_nil⟩⟩
    intro _
    simpa using hasked.goesOn []
  | firstAccepted hasked haccept hlate h =>
    refine atEvery_append.2 ⟨hasked.noCalls, atEvery_cons.2 ⟨?_, hlate.noCalls⟩⟩
    intro _
    simpa using hasked.goesOn []
  | stopped hasked hrefuse hbetween hstop h =>
    refine atEvery_append.2 ⟨hasked.noCalls, atEvery_cons.2 ⟨?_, hbetween.noCalls⟩⟩
    intro _
    simpa using hasked.goesOn []
  | secondRaised hasked hrefuse hbetween h =>
    refine atEvery_append.2 ⟨hasked.noCalls, atEvery_cons.2 ⟨?_, ?_⟩⟩
    · intro _
      simpa using hasked.goesOn []
    refine atEvery_append.2 ⟨hbetween.noCalls, atEvery_cons.2 ⟨?_, atEvery_nil⟩⟩
    intro _
    rw [List.append_nil, List.append_cons]
    exact hbetween.goesOn _
  | secondAccepted hasked hrefuse hbetween haccept hlate h =>
    refine atEvery_append.2 ⟨hasked.noCalls, atEvery_cons.2 ⟨?_, ?_⟩⟩
    · intro _
      simpa using hasked.goesOn []
    refine atEvery_append.2 ⟨hbetween.noCalls, atEvery_cons.2 ⟨?_, hlate.noCalls⟩⟩
    intro _
    rw [List.append_nil, List.append_cons]
    exact hbetween.goesOn _
  | rejected hasked hrefuse hbetween hrefuse' hlate h =>
    refine atEvery_append.2 ⟨hasked.noCalls, atEvery_cons.2 ⟨?_, ?_⟩⟩
    · intro _
      simpa using hasked.goesOn []
    refine atEvery_append.2 ⟨hbetween.noCalls, atEvery_cons.2 ⟨?_, hlate.noCalls⟩⟩
    intro _
    rw [List.append_nil, List.append_cons]
    exact hbetween.goesOn _

/-- If there is anyone to ask, what follows the lease is a stop, or the job was asked for last. -/
theorem LeaseRun.lastAsked (generator : TextGenerator) {leased : TextRuntime × TextOutcome}
    (h : LeaseRun lib request plan true runtime τ (.ok leased)) :
    (∃ e, finishText lib generator request plan leased = Prog.raise e) ∨ ∃ earlier, τ = earlier ++ [goesOn] := by
  have hlast {late : List TextEvent} {stop : Bool × Option Exc} {outcome : TextOutcome} (early : List TextEvent)
      (hlate : Probed true late stop) (hfinish : ∀ e, stopError stop = some e →
        finishText lib generator request plan (runtime, outcome) = Prog.raise (.other e)) :
      (∃ e, finishText lib generator request plan (runtime, outcome) = Prog.raise e) ∨
        ∃ earlier, early ++ late = earlier ++ [goesOn] := by
    rcases hlate.cases with rfl | rfl | ⟨e, rfl⟩
    · exact .inr (hlate.goesOn early)
    · exact .inl ⟨_, hfinish _ rfl⟩
    · exact .inl ⟨_, hfinish _ rfl⟩
  cases h with
  | notStarted hasked hstop h => exact .inl ⟨_, rfl⟩
  | firstAccepted hasked haccept hlate h =>
    rw [List.append_cons]
    apply hlast _ hlate
    intro e he
    simp only [finishText, he]
  | stopped hasked hrefuse hbetween hstop h => exact .inl ⟨_, rfl⟩
  | secondAccepted hasked hrefuse hbetween haccept hlate h =>
    rw [List.append_cons, ← List.append_assoc, List.append_cons]
    apply hlast _ hlate
    intro e he
    simp only [finishText, he]
  | rejected hasked hrefuse hbetween hrefuse' hlate h =>
    rw [List.append_cons, ← List.append_assoc, List.append_cons]
    apply hlast _ hlate
    intro e he
    simp only [finishText, he]

/-- What a stop means at an event of a run. A question that is answered with yes, or that raises, is
the last one: the runtime is released unbroken, the run ends with the stop, and nothing is written.
If there is anyone to ask, each call is preceded by a question that is answered with no, and so is
the end of the lease, if anything follows it. -/
def StopKept (observed : Bool) (r : Except TextExc TextResult) (before : List TextEvent) (event : TextEvent)
    (after : List TextEvent) : Prop :=
  (∀ e, stopOf event = some e → after = [⟨.release false, ()⟩] ∧ r = .error (.other e)) ∧
  (observed → (callOf? event).isSome → ∃ earlier, before = earlier ++ [goesOn]) ∧
  (observed → event = ⟨.release false, ()⟩ → after ≠ [] → ∃ earlier, before = earlier ++ [goesOn])

theorem stopKept_of_quiet {before after : List TextEvent} {event : TextEvent} (hstop : stopOf event = none)
    (hcall : callOf? event = none) (hrelease : event ≠ ⟨.release false, ()⟩) :
    StopKept observed r before event after := by
  refine ⟨?_, ?_, ?_⟩
  · intro e he
    rw [hstop] at he
    cases he
  · intro _ hsome
    rw [hcall] at hsome
    cases hsome
  · intro _ heq
    exact absurd heq hrelease

/-- An event before or after the lease is none of these. -/
theorem stopKept_of_apart {before after : List TextEvent} {event : TextEvent} (h : placeOf event.command = .apart) :
    StopKept observed r before event after := by
  have hrelease : event ≠ ⟨.release false, ()⟩ := by
    intro heq
    rw [heq] at h
    cases h
  rcases event with ⟨command, answer⟩
  cases command with
  | acquireRuntime => cases h
  | release hadException => cases h
  | isCancelled => cases h
  | generateText call => cases h
  | getManifest => exact stopKept_of_quiet rfl rfl hrelease
  | uuid => exact stopKept_of_quiet rfl rfl hrelease
  | makeDirectory => exact stopKept_of_quiet rfl rfl hrelease
  | writeText file text => exact stopKept_of_quiet rfl rfl hrelease
  | evaluate file structured task targetWords => exact stopKept_of_quiet rfl rfl hrelease

theorem stopKept_acquireRuntime {before after : List TextEvent} {answer : Except Exc TextRuntime} :
    StopKept observed r before ⟨.acquireRuntime, answer⟩ after := by
  apply stopKept_of_quiet rfl rfl
  intro heq
  have hplace : Place.taken = .returned := congrArg (fun event : TextEvent => placeOf event.command) heq
  cases hplace

theorem stopKept_release_true {before after : List TextEvent} : StopKept observed r before ⟨.release true, ()⟩ after := by
  apply stopKept_of_quiet rfl rfl
  intro heq
  cases heq

/-- Whatever the surroundings answer, a stop is kept to. -/
theorem generateText_stop (h : Follows (generateText lib generator request observed) τ r) :
    AtEvery (StopKept observed r) τ := by
  cases textRun_of_follows h with
  | noLease hnone =>
    apply atEvery_of_forall
    intro event hevent before after
    rcases hnone.events event hevent with hevent | ⟨e, rfl⟩
    · exact stopKept_of_apart hevent
    · exact stopKept_acquireRuntime
  | @broken manifest plan runtime held e hplan hheld =>
    refine atEvery_cons.2 ⟨stopKept_of_apart rfl, atEvery_cons.2 ⟨stopKept_acquireRuntime, ?_⟩⟩
    refine atEvery_append.2 ⟨?_, atEvery_cons.2 ⟨stopKept_release_true, atEvery_nil⟩⟩
    intro before event after hτ
    refine ⟨?_, ?_, ?_⟩
    · intro e he
      rcases hheld.stops generator before event after hτ e he with ⟨-, leased, hr, -⟩
      cases hr
    · intro hobserved hcall
      subst hobserved
      rcases hheld.asked before event after hτ hcall with ⟨earlier, hbefore⟩
      exact ⟨_ :: _ :: earlier, by rw [hbefore]; rfl⟩
    · intro _ hevent
      have hplace := hheld.leased event (hτ ▸ List.mem_append_right before List.mem_cons_self)
      rw [hevent] at hplace
      cases hplace
  | @finished manifest plan runtime held after leased r hplan hheld hafter =>
    refine atEvery_cons.2 ⟨stopKept_of_apart rfl, atEvery_cons.2 ⟨stopKept_acquireRuntime, ?_⟩⟩
    refine atEvery_append.2 ⟨?_, atEvery_cons.2 ⟨⟨nofun, nofun, ?_⟩, ?_⟩⟩
    · intro before event late hτ
      refine ⟨?_, ?_, ?_⟩
      · intro e he
        rcases hheld.stops generator before event late hτ e he with ⟨hlate, leased', hleased, hfinish⟩
        cases hleased
        rw [hfinish] at hafter
        rcases follows_raise.1 hafter with ⟨hnothing, hr⟩
        exact ⟨by rw [hlate, hnothing, List.nil_append], hr⟩
      · intro hobserved hcall
        subst hobserved
        rcases hheld.asked before event late hτ hcall with ⟨earlier, hbefore⟩
        exact ⟨_ :: _ :: earlier, by rw [hbefore]; rfl⟩
      · intro _ hevent
        have hplace := hheld.leased event (hτ ▸ List.mem_append_right before List.mem_cons_self)
        rw [hevent] at hplace
        cases hplace
    · intro hobserved _ hmore
      subst hobserved
      rcases hheld.lastAsked generator with ⟨e, hraise⟩ | ⟨earlier, hearlier⟩
      · rw [hraise] at hafter
        exact absurd (follows_raise.1 hafter).1 hmore
      · exact ⟨_ :: _ :: earlier, by rw [hearlier, List.append_nil]; rfl⟩
    · apply atEvery_of_forall
      intro event hevent before late
      exact stopKept_of_apart (hafter.forall_of_uses (finishText_uses leased) event hevent)

/-- In the run with a repair each of the two calls is preceded by a question. -/
theorem generateText_stop_repairedRun : AtEvery (StopKept true repairedRun.2) repairedRun.1 ∧
    (repairedRun.1.filterMap callOf?).length = 2 :=
  ⟨generateText_stop follows_repairedRun, repairedRun_events.2.1⟩

/-! ## Answers and files -/

/-- The calls that lead to the text of an attempt: the first one with the prompt of the plan, the
second one with the text that was refused and the reason. -/
inductive Attempted (lib : WriterLibrary) (request : TextRequest) (plan : TextPlan) (runtime : TextRuntime) :
    List (TextCall × Except Exc Text) → ℕ → Text → Prop
  | first (rawText : Text) :
      Attempted lib request plan runtime [(callOf request plan runtime plan.prompt, .ok rawText)] 1 rawText
  | second {refused : Text} {e : Exc} (hrefuse : acceptAnswer lib plan.task refused = .error e) (rawText : Text) :
      Attempted lib request plan runtime
        [(callOf request plan runtime plan.prompt, .ok refused),
          (callOf request plan runtime (repairPrompt plan.prompt refused e.text), .ok rawText)] 2 rawText

theorem LeaseRun.answered {runtime' : TextRuntime} {answer : StructuredAnswer} {late : Bool × Option Exc}
    (h : LeaseRun lib request plan observed runtime τ (.ok (runtime', .answered answer late))) :
    Attempted lib request plan runtime (τ.filterMap callOf?) answer.attempts answer.rawText ∧
      acceptAnswer lib plan.task answer.rawText = .ok answer.structured := by
  cases h with
  | firstAccepted hasked haccept hlate h =>
    refine ⟨?_, haccept⟩
    simpa [hasked.filterMap_callOf?, hlate.filterMap_callOf?] using
      (Attempted.first _ : Attempted lib request plan runtime _ 1 _)
  | secondAccepted hasked hrefuse hbetween haccept hlate h =>
    refine ⟨?_, haccept⟩
    simpa [hasked.filterMap_callOf?, hbetween.filterMap_callOf?, hlate.filterMap_callOf?] using
      (Attempted.second hrefuse _ : Attempted lib request plan runtime _ 2 _)

theorem LeaseRun.rejected_calls {runtime' : TextRuntime} {rawText : Text} {lastError : String} {late : Bool × Option Exc}
    (h : LeaseRun lib request plan observed runtime τ (.ok (runtime', .rejected rawText lastError late))) :
    Attempted lib request plan runtime (τ.filterMap callOf?) 2 rawText ∧
      ∃ e, acceptAnswer lib plan.task rawText = .error e ∧ lastError = e.text := by
  cases h with
  | rejected hasked hrefuse hbetween hrefuse' hlate h =>
    refine ⟨?_, _, hrefuse', rfl⟩
    simpa [hasked.filterMap_callOf?, hbetween.filterMap_callOf?, hlate.filterMap_callOf?] using
      (Attempted.second hrefuse _ : Attempted lib request plan runtime _ 2 _)

/-! Where a run does not end with an exception from elsewhere, every command succeeds. -/

theorem follows_ask_bind {α β : Type} {c : TextCmd (Except Exc α)} {f : α → TextProg β} {r : Except TextExc β}
    (hr : ∀ e, r ≠ .error (.other e)) (h : Follows (ask c >>= f) τ r) :
    ∃ a τ', τ = ⟨c, .ok a⟩ :: τ' ∧ Follows (f a) τ' r := by
  rcases follows_bind.1 h with ⟨e, he, hask⟩ | ⟨a, τ₁, τ₂, hτ, hask, hrest⟩
  · rcases follows_ask.1 hask with ⟨answer, -, hanswer⟩
    cases answer with
    | ok a => cases hanswer
    | error e' =>
      cases hanswer
      exact absurd he (hr e')
  · rcases follows_ask.1 hask with ⟨answer, hτ₁, hanswer⟩
    cases answer with
    | error e => cases hanswer
    | ok a' =>
      cases hanswer
      exact ⟨a, τ₂, by rw [hτ, hτ₁]; rfl, hrest⟩

theorem follows_lift_bind {α β : Type} {x : Except Exc α} {f : α → TextProg β} {r : Except TextExc β}
    (hr : ∀ e, r ≠ .error (.other e)) (h : Follows (lift x >>= f) τ r) : ∃ a, x = .ok a ∧ Follows (f a) τ r := by
  cases x with
  | ok a => exact ⟨a, rfl, h⟩
  | error e => exact absurd (follows_raise.1 h).2 (hr e)

theorem follows_exec_bind {α β : Type} {c : TextCmd α} {f : α → TextProg β} {r : Except TextExc β}
    (h : Follows (Prog.exec c >>= f) τ r) : ∃ a τ', τ = ⟨c, a⟩ :: τ' ∧ Follows (f a) τ' r := follows_op.1 h

/-- An answer is written twice, as a document and as it is. -/
theorem follows_writeAnswer {answer : StructuredAnswer} (hr : ∀ e, r ≠ .error (.other e))
    (h : Follows (writeAnswer lib generator request plan runtime answer) τ r) :
    ∃ result document, r = .ok result ∧ result.structured = answer.structured ∧
      result.generationAttempts = answer.attempts ∧
      renderMarkdown lib.toValueLibrary plan.task answer.structured = .ok document ∧
      τ.filterMap writtenOf? = [(result.outputId ++ ".md", document),
        (result.outputId ++ ".json", lib.dumpsIndented (.obj answer.structured) ++ ['\n'])] := by
  rcases follows_exec_bind h with ⟨uuid, τ₁, hτ, h⟩
  rcases follows_lift_bind hr h with ⟨document, hdocument, h⟩
  rcases follows_ask_bind hr h with ⟨_, τ₂, hτ₁, h⟩
  rcases follows_ask_bind hr h with ⟨_, τ₃, hτ₂, h⟩
  rcases follows_lift_bind hr h with ⟨targetWords, -, h⟩
  rcases follows_ask_bind hr h with ⟨report, τ₄, hτ₃, h⟩
  rcases follows_ret.1 h with ⟨hτ₄, hr⟩
  refine ⟨_, document, hr, rfl, rfl, hdocument, ?_⟩
  rw [hτ, hτ₁, hτ₂, hτ₃, hτ₄]
  rfl

theorem follows_writeRawResponse {β : Type} {task : StoryTask} {rawText : Text} {f : String → TextProg β}
    {r : Except TextExc β} (hr : ∀ e, r ≠ .error (.other e))
    (h : Follows (writeRawResponse generator task rawText >>= f) τ r) :
    ∃ file written τ', τ = written ++ τ' ∧ written.filterMap writtenOf? = [(file, rawText)] ∧
      Follows (f (generator.outputDir ++ "/" ++ file)) τ' r := by
  simp only [writeRawResponse, bind_assoc, pure_bind] at h
  rcases follows_ask_bind hr h with ⟨_, τ₁, hτ, h⟩
  rcases follows_exec_bind h with ⟨uuid, τ₂, hτ₁, h⟩
  rcases follows_ask_bind hr h with ⟨_, τ₃, hτ₂, h⟩
  exact ⟨_, [_, _, _], τ₃, by rw [hτ, hτ₁, hτ₂]; rfl, rfl, h⟩

theorem filterMap_writtenOf?_of_leased (h : ∀ event ∈ τ, placeOf event.command = .leased) :
    τ.filterMap writtenOf? = [] := by
  apply List.filterMap_eq_nil_iff.2
  intro event hevent
  have hplace := h event hevent
  rcases event with ⟨command, answer⟩
  cases command with
  | writeText file text => cases hplace
  | _ => rfl

theorem filterMap_callOf?_of_apart (h : ∀ event ∈ τ, placeOf event.command = .apart) : τ.filterMap callOf? = [] := by
  apply List.filterMap_eq_nil_iff.2
  intro event hevent
  have hplace := h event hevent
  rcases event with ⟨command, answer⟩
  cases command with
  | generateText call => cases hplace
  | _ => rfl

/-- What a run is planned with, and what it has leased. -/
def PlannedWith (lib : WriterLibrary) (request : TextRequest) (τ : List TextEvent) (plan : TextPlan)
    (runtime : TextRuntime) : Prop :=
  ∃ manifest rest, τ = ⟨.getManifest, .ok manifest⟩ :: ⟨.acquireRuntime, .ok runtime⟩ :: rest ∧
    planText lib manifest request = .ok plan

/-- How a run ends that no exception from elsewhere ends. A result holds the answer of the last call,
which is the first one or the one that corrects it; it has passed the schema of the task, and the
files are its rendering and itself. Otherwise two answers in a row are refused, and the only file is
the text of the second. What is signalled between the attempts is never raised. -/
def ResultKept (lib : WriterLibrary) (request : TextRequest) (τ : List TextEvent) : Except TextExc TextResult → Prop
  | .ok result => ∃ plan runtime rawText document, PlannedWith lib request τ plan runtime ∧
      Attempted lib request plan runtime (τ.filterMap callOf?) result.generationAttempts rawText ∧
      acceptAnswer lib plan.task rawText = .ok result.structured ∧
      renderMarkdown lib.toValueLibrary plan.task result.structured = .ok document ∧
      τ.filterMap writtenOf? = [(result.outputId ++ ".md", document),
        (result.outputId ++ ".json", lib.dumpsIndented (.obj result.structured) ++ ['\n'])]
  | .error (.schema _ task rawText lastError) => ∃ plan runtime e file, PlannedWith lib request τ plan runtime ∧
      Attempted lib request plan runtime (τ.filterMap callOf?) 2 rawText ∧ plan.task = task ∧
      acceptAnswer lib task rawText = .error e ∧ lastError = e.text ∧ τ.filterMap writtenOf? = [(file, rawText)]
  | .error (.structuredCancelled _ _) => False
  | .error (.structuredProbeError _) => False
  | .error (.other _) => True

/-- Whatever the surroundings answer, a run ends so. -/
theorem generateText_result (h : Follows (generateText lib generator request observed) τ r) :
    ResultKept lib request τ r := by
  by_cases hr : ∃ e, r = .error (.other e)
  · rcases hr with ⟨e, rfl⟩
    trivial
  have hr : ∀ e, r ≠ .error (.other e) := fun e he => hr ⟨e, he⟩
  cases textRun_of_follows h with
  | noLease hnone => exact absurd rfl (hr _)
  | broken hplan hheld =>
    cases hheld with
    | noGenerate h => exact absurd rfl (hr _)
    | firstRaised hasked h => exact absurd rfl (hr _)
    | secondRaised hasked hrefuse hbetween h => exact absurd rfl (hr _)
  | @finished manifest plan runtime held after leased r hplan hheld hafter =>
    have hnoFile := filterMap_writtenOf?_of_leased hheld.leased
    have hnoCall := filterMap_callOf?_of_apart (hafter.forall_of_uses (finishText_uses leased))
    have hcalls : List.filterMap callOf? (⟨.getManifest, .ok manifest⟩ :: ⟨.acquireRuntime, .ok runtime⟩ ::
        (held ++ ⟨.release false, ()⟩ :: after)) = held.filterMap callOf? := by
      simp [List.filterMap_cons, List.filterMap_append, hnoCall, callOf?]
    have hfiles : List.filterMap writtenOf? (⟨.getManifest, .ok manifest⟩ :: ⟨.acquireRuntime, .ok runtime⟩ ::
        (held ++ ⟨.release false, ()⟩ :: after)) = after.filterMap writtenOf? := by
      simp [List.filterMap_cons, List.filterMap_append, hnoFile, writtenOf?]
    have hplanned : PlannedWith lib request (⟨.getManifest, .ok manifest⟩ :: ⟨.acquireRuntime, .ok runtime⟩ ::
        (held ++ ⟨.release false, ()⟩ :: after)) plan runtime := ⟨manifest, _, rfl, hplan⟩
    rcases leased with ⟨runtime', stop | stop | ⟨rawText, lastError, late⟩ | ⟨answer, late⟩⟩
    · exact absurd (follows_raise.1 hafter).2 (hr _)
    · exact absurd (follows_raise.1 hafter).2 (hr _)
    · rw [finishText] at hafter
      cases hlate : stopError late with
      | some e =>
        rw [hlate] at hafter
        exact absurd (follows_raise.1 hafter).2 (hr _)
      | none =>
        rw [hlate] at hafter
        rcases follows_writeRawResponse hr hafter with ⟨file, written, τ', hτ, hwritten, hraise⟩
        rcases follows_raise.1 hraise with ⟨hτ', hr⟩
        rcases hheld.rejected_calls with ⟨hattempted, e, hrefuse, hlastError⟩
        rw [hr]
        refine ⟨plan, runtime, e, file, hplanned, hcalls ▸ hattempted, rfl, hrefuse, hlastError, ?_⟩
        rw [hfiles, hτ, hτ', List.append_nil, hwritten]
    · rw [finishText] at hafter
      cases hlate : stopError late with
      | some e =>
        rw [hlate] at hafter
        exact absurd (follows_raise.1 hafter).2 (hr _)
      | none =>
        rw [hlate] at hafter
        rcases follows_writeAnswer hr hafter with ⟨result, document, hr, hstructured, hattempts, hdocument, hwritten⟩
        rcases hheld.answered with ⟨hattempted, haccept⟩
        rw [hr]
        refine ⟨plan, runtime, answer.rawText, document, hplanned, ?_, ?_, ?_, ?_⟩
        · rw [hcalls, hattempts]
          exact hattempted
        · rw [hstructured]
          exact haccept
        · rw [hstructured]
          exact hdocument
        · rw [hfiles, hstructured]
          exact hwritten

/-- The second answer of the run with a repair is what its files hold. -/
theorem generateText_result_repairedRun : ResultKept smallWriter proseRequest repairedRun.1 repairedRun.2 ∧
    repairedRun.2.toOption.map TextResult.generationAttempts = some 2 ∧
    (repairedRun.1.filterMap writtenOf?).map Prod.fst =
      ["txt_0123456789abcdef0123456789abcdef.md", "txt_0123456789abcdef0123456789abcdef.json"] :=
  ⟨generateText_result follows_repairedRun, repairedRun_events.2.2.2, repairedRun_events.2.2.1⟩

end
end CreativeStudio.Generators
