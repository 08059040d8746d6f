import CreativeStudio.Story.TextUtils
import CreativeStudio.Story.VisualManifest

/-!
# The strategy of a visual request

How the visual of a scene is produced: what the scene asks for is tried first, and then the strategies
in a fixed order, until one is neither missing a capability nor over the budget.
-/

namespace CreativeStudio.Story
open Data

inductive VisualStrategy
  | still | kenBurns | textToVideo | imageToVideo
  deriving DecidableEq, Repr

namespace VisualStrategy

def text : VisualStrategy → String
  | still => "still"
  | kenBurns => "ken_burns"
  | textToVideo => "text_to_video"
  | imageToVideo => "image_to_video"

/-- `VISUAL_STRATEGIES`. -/
def all : List VisualStrategy := [still, kenBurns, textToVideo, imageToVideo]

/-- The strategy that a text names. -/
def ofText? (name : String) : Option VisualStrategy := all.find? fun strategy => strategy.text = name

/-- `STRATEGY_FALLBACK_ORDER`. -/
def fallbackOrder : List VisualStrategy := [textToVideo, imageToVideo, kenBurns, still]

theorem mem_fallbackOrder (strategy : VisualStrategy) : strategy ∈ fallbackOrder := by cases strategy <;> decide

theorem nodup_fallbackOrder : fallbackOrder.Nodup := by decide

end VisualStrategy

open VisualStrategy

/-- `_INTENT_ALIASES`. -/
def intentAliases : Dict VisualStrategy :=
  [("still", still), ("static", still), ("photo", still), ("single image", still), ("ken burns", kenBurns),
    ("pan", kenBurns), ("push in", kenBurns), ("zoom", kenBurns), ("motion", kenBurns), ("video", textToVideo),
    ("text to video", textToVideo), ("generated video", textToVideo), ("cinematic", textToVideo),
    ("t2v", textToVideo), ("animate", imageToVideo), ("image to video", imageToVideo), ("i2v", imageToVideo)]

/-- `normalize_visual_intent`. -/
def normalizeVisualIntent (lib : TextLibrary) (rawIntent : String) : Option VisualStrategy :=
  let text := lib.lower (strip rawIntent)
  if text = "" then none
  else
    let spaced := text.toList.map fun c => if c = '_' ∨ c = '-' then ' ' else c
    let words := (splitWords spaced).map String.ofList
    ((ofText? text).or (ofText? ("_".intercalate words))).or (intentAliases.get? (" ".intercalate words))

/-- Which visual-generation capabilities the environment can serve. -/
structure VisualCapabilities where
  imageGenerationReady : Bool := false
  textToVideoReady : Bool := false
  imageToVideoReady : Bool := false
  deriving DecidableEq, Repr

/-- Local limits that can veto a supported strategy. -/
structure VisualResourceBudget where
  allowTextToVideo : Bool := true
  allowImageToVideo : Bool := true
  maxVideoDurationSeconds : Option PyFloat := none
  deriving DecidableEq, Repr

/-- The chosen strategy, and why. -/
structure VisualStrategyDecision where
  strategy : VisualStrategy
  rationale : String
  requestedStrategy : Option VisualStrategy
  considered : List VisualStrategy
  deriving DecidableEq, Repr

/-- `VisualStrategyUnavailableError`. -/
structure VisualStrategyUnavailable where
  request : SceneVisualRequest
  capabilities : VisualCapabilities
  budget : VisualResourceBudget
  considered : List VisualStrategy
  deriving DecidableEq, Repr

/-- `str` of a bool. -/
def boolText (b : Bool) : String := if b then "True" else "False"

/-- The names of some strategies. -/
def namesText (strategies : List VisualStrategy) : String := ", ".intercalate (strategies.map VisualStrategy.text)

/-- `str(exc)`, given the text of a float. -/
def VisualStrategyUnavailable.text (floatText : PyFloat → String) (exc : VisualStrategyUnavailable) : String :=
  s!"No visual strategy is usable for scene '{exc.request.sceneId}': tried {namesText exc.considered}; " ++
    "capabilities=\x7b'image_generation_ready': " ++ boolText exc.capabilities.imageGenerationReady ++
    ", 'text_to_video_ready': " ++ boolText exc.capabilities.textToVideoReady ++
    ", 'image_to_video_ready': " ++ boolText exc.capabilities.imageToVideoReady ++
    "\x7d, budget=\x7b'allow_text_to_video': " ++ boolText exc.budget.allowTextToVideo ++
    ", 'allow_image_to_video': " ++ boolText exc.budget.allowImageToVideo ++
    ", 'max_video_duration_seconds': " ++ (exc.budget.maxVideoDurationSeconds.elim "None" floatText) ++ "\x7d."

/-- `x > y`, which does not hold of NaN. -/
def floatExceeds (x : PyFloat) : PyFloat → Bool
  | .finite bound => x.exceeds bound
  | .posInf | .nan => false
  | .negInf => x ≠ .negInf ∧ x ≠ .nan

/-- The flags of `_STRATEGY_REQUIREMENTS`. -/
def requirements (capabilities : VisualCapabilities) : VisualStrategy → List Bool
  | still | kenBurns => [capabilities.imageGenerationReady]
  | imageToVideo => [capabilities.imageGenerationReady, capabilities.imageToVideoReady]
  | textToVideo => [capabilities.textToVideoReady]

/-- `_capability_blocks`. -/
def capabilityBlocks (strategy : VisualStrategy) (capabilities : VisualCapabilities) : Bool :=
  !(requirements capabilities strategy).all id

/-- `_budget_blocks`. -/
def budgetBlocks (strategy : VisualStrategy) (request : SceneVisualRequest) (budget : VisualResourceBudget) : Bool :=
  if strategy = textToVideo ∧ !budget.allowTextToVideo then true
  else if strategy = imageToVideo ∧ !budget.allowImageToVideo then true
  else strategy ∈ [textToVideo, imageToVideo] &&
    budget.maxVideoDurationSeconds.any (floatExceeds request.durationSeconds)

/-- `_candidate_order`. -/
def candidateOrder : Option VisualStrategy → List VisualStrategy
  | none => fallbackOrder
  | some requested => requested :: fallbackOrder.filter fun strategy => strategy ≠ requested

/-- `_rationale`. -/
def rationale (strategy : VisualStrategy) (requested : Option VisualStrategy) (considered : List VisualStrategy) :
    String :=
  let rejected := considered.dropLast
  match requested with
  | none =>
    if rejected = [] then s!"No visual intent stated; selected '{strategy.text}', first in the safe fallback order."
    else s!"No visual intent stated; selected '{strategy.text}' after {namesText rejected} were unavailable in this " ++
      "environment."
  | some requested =>
    if strategy = requested then s!"Scene requested '{requested.text}' and it is supported here; selected as-is."
    else s!"Scene requested '{requested.text}', which is unavailable here ({namesText rejected}); " ++
      s!"fell back to '{strategy.text}'."

section
variable (request : SceneVisualRequest) (capabilities : VisualCapabilities) (budget : VisualResourceBudget)

/-- The loop of `select_visual_strategy`, with what it has considered. -/
def selectFrom (requested : Option VisualStrategy) (considered : List VisualStrategy) :
    List VisualStrategy → Except VisualStrategyUnavailable VisualStrategyDecision
  | [] => .error { request, capabilities, budget, considered }
  | strategy :: rest =>
    if capabilityBlocks strategy capabilities ∨ budgetBlocks strategy request budget then
      selectFrom requested (considered ++ [strategy]) rest
    else .ok {
      strategy
      rationale := rationale strategy requested (considered ++ [strategy])
      requestedStrategy := requested
      considered := considered ++ [strategy] }

/-- `select_visual_strategy`. -/
def selectVisualStrategy (lib : TextLibrary) : Except VisualStrategyUnavailable VisualStrategyDecision :=
  let requested := normalizeVisualIntent lib request.visualIntent
  selectFrom request capabilities budget requested [] (candidateOrder requested)

/-- The strategy can produce the visual here. -/
def Usable (strategy : VisualStrategy) : Prop :=
  capabilityBlocks strategy capabilities = false ∧ budgetBlocks strategy request budget = false

instance (strategy : VisualStrategy) : Decidable (Usable request capabilities budget strategy) :=
  inferInstanceAs (Decidable (_ ∧ _))

end

section
variable {request : SceneVisualRequest} {capabilities capabilities' : VisualCapabilities}
  {budget budget' : VisualResourceBudget} {requested : Option VisualStrategy}
  {considered candidates : List VisualStrategy}
  {decision decision' : VisualStrategyDecision} {lib : TextLibrary}

theorem mem_candidateOrder (requested : Option VisualStrategy) (strategy : VisualStrategy) :
    strategy ∈ candidateOrder requested := by
  cases requested with
  | none => exact mem_fallbackOrder strategy
  | some requested =>
    by_cases h : strategy = requested
    · exact List.mem_cons.mpr (.inl h)
    · exact List.mem_cons_of_mem _ (List.mem_filter.mpr ⟨mem_fallbackOrder strategy, by simpa using h⟩)

/-- The first candidate that is usable is chosen. -/
theorem selectFrom_eq_ok : selectFrom request capabilities budget requested considered candidates = .ok decision ↔
    ∃ rejected strategy rest, candidates = rejected ++ strategy :: rest ∧
      (∀ other ∈ rejected, ¬Usable request capabilities budget other) ∧
      Usable request capabilities budget strategy ∧ decision = {
        strategy
        rationale := rationale strategy requested (considered ++ rejected ++ [strategy])
        requestedStrategy := requested
        considered := considered ++ rejected ++ [strategy] } := by
  induction candidates generalizing considered with
  | nil => simp [selectFrom]
  | cons first candidates ih =>
    rw [selectFrom]
    split
    next hblocked =>
      have hnot : ¬Usable request capabilities budget first := by
        rintro ⟨hcapable, hbudget⟩
        rw [hcapable, hbudget] at hblocked
        simp at hblocked
      rw [ih]
      constructor
      · rintro ⟨rejected, strategy, rest, rfl, hrejected, hstrategy, rfl⟩
        refine ⟨first :: rejected, strategy, rest, rfl, List.forall_mem_cons.mpr ⟨hnot, hrejected⟩, hstrategy, ?_⟩
        simp
      · rintro ⟨rejected, strategy, rest, hsplit, hrejected, hstrategy, rfl⟩
        cases rejected with
        | nil =>
          obtain ⟨rfl, -⟩ := List.cons.inj hsplit
          exact absurd hstrategy hnot
        | cons other rejected =>
          obtain ⟨rfl, rfl⟩ := List.cons.inj hsplit
          exact ⟨rejected, strategy, rest, rfl, (List.forall_mem_cons.mp hrejected).2, hstrategy, by simp⟩
    next hfree =>
      have husable : Usable request capabilities budget first := by simpa [Usable] using hfree
      constructor
      · intro h
        obtain rfl := Except.ok.inj h
        exact ⟨[], first, candidates, rfl, nofun, husable, by simp⟩
      · rintro ⟨rejected, strategy, rest, hsplit, hrejected, -, rfl⟩
        cases rejected with
        | nil =>
          obtain ⟨rfl, -⟩ := List.cons.inj hsplit
          simp
        | cons other rejected =>
          obtain ⟨rfl, -⟩ := List.cons.inj hsplit
          exact absurd husable (hrejected first (by simp))

/-- A strategy is chosen if any of the candidates is usable. -/
theorem exists_selectFrom_iff :
    (∃ decision, selectFrom request capabilities budget requested considered candidates = .ok decision) ↔
      ∃ strategy ∈ candidates, Usable request capabilities budget strategy := by
  constructor
  · rintro ⟨decision, h⟩
    obtain ⟨rejected, strategy, rest, rfl, -, hstrategy, -⟩ := selectFrom_eq_ok.mp h
    exact ⟨strategy, by simp, hstrategy⟩
  · rintro ⟨strategy, hmem, hstrategy⟩
    induction candidates generalizing considered with
    | nil => cases hmem
    | cons first candidates ih =>
      rw [selectFrom]
      split
      next hblocked =>
        rcases List.mem_cons.mp hmem with rfl | hrest
        · rw [hstrategy.1, hstrategy.2] at hblocked
          simp at hblocked
        · exact ih hrest
      next => exact ⟨_, rfl⟩

/-- The pan over a still needs nothing but the still. -/
theorem usable_kenBurns : Usable request capabilities budget kenBurns ↔ capabilities.imageGenerationReady := by
  simp [Usable, capabilityBlocks, requirements, budgetBlocks]

theorem imageGenerationReady_of_usable {strategy : VisualStrategy} (h : Usable request capabilities budget strategy)
    (hother : strategy ≠ textToVideo) : capabilities.imageGenerationReady := by
  have hcapable := h.1
  cases strategy with
  | textToVideo => exact absurd rfl hother
  | still | kenBurns | imageToVideo =>
    simp only [capabilityBlocks, requirements] at hcapable
    simp_all

theorem exists_usable_iff : (∃ strategy, Usable request capabilities budget strategy) ↔
    capabilities.imageGenerationReady ∨ Usable request capabilities budget textToVideo := by
  constructor
  · rintro ⟨strategy, h⟩
    by_cases hstrategy : strategy = textToVideo
    · exact .inr (hstrategy ▸ h)
    · exact .inl (imageGenerationReady_of_usable h hstrategy)
  · rintro (hready | h)
    · exact ⟨kenBurns, usable_kenBurns.mpr hready⟩
    · exact ⟨textToVideo, h⟩

/-- What becomes usable can only come earlier. -/
theorem considered_isPrefix (h : selectFrom request capabilities budget requested [] candidates = .ok decision)
    (h' : selectFrom request capabilities' budget' requested [] candidates = .ok decision')
    (hmore : ∀ strategy, Usable request capabilities budget strategy → Usable request capabilities' budget' strategy) :
    decision'.considered <+: decision.considered := by
  obtain ⟨rejected, strategy, rest, hsplit, -, hstrategy, rfl⟩ := selectFrom_eq_ok.mp h
  obtain ⟨rejected', strategy', rest', hsplit', hrejected', -, rfl⟩ := selectFrom_eq_ok.mp h'
  simp only [List.nil_append]
  have hprefix : rejected ++ [strategy] <+: candidates := ⟨rest, by rw [hsplit]; simp⟩
  have hprefix' : rejected' ++ [strategy'] <+: candidates := ⟨rest', by rw [hsplit']; simp⟩
  rcases List.prefix_or_prefix_of_prefix hprefix' hprefix with hdone | hlonger
  · exact hdone
  · rcases List.prefix_concat_iff.mp hlonger with heq | hshort
    · exact heq ▸ List.prefix_rfl
    · -- the strategy that was usable before would have been rejected
      have hmem : strategy ∈ rejected' := hshort.subset (by simp)
      exact absurd (hmore strategy hstrategy) (hrejected' strategy hmem)

end

end CreativeStudio.Story
