import CreativeStudio.Generators.ResponseModels

/-!
# The documents of the story tasks

A valid response is written as a markdown document. The renderers index the payload and call methods
of what they find, so they may raise; on a response that passed its schema they do not.
-/

namespace CreativeStudio.Generators
open Data Story Shape

section
variable (lib : ValueLibrary)

/-- `entry[key]`. -/
def member (entry : Dict Value) (key : String) : Except Exc Value :=
  match entry.get? key with
  | some value => .ok value
  | none => .error (.other s!"'{key}'")

/-- An entry that is indexed. -/
def asEntry : Value → Except Exc (Dict Value)
  | .obj entry => .ok entry
  | value => .error (.other s!"'{typeName value}' object is not subscriptable")

/-- The dictionaries of `payload[key]`. -/
def memberEntries (payload : Dict Value) (key : String) : Except Exc (List (Dict Value)) := do
  match ← member payload key with
  | .arr items => items.mapM asEntry
  | value => throw (.other s!"'{typeName value}' object is not iterable")

/-- A value that is used as a text. -/
def asText : Value → Except Exc String
  | .str s => .ok s
  | value => .error (.other s!"sequence item: expected str instance, {typeName value} found")

/-- `f"{entry[key]}"`. -/
def shown (entry : Dict Value) (key : String) : Except Exc Text := do
  return (lib.str (← member entry key)).toList

/-- `entry.get(key)`, if it is true. -/
def present (entry : Dict Value) (key : String) : Option Value := (entry.get? key).filter JsonOf.truthy

/-- The line of an optional field: what is before it and after it. -/
def presentLine (entry : Dict Value) (key : String) (before after : String) : List Text :=
  ((present entry key).map fun value => before.toList ++ (lib.str value).toList ++ after.toList).toList

/-- The paragraph of an optional text. -/
def presentParagraph (entry : Dict Value) (key : String) : Except Exc (List Text) :=
  match present entry key with
  | some value => do return [(← asText value).toList, []]
  | none => .ok []

/-- `"\n".join(lines).rstrip() + "\n"`. -/
def document (lines : List Text) : Text := rstrip (joinLines lines) ++ ['\n']

/-- The lines of the entries, which are numbered from one. -/
def numberedLines (entries : List (Dict Value)) (lines : ℕ → Dict Value → Except Exc (List Text)) :
    Except Exc (List Text) := do
  return (← (entries.zipIdx 1).mapM fun entry => lines entry.2 entry.1).flatten

/-- The lines of a logline. -/
def loglineLines (index : ℕ) (entry : Dict Value) : Except Exc (List Text) := do
  return [s!"{index}. ".toList ++ (← shown lib entry "text")] ++ presentLine lib entry "hook" "   - hook: " "" ++
    presentLine lib entry "tone" "   - tone: " "" ++ [[]]

/-- `_render_logline`. -/
def renderLogline (payload : Dict Value) : Except Exc Text := do
  let lines ← numberedLines (← memberEntries payload "loglines") (loglineLines lib)
  return document (["# Loglines".toList, []] ++ lines)

/-- The lines of a beat. -/
def beatLines (index : ℕ) (beat : Dict Value) : Except Exc (List Text) := do
  return [s!"## {index}. ".toList ++ (← shown lib beat "act"), [], "- purpose: ".toList ++ (← shown lib beat "purpose"),
    "- ".toList ++ (← shown lib beat "summary"), []]

/-- `_render_beat_sheet`. -/
def renderBeatSheet (payload : Dict Value) : Except Exc Text := do
  let lines ← numberedLines (← memberEntries payload "beats") (beatLines lib)
  return document (["# Beat Sheet".toList, []] ++ lines)

/-- `float(scene.get("duration_seconds", 0))`. -/
def sceneSeconds (scene : Dict Value) : Except Exc PyFloat :=
  let value := (scene.get? "duration_seconds").getD (.int 0)
  match toPyFloat lib value with
  | .ok x => .ok x
  | .error .unreadable => .error (.value s!"could not convert to float: {lib.repr value}")
  | .error .overflow => .error (.other "int too large to convert to float")

/-- `scene.get(key, "")`, printed. -/
def cell (scene : Dict Value) (key : String) : Text := (lib.str ((scene.get? key).getD (.str ""))).toList

/-- The row of a scene. -/
def sceneRow (index : ℕ) (scene : Dict Value) : Except Exc (List Text) := do
  let heading ← shown lib scene "heading"
  let seconds ← sceneSeconds lib scene
  return [s!"| {index} | ".toList ++ heading ++ s!" | {lib.general seconds} | ".toList ++ cell lib scene "bgm_mood" ++
    " | ".toList ++ cell lib scene "camera" ++ " |".toList]

/-- The section of a scene. -/
def sceneSection (index : ℕ) (scene : Dict Value) : Except Exc (List Text) := do
  let heading ← shown lib scene "heading"
  let summary ← presentParagraph scene "summary"
  let narration := ((present scene "narration").map fun value =>
    ["**Narration**: ".toList ++ (lib.str value).toList, []]).getD []
  let imagePrompt ← shown lib scene "image_prompt"
  return [s!"## {index}. ".toList ++ heading, []] ++ summary ++ narration ++
    ["**Image prompt**: `".toList ++ imagePrompt ++ ['`']] ++
    presentLine lib scene "image_negative" "**Negative**: `" "`" ++ [[]]

/-- `_render_scene_list`. -/
def renderSceneList (payload : Dict Value) : Except Exc Text := do
  let scenes ← memberEntries payload "scenes"
  let seconds ← scenes.mapM (sceneSeconds lib)
  let total := seconds.foldl (· + ·) (.finite 0)
  let rows ← numberedLines scenes (sceneRow lib)
  let sections ← numberedLines scenes (sceneSection lib)
  return document (["# Scene List".toList, [], s!"{scenes.length} scenes, {lib.general total} seconds total.".toList, [],
    "| # | heading | seconds | bgm | camera |".toList, "| --- | --- | --- | --- | --- |".toList] ++ rows ++ [[]] ++
    sections)

/-- `_render_prose`. -/
def renderProse (payload : Dict Value) : Except Exc Text := do
  let title := ((present payload "title").map fun value => (lib.str value).toList).getD "Chapter".toList
  let prose ← asText (← member payload "prose_markdown")
  return "# ".toList ++ title ++ "\n\n".toList ++ stripText prose.toList ++ ['\n']

/-- The lines of a spoken line. -/
def spokenLines (_ : ℕ) (entry : Dict Value) : Except Exc (List Text) := do
  let direction := ((present entry "direction").map fun value => " *(".toList ++ (lib.str value).toList ++ ")*".toList).getD []
  return ["**".toList ++ (← shown lib entry "speaker") ++ "**".toList ++ direction ++ ": ".toList ++
    (← shown lib entry "text"), []]

/-- `_render_script`. -/
def renderScript (payload : Dict Value) : Except Exc Text := do
  let lines ← numberedLines (← memberEntries payload "lines") (spokenLines lib)
  return document (["# Script".toList, []] ++ lines)

/-- The lines of a prompt. -/
def variantLines (index : ℕ) (entry : Dict Value) : Except Exc (List Text) := do
  return [s!"## {index}. ".toList ++ (← shown lib entry "label"), [],
    "- prompt: `".toList ++ (← shown lib entry "prompt") ++ ['`']] ++
    presentLine lib entry "negative_prompt" "- negative: `" "`" ++ [[]]

/-- `_render_prompt_pack`. -/
def renderPromptPack (payload : Dict Value) : Except Exc Text := do
  let lines ← numberedLines (← memberEntries payload "prompts") (variantLines lib)
  return document (["# Prompt Pack".toList, []] ++ lines)

/-- The tokens of a character. -/
def tokenLine (payload : Dict Value) : Except Exc (List Text) :=
  match present payload "tokens" with
  | some (.arr tokens) => do
    let texts ← tokens.mapM asText
    return ["- tokens: ".toList ++ (", ".intercalate texts).toList]
  | some value => .error (.other s!"can only join an iterable, not {typeName value}")
  | none => .ok []

/-- The table of the attributes, sorted by slot. -/
def attributeLines (payload : Dict Value) : Except Exc (List Text) :=
  match present payload "attributes" with
  | some (.obj attributes) => .ok ([[], "| attribute | value |".toList, "| --- | --- |".toList] ++
      (Dict.sortByName attributes).map fun slot => "| ".toList ++ slot.1.toList ++ " | ".toList ++
        (lib.str slot.2).toList ++ " |".toList)
  | some value => .error (.other s!"'{typeName value}' object is not subscriptable")
  | none => .ok []

/-- `_render_character_sheet`. -/
def renderCharacterSheet (payload : Dict Value) : Except Exc Text := do
  let name ← shown lib payload "name"
  let summary ← presentParagraph payload "summary"
  let fragment ← shown lib payload "prompt_fragment"
  let tokens ← tokenLine payload
  let attributes ← attributeLines lib payload
  return document (["# ".toList ++ name, []] ++ summary ++ ["- prompt fragment: `".toList ++ fragment ++ ['`']] ++
    presentLine lib payload "negative_fragment" "- negative fragment: `" "`" ++ tokens ++ attributes ++ [[]])

/-- `task.render_markdown(structured)`. -/
def renderMarkdown : StoryTask → Dict Value → Except Exc Text
  | .logline => renderLogline lib
  | .beatSheet => renderBeatSheet lib
  | .sceneList => renderSceneList lib
  | .prose => renderProse lib
  | .script => renderScript lib
  | .promptPack => renderPromptPack lib
  | .characterSheet => renderCharacterSheet lib

end

/-! ## Valid responses are rendered -/

section
variable {lib : ValueLibrary} {entry payload structured members : Dict Value}

theorem member_eq_ok {key : String} {value : Value} (h : entry.get? key = some value) : member entry key = .ok value := by
  rw [member, h]

theorem exists_shown {key : String} (h : ∃ value, entry.get? key = some value) : ∃ text, shown lib entry key = .ok text := by
  rcases h with ⟨value, hvalue⟩
  exact ⟨_, bind_eq_ok.2 ⟨value, member_eq_ok hvalue, rfl⟩⟩

theorem memberEntries_eq_ok {key : String} {items : List (Dict Value)}
    (h : payload.get? key = some (.arr (items.map .obj))) : memberEntries payload key = .ok items := by
  refine bind_eq_ok.2 ⟨_, member_eq_ok h, ?_⟩
  apply mapM_eq_ok_iff.2
  rw [List.forall₂_map_left_iff]
  exact List.forall₂_same.2 fun item _ => rfl

theorem exists_numberedLines {items : List (Dict Value)} {lines : ℕ → Dict Value → Except Exc (List Text)}
    (h : ∀ item ∈ items, ∀ index, ∃ texts, lines index item = .ok texts) :
    ∃ texts, numberedLines items lines = .ok texts := by
  have hall : ∃ texts, ((items.zipIdx 1).mapM fun entry => lines entry.2 entry.1) = .ok texts := by
    apply exists_mapM_ok_iff.2
    intro item hitem
    exact h item.1 (List.fst_mem_of_mem_zipIdx hitem) item.2
  rcases hall with ⟨texts, htexts⟩
  exact ⟨_, bind_eq_ok.2 ⟨texts, htexts, rfl⟩⟩

/-- A field of a valid entry is there. -/
theorem shown_of_valid {fields : List (String × Option Value × Shape)}
    (h : validateFields lib fields members = some entry) (field : String × Option Value × Shape)
    (hnames : (fields.map Prod.fst).Nodup) (hfield : field ∈ fields) :
    ∃ text, shown lib entry field.1 = .ok text :=
  exists_shown ((exists_get?_validateFields h hnames hfield).imp fun _ hvalue => hvalue.1)

/-- The optional text of a valid entry is a text. -/
theorem presentParagraph_of_valid {fields : List (String × Option Value × Shape)}
    (h : validateFields lib fields members = some entry) (key : String) (hnames : (fields.map Prod.fst).Nodup)
    (hfield : blankText key ∈ fields) : ∃ texts, presentParagraph entry key = .ok texts := by
  rcases @get?_of_dumped lib (fun value => ∃ s, value = .str s) _ _ _ h hnames _ _ _ hfield
    (by rintro value ⟨⟩; exact ⟨_, rfl⟩) (fun raw value => validate_str_eq_some) with ⟨value, hget, s, rfl⟩
  rw [presentParagraph, present, hget]
  by_cases htrue : JsonOf.truthy (.str s : Value)
  · rw [Option.filter_some_pos htrue]
    exact ⟨_, rfl⟩
  · rw [Option.filter_some_neg (by simpa using htrue)]
    exact ⟨_, rfl⟩

/-- The entries of a valid payload are rendered, if a valid entry is. -/
theorem numberedLines_of_valid {fields item : List (String × Option Value × Shape)} {name : String}
    (lines : ℕ → Dict Value → Except Exc (List Text)) (h : validateFields lib fields payload = some structured)
    (hnames : (fields.map Prod.fst).Nodup) (hfield : required name (.list true (.model item)) ∈ fields)
    (hlines : ∀ members entry index, validateFields lib item members = some entry → ∃ texts, lines index entry = .ok texts) :
    ∃ items texts, memberEntries structured name = .ok items ∧ numberedLines items lines = .ok texts := by
  rcases exists_listed h hnames hfield with ⟨items, hget, -, hall⟩
  have hnumbered : ∃ texts, numberedLines items lines = .ok texts := by
    apply exists_numberedLines
    intro entry hentry index
    rcases hall entry hentry with ⟨members, hmembers⟩
    exact hlines members entry index hmembers
  rcases hnumbered with ⟨texts, htexts⟩
  exact ⟨items, texts, memberEntries_eq_ok hget, htexts⟩

theorem renderLogline_of_valid (h : validateResponse lib .logline payload = some structured) :
    ∃ text, renderLogline lib structured = .ok text := by
  rcases numberedLines_of_valid (loglineLines lib) ((validateResponse_eq_some rfl).1 h) (by decide)
    List.mem_cons_self (by
      intro members entry index hvalid
      rcases shown_of_valid hvalid _ (by decide) List.mem_cons_self with ⟨text, htext⟩
      exact ⟨_, bind_eq_ok.2 ⟨text, htext, rfl⟩⟩) with ⟨items, texts, hitems, htexts⟩
  exact ⟨_, bind_eq_ok.2 ⟨items, hitems, bind_eq_ok.2 ⟨texts, htexts, rfl⟩⟩⟩

theorem renderBeatSheet_of_valid (h : validateResponse lib .beatSheet payload = some structured) :
    ∃ text, renderBeatSheet lib structured = .ok text := by
  rcases numberedLines_of_valid (beatLines lib) ((validateResponse_eq_some rfl).1 h) (by decide)
    List.mem_cons_self (by
      intro members entry index hvalid
      rcases shown_of_valid hvalid (required "act" .str) (by decide) (by simp) with ⟨act, hact⟩
      rcases shown_of_valid hvalid (required "purpose" .str) (by decide) (by simp) with ⟨purpose, hpurpose⟩
      rcases shown_of_valid hvalid (required "summary" .str) (by decide) (by simp) with ⟨summary, hsummary⟩
      exact ⟨_, bind_eq_ok.2 ⟨act, hact, bind_eq_ok.2 ⟨purpose, hpurpose, bind_eq_ok.2 ⟨summary, hsummary, rfl⟩⟩⟩⟩)
    with ⟨items, texts, hitems, htexts⟩
  exact ⟨_, bind_eq_ok.2 ⟨items, hitems, bind_eq_ok.2 ⟨texts, htexts, rfl⟩⟩⟩

theorem renderScript_of_valid (h : validateResponse lib .script payload = some structured) :
    ∃ text, renderScript lib structured = .ok text := by
  rcases numberedLines_of_valid (spokenLines lib) ((validateResponse_eq_some rfl).1 h) (by decide)
    List.mem_cons_self (by
      intro members entry index hvalid
      rcases shown_of_valid hvalid (required "speaker" .str) (by decide) (by simp) with ⟨speaker, hspeaker⟩
      rcases shown_of_valid hvalid (required "text" .str) (by decide) (by simp) with ⟨text, htext⟩
      exact ⟨_, bind_eq_ok.2 ⟨speaker, hspeaker, bind_eq_ok.2 ⟨text, htext, rfl⟩⟩⟩)
    with ⟨items, texts, hitems, htexts⟩
  exact ⟨_, bind_eq_ok.2 ⟨items, hitems, bind_eq_ok.2 ⟨texts, htexts, rfl⟩⟩⟩

theorem renderPromptPack_of_valid (h : validateResponse lib .promptPack payload = some structured) :
    ∃ text, renderPromptPack lib structured = .ok text := by
  rcases numberedLines_of_valid (variantLines lib) ((validateResponse_eq_some rfl).1 h) (by decide)
    List.mem_cons_self (by
      intro members entry index hvalid
      rcases shown_of_valid hvalid (required "label" .str) (by decide) (by simp) with ⟨label, hlabel⟩
      rcases shown_of_valid hvalid (required "prompt" .str) (by decide) (by simp) with ⟨prompt, hprompt⟩
      exact ⟨_, bind_eq_ok.2 ⟨label, hlabel, bind_eq_ok.2 ⟨prompt, hprompt, rfl⟩⟩⟩)
    with ⟨items, texts, hitems, htexts⟩
  exact ⟨_, bind_eq_ok.2 ⟨items, hitems, bind_eq_ok.2 ⟨texts, htexts, rfl⟩⟩⟩

theorem sceneSeconds_of_valid (h : validateFields lib sceneFields members = some entry) :
    ∃ x, sceneSeconds lib entry = .ok x := by
  rcases exists_duration h with ⟨x, hget⟩
  refine ⟨x, ?_⟩
  rw [sceneSeconds, hget]
  rfl

theorem renderSceneList_of_valid (h : validateResponse lib .sceneList payload = some structured) :
    ∃ text, renderSceneList lib structured = .ok text := by
  have hfields := (validateResponse_eq_some rfl).1 h
  have hheading {members entry : Dict Value} (hvalid : validateFields lib sceneFields members = some entry) :=
    shown_of_valid hvalid (required "heading" .str) (by decide) (by simp [sceneFields])
  rcases exists_listed hfields (by decide) List.mem_cons_self with ⟨items, hget, -, hall⟩
  have hseconds : ∃ seconds, items.mapM (sceneSeconds lib) = .ok seconds := by
    apply exists_mapM_ok_iff.2
    intro item hitem
    rcases hall item hitem with ⟨members, hmembers⟩
    exact sceneSeconds_of_valid hmembers
  have hrows : ∃ rows, numberedLines items (sceneRow lib) = .ok rows := by
    apply exists_numberedLines
    intro item hitem index
    rcases hall item hitem with ⟨members, hmembers⟩
    rcases hheading hmembers with ⟨heading, hheading⟩
    rcases sceneSeconds_of_valid hmembers with ⟨x, hx⟩
    exact ⟨_, bind_eq_ok.2 ⟨heading, hheading, bind_eq_ok.2 ⟨x, hx, rfl⟩⟩⟩
  have hsections : ∃ sections, numberedLines items (sceneSection lib) = .ok sections := by
    apply exists_numberedLines
    intro item hitem index
    rcases hall item hitem with ⟨members, hmembers⟩
    rcases hheading hmembers with ⟨heading, hheading⟩
    rcases presentParagraph_of_valid hmembers "summary" (by decide) (by simp [sceneFields]) with
      ⟨summary, hsummary⟩
    rcases shown_of_valid hmembers (required "image_prompt" .str) (by decide) (by simp [sceneFields]) with
      ⟨prompt, hprompt⟩
    exact ⟨_, bind_eq_ok.2 ⟨heading, hheading, bind_eq_ok.2 ⟨summary, hsummary, bind_eq_ok.2 ⟨prompt, hprompt, rfl⟩⟩⟩⟩
  rcases hseconds with ⟨seconds, hseconds⟩
  rcases hrows with ⟨rows, hrows⟩
  rcases hsections with ⟨sections, hsections⟩
  exact ⟨_, bind_eq_ok.2 ⟨items, memberEntries_eq_ok hget, bind_eq_ok.2 ⟨seconds, hseconds,
    bind_eq_ok.2 ⟨rows, hrows, bind_eq_ok.2 ⟨sections, hsections, rfl⟩⟩⟩⟩⟩

theorem renderProse_of_valid (h : validateResponse lib .prose payload = some structured) :
    ∃ text, renderProse lib structured = .ok text := by
  rcases @get?_of_dumped lib (fun value => ∃ s, value = .str s) _ _ _ ((validateResponse_eq_some rfl).1 h) (by decide)
    "prose_markdown" none .str (by simp [required]) (by intro value hvalue; cases hvalue)
    (fun raw value => validate_str_eq_some) with ⟨value, hget, s, rfl⟩
  exact ⟨_, bind_eq_ok.2 ⟨_, member_eq_ok hget, rfl⟩⟩

/-- The tokens of a valid character are texts. -/
theorem tokenLine_of_valid (h : validateResponse lib .characterSheet payload = some structured) :
    ∃ texts, tokenLine structured = .ok texts := by
  have hlist : ∀ raw value, validate lib (.list false .str) raw = some value →
      ∃ tokens : List Value, value = .arr tokens ∧ ∀ token ∈ tokens, ∃ s, token = .str s := by
    intro raw value hvalue
    rcases validate_list_eq_some hvalue with ⟨values, ds, -, rfl, -, hds⟩
    refine ⟨ds, rfl, ?_⟩
    intro token htoken
    rcases (forall_of_mapM hds).2 token htoken with ⟨v, -, hv⟩
    exact validate_str_eq_some hv
  rcases @get?_of_dumped lib
    (fun value => ∃ tokens : List Value, value = .arr tokens ∧ ∀ token ∈ tokens, ∃ s, token = .str s) _ _ _
    ((validateResponse_eq_some rfl).1 h) (by decide) "tokens" (some (.arr [])) (.list false .str) (by simp)
    (by rintro value ⟨⟩; exact ⟨[], rfl, List.forall_mem_nil _⟩) hlist with ⟨value, hget, tokens, rfl, htokens⟩
  have htexts : ∃ texts, tokens.mapM asText = .ok texts := by
    apply exists_mapM_ok_iff.2
    intro token htoken
    rcases htokens token htoken with ⟨s, rfl⟩
    exact ⟨s, rfl⟩
  rcases htexts with ⟨texts, htexts⟩
  rw [tokenLine, present, hget]
  by_cases htrue : JsonOf.truthy (.arr tokens : Value)
  · rw [Option.filter_some_pos htrue]
    exact ⟨_, bind_eq_ok.2 ⟨texts, htexts, rfl⟩⟩
  · rw [Option.filter_some_neg (by simpa using htrue)]
    exact ⟨_, rfl⟩

/-- The attributes of a valid character are a dictionary. -/
theorem attributeLines_of_valid (h : validateResponse lib .characterSheet payload = some structured) :
    ∃ texts, attributeLines lib structured = .ok texts := by
  have hstrings : ∀ raw value, validate lib .strings raw = some value →
      ∃ attributes : Dict Value, value = .obj attributes := by
    intro raw value hvalue
    cases raw with
    | obj attributes =>
      rw [validate_strings] at hvalue
      split at hvalue
      · cases hvalue
        exact ⟨attributes, rfl⟩
      · cases hvalue
    | _ =>
      have hnone : none = some value := hvalue
      cases hnone
  rcases @get?_of_dumped lib (fun value => ∃ attributes : Dict Value, value = .obj attributes) _ _ _
    ((validateResponse_eq_some rfl).1 h) (by decide) "attributes" (some (.obj [])) .strings (by simp)
    (by rintro value ⟨⟩; exact ⟨[], rfl⟩) hstrings with ⟨value, hget, attributes, rfl⟩
  rw [attributeLines, present, hget]
  by_cases htrue : JsonOf.truthy (.obj attributes : Value)
  · rw [Option.filter_some_pos htrue]
    exact ⟨_, rfl⟩
  · rw [Option.filter_some_neg (by simpa using htrue)]
    exact ⟨_, rfl⟩

theorem renderCharacterSheet_of_valid (h : validateResponse lib .characterSheet payload = some structured) :
    ∃ text, renderCharacterSheet lib structured = .ok text := by
  have hfields := (validateResponse_eq_some rfl).1 h
  rcases shown_of_valid hfields _ (by decide) List.mem_cons_self with ⟨name, hname⟩
  rcases presentParagraph_of_valid hfields "summary" (by decide) (by simp) with ⟨summary, hsummary⟩
  rcases shown_of_valid hfields (required "prompt_fragment" .str) (by decide) (by simp) with ⟨fragment, hfragment⟩
  rcases tokenLine_of_valid h with ⟨tokens, htokens⟩
  rcases attributeLines_of_valid h with ⟨attributes, hattributes⟩
  exact ⟨_, bind_eq_ok.2 ⟨name, hname, bind_eq_ok.2 ⟨summary, hsummary, bind_eq_ok.2 ⟨fragment, hfragment,
    bind_eq_ok.2 ⟨tokens, htokens, bind_eq_ok.2 ⟨attributes, hattributes, rfl⟩⟩⟩⟩⟩⟩

/-- A response that passes the schema of its task is rendered. -/
theorem renderMarkdown_of_valid {task : StoryTask} (h : validateResponse lib task payload = some structured) :
    ∃ text, renderMarkdown lib task structured = .ok text := by
  cases task with
  | logline => exact renderLogline_of_valid h
  | beatSheet => exact renderBeatSheet_of_valid h
  | sceneList => exact renderSceneList_of_valid h
  | prose => exact renderProse_of_valid h
  | script => exact renderScript_of_valid h
  | promptPack => exact renderPromptPack_of_valid h
  | characterSheet => exact renderCharacterSheet_of_valid h

/-- A scene with what is required of it, and nothing else. -/
theorem renderMarkdown_of_valid_scene : ∃ structured text,
    validateResponse smallValues .sceneList [("scenes", .arr [.obj [("heading", .str "Pier"),
      ("image_prompt", .str "a pier in the rain")]])] = some structured ∧
      renderMarkdown smallValues .sceneList structured = .ok text := by
  have hvalid : (validateResponse smallValues .sceneList [("scenes", .arr [.obj [("heading", .str "Pier"),
      ("image_prompt", .str "a pier in the rain")]])]).isSome := rfl
  rcases Option.isSome_iff_exists.1 hvalid with ⟨structured, hstructured⟩
  rcases renderMarkdown_of_valid hstructured with ⟨text, htext⟩
  exact ⟨structured, text, hstructured, htext⟩

end
end CreativeStudio.Generators
