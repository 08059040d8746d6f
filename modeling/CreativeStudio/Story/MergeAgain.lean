import CreativeStudio.Story.Structure

/-!
# Applying a result again

What a merge writes is matched by the merge that follows, so that the second changes nothing.
Prose without a title matches nothing, and is written once more.
-/

namespace CreativeStudio.Story
open Data Storage

section
variable {lib : ValueLibrary} {text : TextLibrary} {story once : StoryDocument} {structured : Dict Value}

theorem addSource_addSource (jobs : List JobId) (job : Option JobId) :
    addSource (addSource jobs job) job = addSource jobs job := by
  cases job with
  | none => rfl
  | some job =>
    have hmem : job ∈ addSource jobs (some job) := by
      by_cases h : job ∈ jobs
      · rw [addSource, if_pos h]
        exact h
      · rw [addSource, if_neg h]
        exact List.mem_append_right _ List.mem_cons_self
    exact if_pos hmem

theorem mergeLogline_again (h : mergeLogline lib story structured = .ok once) :
    mergeLogline lib once structured = .ok once := by
  obtain ⟨candidates, hraw, rfl⟩ := mergeLogline_eq_ok.mp h
  exact mergeLogline_eq_ok.mpr ⟨candidates, hraw, by rw [Dict.set_set]⟩

theorem mergeBeatSheet_again (h : mergeBeatSheet lib story structured = .ok once) :
    mergeBeatSheet lib once structured = .ok once := by
  obtain ⟨rawBeats, hraw, rfl⟩ := mergeBeatSheet_eq_ok.mp h
  exact mergeBeatSheet_eq_ok.mpr ⟨rawBeats, hraw, rfl⟩

/-- The scenes that a list has made are in their places, and hand on what they were handed. -/
theorem mergeSceneList_again (h : mergeSceneList lib story structured = .ok once) :
    mergeSceneList lib once structured = .ok once := by
  have hplaced := scenesInPlace_mergeSceneList h
  obtain ⟨rawScenes, scenes, hraw, ⟨hlength, hscenes⟩, rfl⟩ := mergeSceneList_eq_ok.mp h
  refine mergeSceneList_eq_ok.mpr ⟨rawScenes, scenes, hraw, ⟨hlength, fun index hlt hlt' => ?_⟩, rfl⟩
  rw [hplaced.existingByOrder, List.getElem?_eq_getElem hlt']
  obtain ⟨duration, hduration, heq⟩ := bind_pure_eq_ok.mp (hscenes index hlt hlt')
  refine bind_pure_eq_ok.mpr ⟨duration, hduration, ?_⟩
  rw [heq]
  rfl

/-- The scene that a script is for is found by ids and orders. -/
theorem scriptTarget_congr {a b : StoryDocument} (hid : a.id = b.id)
    (hids : a.scenes.map Scene.id = b.scenes.map Scene.id)
    (horders : a.scenes.map Scene.order = b.scenes.map Scene.order) (structured : Dict Value) :
    scriptTarget a structured = scriptTarget b structured := by
  have hlength : a.scenes.length = b.scenes.length := by simpa using congrArg List.length hids
  have hname (id : String) : lastIndex? (fun scene : Scene => scene.id = id) a.scenes =
      lastIndex? (fun scene : Scene => scene.id = id) b.scenes := by
    have hmap := congrArg (lastIndex? fun name => decide (name = id)) hids
    rwa [lastIndex?_map, lastIndex?_map] at hmap
  have horder (order : ℤ) : lastIndex? (fun scene : Scene => scene.order = order) a.scenes =
      lastIndex? (fun scene : Scene => scene.order = order) b.scenes := by
    have hmap := congrArg (lastIndex? fun place => decide (place = order)) horders
    rwa [lastIndex?_map, lastIndex?_map] at hmap
  simp only [scriptTarget, hid, hids, hlength, hname, horder]

theorem map_modify {α β : Type} {f : α → β} {g : α → α} (h : ∀ x, f (g x) = f x) (xs : List α) (index : ℕ) :
    (xs.modify index g).map f = xs.map f := by
  refine List.ext_getElem (by simp) fun other _ _ => ?_
  rw [List.getElem_map, List.getElem_map, List.getElem_modify]
  split
  · exact h _
  · rfl

theorem scriptTarget_attachLines (story : StoryDocument) (target : Option ℕ) (dialogue : List DialogueLine)
    (structured : Dict Value) :
    scriptTarget (attachLines story target dialogue) structured = scriptTarget story structured := by
  cases target with
  | none => rfl
  | some index =>
    have hlines : ∀ scene : Scene, Scene.id { scene with dialogue } = scene.id ∧
        Scene.order { scene with dialogue } = scene.order := fun _ => ⟨rfl, rfl⟩
    apply scriptTarget_congr
    · rfl
    · exact map_modify (fun scene => (hlines scene).1) story.scenes index
    · exact map_modify (fun scene => (hlines scene).2) story.scenes index

theorem mergeScript_again (h : mergeScript lib story structured = .ok once) :
    mergeScript lib once structured = .ok once := by
  obtain ⟨rawLines, target, hraw, htarget, rfl⟩ := mergeScript_eq_ok.mp h
  refine mergeScript_eq_ok.mpr ⟨rawLines, target, hraw, ?_, ?_⟩
  · rw [scriptTarget_attachLines]
    exact htarget
  · cases target with
    | none => simp only [attachLines, Dict.set_set]
    | some index =>
      simp only [attachLines, List.modify_modify_eq]
      rfl

/-- The draft of a name takes the place of the one before, if the sheet has the name as it is
compared. -/
theorem mergeCharacterSheet_again {name : String} (hname : structured.get? "name" = some (.str name))
    (hstrip : strip name = name) (h : mergeCharacterSheet lib story structured = .ok once) :
    mergeCharacterSheet lib once structured = .ok once := by
  have hfield : textField lib structured "name" = name := by
    rw [textField, rawField, hname, Option.getD_some, lib.str_str, hstrip]
  obtain ⟨hne, drafts, hdrafts, rfl⟩ := mergeCharacterSheet_eq_ok.mp h
  rw [hfield]
  refine mergeCharacterSheet_eq_ok.mpr ⟨hne, drafts.filter (otherDraft name) ++ [structured], ?_, ?_⟩
  · have hobj : JsonOf.obj? ∘ JsonOf.obj = (some : Dict Value → _) := rfl
    rw [entries, Dict.get?_set_self]
    simp only [List.filterMap_map, hobj, List.filterMap_some]
  · have hself : otherDraft name structured = false := by simp [otherDraft, hname]
    rw [hfield, List.filter_append, List.filter_filter, List.filter_cons_of_neg (by simp [hself]), List.filter_nil,
      List.append_nil]
    simp only [Bool.and_self, Dict.set_set]

theorem flagAfter_of_le {order : ℕ} {chapter : Chapter} (h : chapter.order ≤ order) (id : String) :
    flagAfter order id chapter = chapter :=
  if_neg (not_lt.mpr h)

@[simp] theorem flagAfter_flagAfter (order : ℕ) (id : String) (chapter : Chapter) :
    flagAfter order id (flagAfter order id chapter) = flagAfter order id chapter := by
  by_cases h : chapter.order ≤ order
  · rw [flagAfter_of_le h, flagAfter_of_le h]
  · simp only [flagAfter, if_pos (not_le.mp h), gt_iff_lt]

/-- The chapter that was added is the one of its title. -/
theorem existingIndex_append {chapters : List Chapter} {title : String} (htitle : title ≠ "")
    (hnone : existingIndex chapters title = none) {chapter : Chapter} (hchapter : chapter.title = title) :
    existingIndex (chapters ++ [chapter]) title = some chapters.length := by
  unfold existingIndex at hnone ⊢
  rw [List.findIdx?_append, hnone]
  simp [htitle, hchapter]

/-- A chapter with a title is found again. Written over an old one, it flags those that it flagged
before; added at the end, it flags those of a later order, if there are any. -/
theorem placeChapter_again {chapters : List Chapter} {title : String} (htitle : title ≠ "") (prose : String)
    (asOf : Option String)
    (horders : existingIndex chapters title = none → ∀ chapter ∈ chapters, chapter.order ≤ chapters.length) :
    placeChapter text (placeChapter text chapters title prose asOf) title prose asOf =
      placeChapter text chapters title prose asOf := by
  cases hindex : existingIndex chapters title with
  | none =>
    have hadded := existingIndex_append htitle hindex
      (show (chapterAt text chapters.length title prose asOf).title = title from rfl)
    have hkept : chapters.map (flagAfter chapters.length (chapterIdAt chapters.length)) = chapters := by
      conv_rhs => rw [← List.map_id chapters]
      exact List.map_congr_left fun chapter hmem => flagAfter_of_le (horders hindex chapter hmem) _
    rw [placeChapter_of_none text prose asOf hindex, placeChapter_of_some text prose asOf hadded, List.map_append,
      hkept, List.set_append_right _ _ le_rfl, Nat.sub_self]
    rfl
  | some order =>
    obtain ⟨old, hold, hsame, -⟩ := of_existingIndex hindex
    have hagain : existingIndex ((chapters.map (flagAfter order (chapterIdAt order))).set order
        (chapterAt text order title prose asOf)) title = some order := by
      rw [existingIndex_congr (map_title_set hold hsame.symm _), hindex]
    have hflag : flagAfter order (chapterIdAt order) ∘ flagAfter order (chapterIdAt order) =
        flagAfter order (chapterIdAt order) := funext fun chapter => flagAfter_flagAfter order _ chapter
    rw [placeChapter_of_some text prose asOf hindex, placeChapter_of_some text prose asOf hagain, List.map_set,
      List.map_map, hflag, List.set_set]

/-- The second merge finds what the first has written. A chapter needs a title for that, and one
that was added must not have chapters of later orders behind it. -/
def Settled (lib : ValueLibrary) (story : StoryDocument) (structured : Dict Value) : Task → Prop
  | .prose => textField lib structured "title" ≠ "" ∧
      (existingIndex story.chapters (textField lib structured "title") = none →
        ∀ chapter ∈ story.chapters, chapter.order ≤ story.chapters.length)
  | .characterSheet => ∃ name, structured.get? "name" = some (.str name) ∧ strip name = name
  | _ => True

theorem mergeProse_again {asOf : Option String} (hsettled : Settled lib story structured .prose)
    (h : mergeProse lib text story structured asOf = .ok once) :
    mergeProse lib text once structured asOf = .ok once := by
  obtain ⟨hne, rfl⟩ := mergeProse_eq_ok.mp h
  refine mergeProse_eq_ok.mpr ⟨hne, ?_⟩
  rw [placeChapter_again hsettled.1 _ asOf hsettled.2]

theorem mergeTask_again {task : Task} {asOf : Option String} (hsettled : Settled lib story structured task)
    (h : mergeTask lib text story task structured asOf = .ok once) :
    mergeTask lib text once task structured asOf = .ok once := by
  cases task with
  | logline => exact mergeLogline_again h
  | beatSheet => exact mergeBeatSheet_again h
  | sceneList => exact mergeSceneList_again h
  | prose => exact mergeProse_again hsettled h
  | script => exact mergeScript_again h
  | characterSheet =>
    obtain ⟨name, hname, hstrip⟩ := hsettled
    exact mergeCharacterSheet_again hname hstrip h

theorem map_bind {ε α β γ : Type} (f : β → γ) (x : Except ε α) (g : α → Except ε β) :
    (x >>= g).map f = x >>= fun a => (g a).map f := by
  cases x <;> rfl

/-- Where a story was written from is not read by the mergers. -/
theorem mergeTask_sourceJobIds (task : Task) (asOf : Option String) (jobs : List JobId) :
    mergeTask lib text { story with sourceJobIds := jobs } task structured asOf =
      (mergeTask lib text story task structured asOf).map fun merged => { merged with sourceJobIds := jobs } := by
  cases task with
  | logline =>
    rw [mergeTask, mergeTask, mergeLogline, mergeLogline, map_bind]
    rfl
  | beatSheet =>
    rw [mergeTask, mergeTask, mergeBeatSheet, mergeBeatSheet, map_bind]
    rfl
  | sceneList =>
    simp only [mergeTask, mergeSceneList, map_bind]
    rfl
  | prose =>
    simp only [mergeTask, mergeProse]
    split <;> rfl
  | script =>
    simp only [mergeTask, mergeScript, map_bind]
    have hlines (target : Option ℕ) (dialogue : List DialogueLine) :
        attachLines { story with sourceJobIds := jobs } target dialogue =
          { attachLines story target dialogue with sourceJobIds := jobs } := by
      cases target <;> rfl
    simp only [hlines]
    rfl
  | characterSheet =>
    simp only [mergeTask, mergeCharacterSheet]
    split
    · rfl
    · rw [map_bind]
      rfl

/-- Applying a result to a story that has it already is merging it. -/
theorem applyTextResult_of_mergeTask {named : Task} {task : String} {job : Option JobId} {asOf : Option String}
    {result second : StoryDocument} (hname : Task.ofName? task = some named)
    (hsecond : mergeTask lib text result named structured asOf = .ok second) (jobs : List JobId) :
    applyTextResult lib text { result with sourceJobIds := addSource jobs job } task structured job asOf =
      .ok { second with sourceJobIds := addSource jobs job } := by
  refine applyTextResult_eq_ok.mpr ⟨named, { second with sourceJobIds := addSource jobs job }, hname, ?_, ?_⟩
  · rw [mergeTask_sourceJobIds, hsecond]
    rfl
  · rw [addSource_addSource]

/-- A result that is applied again changes nothing, if what it has written is found. Prose without
a title is added once more. -/
theorem applyTextResult_again {task : String} {job : Option JobId} {asOf : Option String}
    (h : applyTextResult lib text story task structured job asOf = .ok once) :
    (∀ named, Task.ofName? task = some named → Settled lib story structured named →
      applyTextResult lib text once task structured job asOf = .ok once) ∧
    (Task.ofName? task = some .prose → textField lib structured "title" = "" →
      ∃ chapter, chapter.proseMarkdown = textField lib structured "prose_markdown" ∧
        applyTextResult lib text once task structured job asOf =
          .ok { once with chapters := once.chapters ++ [chapter] }) := by
  obtain ⟨named, result, hname, hmerge, rfl⟩ := applyTextResult_eq_ok.mp h
  refine ⟨fun named' hname' hsettled => ?_, fun hname' htitle => ?_⟩
  · obtain rfl := Option.some.inj (hname.symm.trans hname')
    exact applyTextResult_of_mergeTask hname (mergeTask_again hsettled hmerge) _
  · obtain rfl := Option.some.inj (hname.symm.trans hname')
    obtain ⟨hne, -⟩ := mergeProse_eq_ok.mp hmerge
    have hnone : existingIndex result.chapters "" = none := existingIndex_eq_none_iff.mpr (.inl rfl)
    have hsecond : mergeProse lib text result structured asOf = .ok { result with
        chapters := result.chapters ++ [chapterAt text result.chapters.length ""
          (textField lib structured "prose_markdown") asOf] } := by
      refine mergeProse_eq_ok.mpr ⟨hne, ?_⟩
      rw [htitle, placeChapter_of_none text _ asOf hnone]
    exact ⟨_, rfl, applyTextResult_of_mergeTask hname hsecond _⟩

end

/-- A merge with these libraries, of the first job. -/
def applied (story : StoryDocument) (task : String) (structured : Dict Value) : Except Exc StoryDocument :=
  applyTextResult smallValues plainLibrary story task structured (some 1) none

/-- A list of one scene, applied twice. -/
theorem applied_sceneList_again :
    ∃ once, applied { id := "story_1" } "scene_list" [("scenes", .arr [.obj [("heading", .str "Dawn")]])] = .ok once ∧
      applied once "scene_list" [("scenes", .arr [.obj [("heading", .str "Dawn")]])] = .ok once := by
  have hsome : (applied { id := "story_1" } "scene_list"
      [("scenes", .arr [.obj [("heading", .str "Dawn")]])]).toOption.isSome := by decide +kernel
  obtain ⟨once, honce⟩ := Option.isSome_iff_exists.mp hsome
  exact ⟨once, ok_of_toOption honce, (applyTextResult_again (ok_of_toOption honce)).1 .sceneList (by decide) trivial⟩

theorem applied_twice_ne {story : StoryDocument} {task : String} {structured : Dict Value}
    (h : ((applied story task structured).toOption.any fun once =>
      (applied once task structured).toOption ≠ some once) = true) :
    ∃ once, applied story task structured = .ok once ∧ applied once task structured ≠ .ok once := by
  obtain ⟨once, honce, hne⟩ := (Option.any_eq_true ..).mp h
  refine ⟨once, ok_of_toOption honce, fun heq => of_decide_eq_true hne ?_⟩
  rw [heq]
  rfl

/-- Prose without a title is there twice when it is applied twice. Prose with a title flags a
chapter of a later order the second time. -/
theorem not_applied_again :
    (∃ once, applied { id := "story_1" } "prose" [("prose_markdown", .str "a")] = .ok once ∧
      applied once "prose" [("prose_markdown", .str "a")] ≠ .ok once) ∧
    ∃ once, applied { id := "story_1", chapters := [{ id := "chapter_06", order := 5 }] } "prose"
        [("title", .str "One"), ("prose_markdown", .str "a")] = .ok once ∧
      applied once "prose" [("title", .str "One"), ("prose_markdown", .str "a")] ≠ .ok once :=
  ⟨applied_twice_ne (by decide +kernel), applied_twice_ne (by decide +kernel)⟩

end CreativeStudio.Story
