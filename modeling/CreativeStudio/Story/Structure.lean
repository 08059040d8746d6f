import CreativeStudio.Story.Binding
import CreativeStudio.Story.Merge

/-!
# The structure of a story over its history

A scene and a chapter are called after their place, and no two chapters have one title. Every
merge, every binding and every acknowledgement keeps this, and from it follows what a
regenerated list carries over and which chapters a rewritten one flags.
-/

namespace CreativeStudio.Story
open Data Assets Storage

/-! ## Scenes and chapters in their places -/

/-- Every scene has the id and the order of its place. -/
def ScenesInPlace (scenes : List Scene) : Prop :=
  ∀ (index : ℕ) (scene : Scene), scenes[index]? = some scene → scene.id = sceneIdAt index ∧ scene.order = index

/-- Every chapter has the id and the order of its place. -/
def ChaptersInPlace (chapters : List Chapter) : Prop :=
  ∀ (index : ℕ) (chapter : Chapter), chapters[index]? = some chapter →
    chapter.id = chapterIdAt index ∧ chapter.order = index

/-- No title is given twice. A chapter may have none. -/
def TitlesDistinct (chapters : List Chapter) : Prop :=
  ((chapters.map Chapter.title).filter fun title => title ≠ "").Nodup

/-- The invariant of a story that only the mergers have written. -/
structure InPlace (story : StoryDocument) : Prop where
  scenes : ScenesInPlace story.scenes
  chapters : ChaptersInPlace story.chapters
  titles : TitlesDistinct story.chapters

theorem sceneIdAt_injective : Function.Injective sceneIdAt := by
  intro i j h
  have hpad : zeroPadded 2 (i + 1) = zeroPadded 2 (j + 1) := (String.append_right_inj _).mp h
  have := zeroPadded_injective 2 hpad
  omega

theorem chapterIdAt_injective : Function.Injective chapterIdAt := by
  intro i j h
  have hpad : zeroPadded 2 (i + 1) = zeroPadded 2 (j + 1) := (String.append_right_inj _).mp h
  have := zeroPadded_injective 2 hpad
  omega

theorem nodup_of_getElem? {α β : Type} {f : α → β} {g : ℕ → β} (hg : Function.Injective g) {xs : List α}
    (h : ∀ index x, xs[index]? = some x → f x = g index) : (xs.map f).Nodup := by
  have hmap : xs.map f = (List.range xs.length).map g := by
    refine List.ext_getElem (by simp) fun index hindex _ => ?_
    rw [List.length_map] at hindex
    rw [List.getElem_map, List.getElem_map, List.getElem_range]
    exact h index _ (List.getElem?_eq_getElem hindex)
  rw [hmap]
  exact List.nodup_range.map hg

theorem ScenesInPlace.nodup {scenes : List Scene} (h : ScenesInPlace scenes) : (scenes.map Scene.id).Nodup :=
  nodup_of_getElem? sceneIdAt_injective fun index scene hscene => (h index scene hscene).1

theorem ChaptersInPlace.nodup {chapters : List Chapter} (h : ChaptersInPlace chapters) :
    (chapters.map Chapter.id).Nodup :=
  nodup_of_getElem? chapterIdAt_injective fun index chapter hchapter => (h index chapter hchapter).1

/-- The scene of an order is the one in its place. -/
theorem ScenesInPlace.existingByOrder {scenes : List Scene} (h : ScenesInPlace scenes) (index : ℕ) :
    existingByOrder scenes index = scenes[index]? := by
  cases hindex : scenes[index]? with
  | none =>
    have hnone : lastIndex? (fun scene : Scene => scene.order = index) scenes = none := by
      refine lastIndex?_eq_none_iff.mpr fun scene hmem hp => ?_
      obtain ⟨other, hother⟩ := List.mem_iff_getElem?.mp hmem
      have horder := (h other scene hother).2
      rw [of_decide_eq_true hp, Nat.cast_inj] at horder
      rw [horder, hother] at hindex
      cases hindex
    rw [Story.existingByOrder, hnone]
    rfl
  | some scene =>
    have hlast : lastIndex? (fun scene : Scene => scene.order = index) scenes = some index := by
      refine lastIndex?_eq_some hindex (decide_eq_true (h index scene hindex).2) fun other y hy hp => ?_
      have horder := (h other y hy).2
      rw [of_decide_eq_true hp, Nat.cast_inj] at horder
      exact horder.symm
    rw [Story.existingByOrder, hlast]
    exact hindex

/-! ## One chapter written -/

theorem existingIndex_congr {a b : List Chapter} (h : a.map Chapter.title = b.map Chapter.title) (title : String) :
    existingIndex a title = existingIndex b title := by
  have hmap (chapters : List Chapter) : existingIndex chapters title =
      (chapters.map Chapter.title).findIdx? fun name => title ≠ "" ∧ name = title := by
    rw [List.findIdx?_map]
    rfl
  rw [hmap, hmap, h]

/-- A chapter without a match is new: no chapter has its title, if it has one. -/
theorem existingIndex_eq_none_iff {chapters : List Chapter} {title : String} :
    existingIndex chapters title = none ↔ title = "" ∨ ∀ chapter ∈ chapters, chapter.title ≠ title := by
  rw [existingIndex, List.findIdx?_eq_none_iff]
  simp only [decide_eq_false_iff_not, not_and]
  constructor
  · intro h
    by_cases htitle : title = ""
    · exact .inl htitle
    · exact .inr fun chapter hmem => h chapter hmem htitle
  · rintro (htitle | h) chapter hmem hne
    · exact absurd htitle hne
    · exact h chapter hmem

theorem of_existingIndex {chapters : List Chapter} {title : String} {order : ℕ}
    (h : existingIndex chapters title = some order) :
    ∃ chapter, chapters[order]? = some chapter ∧ chapter.title = title ∧ title ≠ "" := by
  obtain ⟨hlt, hp, -⟩ := List.findIdx?_eq_some_iff_getElem.mp h
  obtain ⟨hne, htitle⟩ := of_decide_eq_true hp
  exact ⟨chapters[order], List.getElem?_eq_getElem hlt, htitle, hne⟩

@[simp] theorem title_flagAfter (order : ℕ) (id : String) (chapter : Chapter) :
    (flagAfter order id chapter).title = chapter.title := by
  unfold flagAfter
  split <;> rfl

@[simp] theorem id_flagAfter (order : ℕ) (id : String) (chapter : Chapter) :
    (flagAfter order id chapter).id = chapter.id := by
  unfold flagAfter
  split <;> rfl

@[simp] theorem order_flagAfter (order : ℕ) (id : String) (chapter : Chapter) :
    (flagAfter order id chapter).order = chapter.order := by
  unfold flagAfter
  split <;> rfl

@[simp] theorem proseMarkdown_flagAfter (order : ℕ) (id : String) (chapter : Chapter) :
    (flagAfter order id chapter).proseMarkdown = chapter.proseMarkdown := by
  unfold flagAfter
  split <;> rfl

section
variable (text : TextLibrary) {chapters : List Chapter} {title : String} (prose : String) (asOf : Option String)

theorem placeChapter_of_none (h : existingIndex chapters title = none) :
    placeChapter text chapters title prose asOf =
      chapters ++ [chapterAt text chapters.length title prose asOf] := by
  rw [placeChapter, h]

theorem placeChapter_of_some {order : ℕ} (h : existingIndex chapters title = some order) :
    placeChapter text chapters title prose asOf =
      (chapters.map (flagAfter order (chapterIdAt order))).set order (chapterAt text order title prose asOf) := by
  rw [placeChapter, h]
  rfl

variable (chapters title) in
/-- What writing a chapter does to the chapters: one more at the end, or the one of the title
rewritten and those after it flagged. -/
theorem placeChapter_cases :
    (placeChapter text chapters title prose asOf =
        chapters ++ [chapterAt text chapters.length title prose asOf] ∧
      (title = "" ∨ ∀ chapter ∈ chapters, chapter.title ≠ title)) ∨
    ∃ order old, chapters[order]? = some old ∧ old.title = title ∧ title ≠ "" ∧
      placeChapter text chapters title prose asOf =
        (chapters.map (flagAfter order (chapterIdAt order))).set order (chapterAt text order title prose asOf) := by
  cases h : existingIndex chapters title with
  | none => exact .inl ⟨placeChapter_of_none text prose asOf h, existingIndex_eq_none_iff.mp h⟩
  | some order =>
    obtain ⟨old, hold, htitle, hne⟩ := of_existingIndex h
    exact .inr ⟨order, old, hold, htitle, hne, placeChapter_of_some text prose asOf h⟩

end

/-- A rewritten chapter has the title of the old one. -/
theorem map_title_set {chapters : List Chapter} {order : ℕ} {old chapter : Chapter}
    (hold : chapters[order]? = some old) (htitle : chapter.title = old.title) (id : String) :
    ((chapters.map (flagAfter order id)).set order chapter).map Chapter.title = chapters.map Chapter.title := by
  rw [List.map_set, List.map_map]
  have hflag : Chapter.title ∘ flagAfter order id = Chapter.title := funext fun other => title_flagAfter order id other
  rw [hflag]
  obtain ⟨hlt, rfl⟩ := List.getElem?_eq_some_iff.mp hold
  have hlt' : order < (chapters.map Chapter.title).length := by simpa using hlt
  have hsame : chapter.title = (chapters.map Chapter.title)[order] := by
    rw [htitle, List.getElem_map]
  rw [hsame, List.set_getElem_self]

section
variable {text : TextLibrary} {chapters : List Chapter} {title prose : String} {asOf : Option String}

theorem ChaptersInPlace.placeChapter (h : ChaptersInPlace chapters) :
    ChaptersInPlace (placeChapter text chapters title prose asOf) := by
  intro index chapter hchapter
  rcases placeChapter_cases text chapters title prose asOf with ⟨heq, -⟩ | ⟨order, old, hold, -, -, heq⟩
  · rw [heq] at hchapter
    by_cases hlt : index < chapters.length
    · rw [List.getElem?_append_left hlt] at hchapter
      exact h index chapter hchapter
    · rw [List.getElem?_append_right (not_lt.mp hlt), List.getElem?_singleton] at hchapter
      split at hchapter
      next hzero =>
        obtain rfl := Option.some.inj hchapter
        have hindex : index = chapters.length := by omega
        subst hindex
        exact ⟨rfl, rfl⟩
      next => cases hchapter
  · rw [heq, List.getElem?_set] at hchapter
    split at hchapter
    next hindex =>
      subst hindex
      split at hchapter
      next =>
        obtain rfl := Option.some.inj hchapter
        exact ⟨rfl, rfl⟩
      next => cases hchapter
    next =>
      rw [List.getElem?_map, Option.map_eq_some_iff] at hchapter
      obtain ⟨existing, hexisting, rfl⟩ := hchapter
      rw [id_flagAfter, order_flagAfter]
      exact h index existing hexisting

theorem TitlesDistinct.placeChapter (h : TitlesDistinct chapters) :
    TitlesDistinct (placeChapter text chapters title prose asOf) := by
  unfold TitlesDistinct at h ⊢
  rcases placeChapter_cases text chapters title prose asOf with ⟨heq, hnew⟩ | ⟨order, old, hold, htitle, hne, heq⟩
  · rw [heq, List.map_append, List.filter_append, List.nodup_append']
    refine ⟨h, (List.nodup_singleton _).filter _, fun other hother hadded => ?_⟩
    obtain ⟨hmem, -⟩ := List.mem_filter.mp hother
    obtain ⟨hadded, hother⟩ := List.mem_filter.mp hadded
    obtain rfl : other = title := List.mem_singleton.mp hadded
    obtain ⟨chapter, hchapter, hsame⟩ := List.mem_map.mp hmem
    rcases hnew with hempty | hnew
    · exact of_decide_eq_true hother hempty
    · exact hnew chapter hchapter hsame
  · rw [heq, map_title_set hold htitle.symm]
    exact h

end

/-! ## Every edit keeps the structure -/

/-- `_clear_stale_flag`. -/
def clearStaleFlag (chapterId : String) (story : StoryDocument) : StoryDocument :=
  { story with
    chapters := story.chapters.map fun entry =>
      if entry.id = chapterId then { entry with staleAfterChapterId := none } else entry }

/-- What happens to a story. -/
inductive Edit
  | apply (task : String) (structured : Dict Value) (job : Option JobId) (asOf : Option String)
  | bind (replay : Bool) (target : Target) (job : JobId) (asset : AssetId)
  | acknowledge (chapterId : String)

section
variable (lib : ValueLibrary) (text : TextLibrary)

/-- The story that an edit answers with. A binding that is declined leaves the story alone. -/
def Edit.run (story : StoryDocument) : Edit → Except Exc StoryDocument
  | .apply task structured job asOf => applyTextResult lib text story task structured job asOf
  | .bind replay target job asset => .ok ((applyBinding replay target job asset story).getD story)
  | .acknowledge chapterId => .ok (clearStaleFlag chapterId story)

/-- The story after an edit. -/
def Edit.after (story : StoryDocument) (edit : Edit) : StoryDocument :=
  match edit.run lib text story with
  | .ok edited => edited
  | .error _ => story

/-- The story after a history of edits. -/
def history (story : StoryDocument) (edits : List Edit) : StoryDocument := edits.foldl (Edit.after lib text) story

end

section
variable {lib : ValueLibrary} {text : TextLibrary} {story merged : StoryDocument} {structured : Dict Value}

theorem InPlace.of_eq (h : InPlace story) (hscenes : merged.scenes = story.scenes)
    (hchapters : merged.chapters = story.chapters) : InPlace merged := by
  refine ⟨?_, ?_, ?_⟩
  · rw [hscenes]
    exact h.scenes
  · rw [hchapters]
    exact h.chapters
  · rw [hchapters]
    exact h.titles

/-- The scene of an entry is called after its place, and has what the one before it had gathered. -/
theorem sceneOf_spec {beatIds : List String} {previous : Option Scene} {index : ℕ} {entry : Dict Value} {scene : Scene}
    (h : sceneOf lib beatIds previous index entry = .ok scene) :
    (scene.id = sceneIdAt index ∧ scene.order = index) ∧
      scene.assetIds = previous.elim [] Scene.assetIds ∧ scene.jobIds = previous.elim [] Scene.jobIds ∧
      scene.dialogue = previous.elim [] Scene.dialogue ∧ scene.bibleRefs = previous.elim [] Scene.bibleRefs := by
  obtain ⟨duration, -, rfl⟩ := bind_pure_eq_ok.mp h
  exact ⟨⟨rfl, rfl⟩, rfl, rfl, rfl, rfl⟩

theorem scenesInPlace_mergeSceneList (h : mergeSceneList lib story structured = .ok merged) :
    ScenesInPlace merged.scenes := by
  obtain ⟨rawScenes, scenes, -, ⟨hlength, hscenes⟩, rfl⟩ := mergeSceneList_eq_ok.mp h
  intro index scene hscene
  obtain ⟨hlt, rfl⟩ := List.getElem?_eq_some_iff.mp hscene
  exact (sceneOf_spec (hscenes index (hlength ▸ hlt) hlt)).1

/-- A change of the scenes that keeps their ids and orders keeps them in their places. -/
theorem ScenesInPlace.of_same {a b : List Scene} (h : ScenesInPlace a)
    (hsame : ∀ (index : ℕ) (scene : Scene), b[index]? = some scene →
      ∃ old, a[index]? = some old ∧ scene.id = old.id ∧ scene.order = old.order) : ScenesInPlace b := by
  intro index scene hscene
  obtain ⟨old, hold, hid, horder⟩ := hsame index scene hscene
  rw [hid, horder]
  exact h index old hold

theorem InPlace.attachLines (h : InPlace story) (target : Option ℕ) (dialogue : List DialogueLine) :
    InPlace (attachLines story target dialogue) := by
  cases target with
  | none => exact h.of_eq rfl rfl
  | some place =>
    refine ⟨h.scenes.of_same fun index scene hscene => ?_, h.chapters, h.titles⟩
    rw [Story.attachLines, List.getElem?_modify, Option.map_eq_map, Option.map_eq_some_iff] at hscene
    obtain ⟨old, hold, rfl⟩ := hscene
    refine ⟨old, hold, ?_, ?_⟩ <;> split <;> rfl

theorem InPlace.mergeTask {task : Task} {asOf : Option String} (h : InPlace story)
    (hmerge : mergeTask lib text story task structured asOf = .ok merged) : InPlace merged := by
  cases task with
  | logline =>
    obtain ⟨candidates, -, rfl⟩ := mergeLogline_eq_ok.mp hmerge
    exact h.of_eq rfl rfl
  | beatSheet =>
    obtain ⟨rawBeats, -, rfl⟩ := mergeBeatSheet_eq_ok.mp hmerge
    exact h.of_eq rfl rfl
  | sceneList =>
    have hscenes := scenesInPlace_mergeSceneList hmerge
    obtain ⟨rawScenes, scenes, -, -, rfl⟩ := mergeSceneList_eq_ok.mp hmerge
    exact ⟨hscenes, h.chapters, h.titles⟩
  | prose =>
    obtain ⟨-, rfl⟩ := mergeProse_eq_ok.mp hmerge
    exact ⟨h.scenes, h.chapters.placeChapter, h.titles.placeChapter⟩
  | script =>
    obtain ⟨rawLines, target, -, -, rfl⟩ := mergeScript_eq_ok.mp hmerge
    exact h.attachLines target _
  | characterSheet =>
    obtain ⟨-, drafts, -, rfl⟩ := mergeCharacterSheet_eq_ok.mp hmerge
    exact h.of_eq rfl rfl

theorem InPlace.applyTextResult {task : String} {job : Option JobId} {asOf : Option String} (h : InPlace story)
    (happly : applyTextResult lib text story task structured job asOf = .ok merged) : InPlace merged := by
  obtain ⟨named, result, -, hmerge, rfl⟩ := applyTextResult_eq_ok.mp happly
  exact (h.mergeTask hmerge).of_eq rfl rfl

theorem InPlace.applyBinding {replay : Bool} {target : Target} {job : JobId} {asset : AssetId} (h : InPlace story)
    (hbind : applyBinding replay target job asset story = some merged) : InPlace merged := by
  unfold Story.applyBinding at hbind
  split at hbind
  · cases hbind
  split at hbind
  · cases hbind
  obtain rfl := Option.some.inj hbind
  refine ⟨h.scenes.of_same fun index scene hscene => ?_, h.chapters, h.titles⟩
  rw [List.getElem?_map, Option.map_eq_some_iff] at hscene
  obtain ⟨old, hold, rfl⟩ := hscene
  refine ⟨old, hold, ?_, ?_⟩ <;> split <;> rfl

theorem InPlace.clearStaleFlag (h : InPlace story) (chapterId : String) : InPlace (clearStaleFlag chapterId story) := by
  refine ⟨h.scenes, fun index chapter hchapter => ?_, ?_⟩
  · rw [Story.clearStaleFlag, List.getElem?_map, Option.map_eq_some_iff] at hchapter
    obtain ⟨old, hold, rfl⟩ := hchapter
    obtain ⟨hid, horder⟩ := h.chapters index old hold
    refine ⟨?_, ?_⟩ <;> split
    exacts [hid, hid, horder, horder]
  · have htitles : (Story.clearStaleFlag chapterId story).chapters.map Chapter.title =
        story.chapters.map Chapter.title := by
      rw [Story.clearStaleFlag, List.map_map]
      refine List.map_congr_left fun chapter _ => ?_
      simp only [Function.comp_apply]
      split <;> rfl
    unfold TitlesDistinct
    rw [htitles]
    exact h.titles

theorem InPlace.run {edit : Edit} (h : InPlace story) (hrun : edit.run lib text story = .ok merged) :
    InPlace merged := by
  cases edit with
  | apply task structured job asOf => exact h.applyTextResult hrun
  | bind replay target job asset =>
    obtain rfl := Except.ok.inj hrun
    cases hbind : Story.applyBinding replay target job asset story with
    | none => exact h
    | some bound => exact h.applyBinding hbind
  | acknowledge chapterId =>
    obtain rfl := Except.ok.inj hrun
    exact h.clearStaleFlag chapterId

theorem after_of_error {edit : Edit} {e : Exc} (h : edit.run lib text story = .error e) :
    edit.after lib text story = story := by
  rw [Edit.after, h]

theorem InPlace.after (h : InPlace story) (edit : Edit) : InPlace (edit.after lib text story) := by
  unfold Edit.after
  split
  next hrun => exact h.run hrun
  next => exact h

theorem InPlace.history (h : InPlace story) (edits : List Edit) : InPlace (history lib text story edits) := by
  induction edits generalizing story with
  | nil => exact h
  | cons edit edits ih => exact ih (h.after edit)

end

/-! ## What follows from the structure -/

/-- Ids and titles are distinct, and an order is a place. -/
structure WellStructured (story : StoryDocument) : Prop where
  sceneIds : (story.scenes.map Scene.id).Nodup
  sceneOrders : ∀ (index : ℕ) (h : index < story.scenes.length), story.scenes[index].order = index
  chapterIds : (story.chapters.map Chapter.id).Nodup
  chapterOrders : ∀ (index : ℕ) (h : index < story.chapters.length), story.chapters[index].order = index
  chapterTitles : ((story.chapters.map Chapter.title).filter fun title => title ≠ "").Nodup

/-- The scene in a place has what the scene there before had gathered, or nothing if there was
none. -/
def CarriesOver (old new : List Scene) : Prop :=
  ∀ (index : ℕ) (scene : Scene), new[index]? = some scene →
    scene.assetIds = old[index]?.elim [] Scene.assetIds ∧ scene.jobIds = old[index]?.elim [] Scene.jobIds ∧
      scene.dialogue = old[index]?.elim [] Scene.dialogue ∧ scene.bibleRefs = old[index]?.elim [] Scene.bibleRefs

/-- The chapter is written into the place, at the end or over the one that was there. In the
second case those after it are flagged with its id, and in both nothing else changes. -/
structure Writes (old new : List Chapter) (place : ℕ) (chapter : Chapter) : Prop where
  written : new[place]? = some chapter
  unflagged : chapter.staleAfterChapterId = none
  prose : ∀ index ≠ place, new[index]?.map Chapter.proseMarkdown = old[index]?.map Chapter.proseMarkdown
  appended : place = old.length → new = old ++ [chapter]
  replaced : place ≠ old.length → new.length = old.length ∧
    (∃ existing, old[place]? = some existing ∧ existing.id = chapter.id ∧ existing.title = chapter.title) ∧
    ∀ (index : ℕ) (existing : Chapter), index ≠ place → old[index]? = some existing →
      new[index]? = some (if place < index then { existing with staleAfterChapterId := some chapter.id } else existing)

/-- A story that was created empty and has a history of edits. -/
def Reachable (lib : ValueLibrary) (text : TextLibrary) (story : StoryDocument) : Prop :=
  ∃ created edits, created.scenes = [] ∧ created.chapters = [] ∧ story = history lib text created edits

section
variable {lib : ValueLibrary} {text : TextLibrary} {story merged : StoryDocument} {structured : Dict Value}

theorem inPlace_of_empty (hscenes : story.scenes = []) (hchapters : story.chapters = []) : InPlace story := by
  refine ⟨?_, ?_, ?_⟩
  · rw [hscenes]
    exact nofun
  · rw [hchapters]
    exact nofun
  · rw [hchapters]
    exact List.nodup_nil

theorem Reachable.inPlace (h : Reachable lib text story) : InPlace story := by
  obtain ⟨created, edits, hscenes, hchapters, rfl⟩ := h
  exact (inPlace_of_empty hscenes hchapters).history edits

theorem InPlace.wellStructured (h : InPlace story) : WellStructured story where
  sceneIds := h.scenes.nodup
  sceneOrders index hindex := (h.scenes index _ (List.getElem?_eq_getElem hindex)).2
  chapterIds := h.chapters.nodup
  chapterOrders index hindex := (h.chapters index _ (List.getElem?_eq_getElem hindex)).2
  chapterTitles := h.titles

theorem carriesOver_mergeSceneList (hscenes : ScenesInPlace story.scenes)
    (h : mergeSceneList lib story structured = .ok merged) : CarriesOver story.scenes merged.scenes := by
  obtain ⟨rawScenes, scenes, -, ⟨hlength, hscene⟩, rfl⟩ := mergeSceneList_eq_ok.mp h
  intro index scene hindex
  obtain ⟨hlt, rfl⟩ := List.getElem?_eq_some_iff.mp hindex
  have hspec := (sceneOf_spec (hscene index (hlength ▸ hlt) hlt)).2
  rw [hscenes.existingByOrder] at hspec
  exact hspec

theorem writes_placeChapter (text : TextLibrary) {chapters : List Chapter} (h : ChaptersInPlace chapters)
    (title prose : String) (asOf : Option String) :
    ∃ place, Writes chapters (placeChapter text chapters title prose asOf) place
      (chapterAt text place title prose asOf) := by
  rcases placeChapter_cases text chapters title prose asOf with ⟨heq, -⟩ | ⟨place, old, hold, htitle, -, heq⟩
  · refine ⟨chapters.length, ?_⟩
    rw [heq]
    refine ⟨by simp, rfl, fun index hindex => ?_, fun _ => rfl, fun hne => absurd rfl hne⟩
    rw [List.getElem?_append]
    split
    next => rfl
    next hlt =>
      rw [List.getElem?_eq_none (by simp; omega), List.getElem?_eq_none (not_lt.mp hlt)]
  · have hlt : place < chapters.length := (List.getElem?_eq_some_iff.mp hold).1
    refine ⟨place, ?_⟩
    rw [heq]
    refine ⟨by simp [hlt], rfl, fun index hindex => ?_, fun hlast => absurd hlast hlt.ne, fun _ => ⟨by simp,
      ⟨old, hold, (h place old hold).1, htitle⟩, fun index existing hindex hexisting => ?_⟩⟩
    · rw [List.getElem?_set_ne hindex.symm, List.getElem?_map, Option.map_map]
      exact congrArg (fun f => chapters[index]?.map f) (funext fun chapter => proseMarkdown_flagAfter place _ chapter)
    · rw [List.getElem?_set_ne hindex.symm, List.getElem?_map, hexisting, Option.map_some, flagAfter,
        (h index existing hexisting).2]
      simp only [gt_iff_lt, Nat.cast_lt]
      rfl

/-- Over any history of an empty story ids and titles stay distinct and orders are places. A
regenerated list of scenes carries over place by place, written prose goes into one chapter and
flags those after it, and what is refused changes nothing. -/
theorem wellStructured_of_reachable (h : Reachable lib text story) :
    WellStructured story ∧
      (∀ structured job asOf merged,
        applyTextResult lib text story "scene_list" structured job asOf = .ok merged →
          CarriesOver story.scenes merged.scenes) ∧
      (∀ structured job asOf merged,
        applyTextResult lib text story "prose" structured job asOf = .ok merged →
          ∃ place chapter, Writes story.chapters merged.chapters place chapter ∧
            chapter.proseMarkdown = textField lib structured "prose_markdown") ∧
      ∀ (edit : Edit) (e : Exc), edit.run lib text story = .error e → edit.after lib text story = story := by
  refine ⟨h.inPlace.wellStructured, fun structured job asOf merged happly => ?_,
    fun structured job asOf merged happly => ?_, fun edit e => after_of_error⟩
  · obtain ⟨task, result, hname, hmerge, rfl⟩ := applyTextResult_eq_ok.mp happly
    obtain rfl := Option.some.inj (hname.symm.trans (Task.ofName?_name .sceneList))
    have hcarries : CarriesOver story.scenes result.scenes := carriesOver_mergeSceneList h.inPlace.scenes hmerge
    exact hcarries
  · obtain ⟨task, result, hname, hmerge, rfl⟩ := applyTextResult_eq_ok.mp happly
    obtain rfl := Option.some.inj (hname.symm.trans (Task.ofName?_name .prose))
    obtain ⟨-, rfl⟩ := mergeProse_eq_ok.mp hmerge
    obtain ⟨place, hwrites⟩ := writes_placeChapter text h.inPlace.chapters
      (textField lib structured "title") (textField lib structured "prose_markdown") asOf
    exact ⟨place, _, hwrites, rfl⟩

/-- Prose under a title. -/
def writeChapter (title prose : String) : Edit :=
  .apply "prose" [("title", .str title), ("prose_markdown", .str prose)] none none

/-- Two chapters are written, and the first again: the second is flagged. -/
theorem wellStructured_threeWrites :
    let reached := history smallValues plainLibrary { id := "story_1" }
      [writeChapter "One" "a", writeChapter "Two" "b", writeChapter "One" "c"]
    WellStructured reached ∧
      reached.chapters.map (fun chapter => (chapter.title, chapter.proseMarkdown, chapter.staleAfterChapterId)) =
        [("One", "c", none), ("Two", "b", some "chapter_01")] :=
  ⟨(wellStructured_of_reachable ⟨_, _, rfl, rfl, rfl⟩).1, by decide +kernel⟩

end

end CreativeStudio.Story
