import CreativeStudio.Bible.Repository

/-!
# What the bible keeps

A file is read back as the entry it was written for, with its dictionaries in the order of their names.
Whatever is called, every file is that of a valid entry, and a call that raises has changed nothing.
-/

namespace CreativeStudio.Bible
open Data Prompting

/-! ## Reading a file back -/

theorem sortByName_mapValues {α β : Type} (f : α → β) (d : Dict α) :
    Dict.sortByName (d.mapValues f) = (Dict.sortByName d).mapValues f := by
  have hinsert (key : String) (value : α) (d : Dict α) :
      Dict.insertByName key (f value) (d.mapValues f) = (Dict.insertByName key value d).mapValues f := by
    induction d with
    | nil => rfl
    | cons first rest ih =>
      simp only [Dict.mapValues, List.map_cons, Dict.insertByName] at ih ⊢
      split
      · rfl
      · split
        · rfl
        · rw [ih]
          rfl
  induction d with
  | nil => rfl
  | cons first rest ih =>
    simp only [Dict.mapValues, List.map_cons, Dict.sortByName] at ih ⊢
    rw [ih]
    exact hinsert _ _ _

theorem canon_textMembers (texts : Dict String) :
    Obj.canon (textMembers texts) = textMembers (Dict.sortByName texts) := by
  have hmembers : JsonOf.canonMembers (textMembers texts) = textMembers texts := by
    induction texts with
    | nil => rfl
    | cons first rest ih =>
      simp only [textMembers, Dict.mapValues, List.map_cons, JsonOf.canonMembers] at ih ⊢
      rw [ih]
      rfl
  rw [Obj.canon, hmembers, textMembers, sortByName_mapValues]
  rfl

theorem canon_dumpTexts (texts : List String) : (dumpTexts texts).canon = dumpTexts texts := by
  have hlist : JsonOf.canonList (texts.map fun text => (.str text : Json)) = texts.map .str := by
    induction texts with
    | nil => rfl
    | cons text rest ih =>
      rw [List.map_cons, JsonOf.canonList, ih]
      rfl
  rw [dumpTexts, JsonOf.canon, hlist]

theorem canon_ofStr? (text : Option String) : (JsonOf.ofStr? text : Json).canon = .ofStr? text := by
  cases text <;> rfl

theorem isEmpty_canon (members : Obj) : members.canon.isEmpty = members.isEmpty := by
  cases members with
  | nil => rfl
  | cons first rest =>
    have hget : (Dict.get? (first :: rest) first.1).isSome := by simp [Dict.get?]
    cases hcanon : Obj.canon (first :: rest) with
    | nil =>
      have hlookup := Obj.get?_canon (first :: rest) first.1
      rw [hcanon] at hlookup
      simp [Dict.get?] at hlookup
    | cons member members => rfl

theorem isEmpty_of_filter {lora : Option Obj} {members : Obj}
    (h : (lora.filter fun members => !members.isEmpty) = some members) : members.isEmpty = false := by
  simpa using (Option.filter_eq_some_iff.mp h).2

/-- The adapter as it is read back: an empty one is none. -/
def savedLora (lora : Option Obj) : Option Obj := (lora.filter fun members => !members.isEmpty).map Obj.canon

theorem filter_savedLora (lora : Option Obj) :
    ((savedLora lora).filter fun members => !members.isEmpty) = savedLora lora := by
  simp only [savedLora]
  cases hlora : lora.filter fun members => !members.isEmpty with
  | none => rfl
  | some members => simp [Option.filter, isEmpty_canon, isEmpty_of_filter hlora]

theorem canon_dumpLora (lora : Option Obj) :
    (dumpLora lora).canon = dumpLora (savedLora lora) := by
  rw [dumpLora, dumpLora, filter_savedLora, savedLora]
  cases lora.filter fun members => !members.isEmpty with
  | none => rfl
  | some members => exact JsonOf.canon_obj members

/-- The settings that reading a file returns after it was written with sorted keys. -/
def Settings.saved (settings : Settings) : Settings := { settings with
  attributes := settings.attributes.sortByName
  lora := savedLora settings.lora
  seedPolicy := settings.seedPolicy.canon
  toneAndManner := settings.toneAndManner.canon
  metadata := settings.metadata.canon }

/-- The entry that reading a file returns after it was written with sorted keys. -/
def Entry.saved (entry : Entry) : Entry := { entry with settings := entry.settings.saved }

theorem readLora_of_get? {data : Obj} {lora : Option Obj} (h : data.get? "lora" = some (dumpLora lora)) :
    readLora data = some (lora.filter fun members => !members.isEmpty) := by
  rw [readLora, h]
  simp only [dumpLora]
  cases hlora : lora.filter fun members => !members.isEmpty with
  | none => rfl
  | some members =>
    have hne := isEmpty_of_filter hlora
    simp [Option.filter, JsonOf.truthy, hne, JsonOf.obj?]

theorem readTexts_of_get? {data : Obj} {key : String} {texts : List String}
    (h : data.get? key = some (dumpTexts texts)) : readTexts data key = some texts := by
  rw [readTexts, h]
  simp only [Option.getD_some, dumpTexts]
  clear h
  induction texts with
  | nil => rfl
  | cons text rest ih =>
    rw [List.map_cons, List.mapM_cons, ih]
    rfl

theorem readTextMembers_textMembers (texts : Dict String) : readTextMembers (textMembers texts) = some texts := by
  induction texts with
  | nil => rfl
  | cons first rest ih =>
    simp only [readTextMembers, textMembers, Dict.mapValues, List.map_cons, List.mapM_cons] at ih ⊢
    rw [ih]
    rfl

theorem readProjectId_of_get? {data : Obj} {projectId : Option String}
    (h : data.get? "project_id" = some (JsonOf.ofStr? projectId)) : readProjectId data = some projectId := by
  rw [readProjectId, h]
  cases projectId <;> rfl

section
variable {lib : BibleLibrary}

/-- Checking an entry does not look at the order of a dictionary. -/
theorem postInit_saved {settings : Settings} (h : postInit lib settings = .ok ()) :
    postInit lib settings.saved = .ok () := by
  simp only [postInit] at h ⊢
  split at h
  next => cases h
  next hkind =>
  split at h
  next => cases h
  next hname =>
  simp only [Settings.saved, Obj.get?_canon]
  rw [if_neg hkind, if_neg hname]
  cases hmode : settings.seedPolicy.get? "mode" with
  | none => rfl
  | some mode =>
    rw [hmode] at h
    cases mode with
    | str text => exact h
    | null => rfl
    | bool b => simp [seedModes] at h
    | int n => simp [seedModes] at h
    | float q => simp [seedModes] at h
    | arr items => simp [seedModes] at h
    | obj members => simp [seedModes] at h

theorem get?_file {entry : Entry} {key : String} {value value' : Json}
    (h : Dict.get? (entry.toDict lib) key = some value) (hvalue : value.canon = value') :
    Dict.get? (entry.toDict lib).canon key = some value' := by
  have hget := Obj.get?_canon (entry.toDict lib) key
  rw [hget, h, ← hvalue]
  rfl

theorem readText_of_get? {data : Obj} {key text : String} (h : data.get? key = some (.str text)) :
    readText data key = some text := by
  rw [readText, h]
  rfl

theorem readObject_of_get? {data members : Obj} {key : String} (h : data.get? key = some (.obj members)) :
    readObject data key = some members := by
  rw [readObject, h]
  rfl

theorem requireText_of_get? {data : Obj} {key text : String} (h : data.get? key = some (.str text)) :
    requireText data key = some text := by
  rw [requireText, h]
  rfl

theorem readTime_of_get? {data : Obj} {key : String} {time : ℕ} (h : data.get? key = some (.str (lib.isoformat time))) :
    readTime lib data key = some time := by
  rw [readTime, requireText_of_get? h]
  exact lib.fromisoformat_isoformat time

theorem readEntry_canon (entry : Entry) : readEntry lib (entry.toDict lib).canon = some entry.saved := by
  have hid := requireText_of_get? (@get?_file lib entry "id" _ _ rfl rfl)
  have hkind := requireText_of_get? (@get?_file lib entry "kind" _ _ rfl rfl)
  have hname := requireText_of_get? (@get?_file lib entry "name" _ _ rfl rfl)
  have hproject := readProjectId_of_get? (@get?_file lib entry _ _ _ rfl (canon_ofStr? entry.settings.projectId))
  have hsummary := readText_of_get? (@get?_file lib entry "summary" _ _ rfl rfl)
  have hprompt := readText_of_get? (@get?_file lib entry "prompt_fragment" _ _ rfl rfl)
  have hnegative := readText_of_get? (@get?_file lib entry "negative_fragment" _ _ rfl rfl)
  have htokens := readTexts_of_get? (@get?_file lib entry "tokens" _ _ rfl (canon_dumpTexts _))
  have hattributes := readObject_of_get? (@get?_file lib entry "attributes" _ _ rfl (JsonOf.canon_obj _))
  have hlora := readLora_of_get? (@get?_file lib entry _ _ _ rfl (canon_dumpLora entry.settings.lora))
  have hreferences := readTexts_of_get? (@get?_file lib entry "reference_asset_ids" _ _ rfl (canon_dumpTexts _))
  have hpolicy := readObject_of_get? (@get?_file lib entry "seed_policy" _ _ rfl (JsonOf.canon_obj _))
  have hpalette := readTexts_of_get? (@get?_file lib entry "palette" _ _ rfl (canon_dumpTexts _))
  have htone := readObject_of_get? (@get?_file lib entry "tone_and_manner" _ _ rfl (JsonOf.canon_obj _))
  have hlocked := readTexts_of_get? (@get?_file lib entry "locked_fields" _ _ rfl (canon_dumpTexts _))
  have hmetadata := readObject_of_get? (@get?_file lib entry "metadata" _ _ rfl (JsonOf.canon_obj _))
  have hcreated := readTime_of_get? (@get?_file lib entry "created_at" _ _ rfl rfl)
  have hupdated := readTime_of_get? (@get?_file lib entry "updated_at" _ _ rfl rfl)
  rw [canon_textMembers] at hattributes
  rw [filter_savedLora] at hlora
  simp only [readEntry, hid, hkind, hname, hproject, hsummary, hprompt, hnegative, htokens, hattributes, hlora,
    hreferences, hpolicy, hpalette, htone, hlocked, hmetadata, hcreated, hupdated, Option.bind_eq_bind,
    Option.bind_some, readTextMembers_textMembers]
  rfl

/-- **A valid entry is read back from its file.** -/
theorem tryLoad_canon {entry : Entry} (h : postInit lib entry.settings = .ok ()) :
    tryLoad lib (entry.toDict lib).canon = some entry.saved := by
  rw [tryLoad, readEntry_canon, Option.filter, show postInit lib entry.saved.settings = _ from postInit_saved h]
  rfl

theorem savedLora_savedLora (lora : Option Obj) : savedLora (savedLora lora) = savedLora lora := by
  have hfilter := filter_savedLora lora
  rw [savedLora, hfilter]
  simp only [savedLora, Option.map_map]
  cases lora.filter fun members => !members.isEmpty with
  | none => rfl
  | some members => exact congrArg some (Obj.canon_canon members)

@[simp] theorem Entry.saved_saved (entry : Entry) : entry.saved.saved = entry.saved := by
  simp [Entry.saved, Settings.saved, savedLora_savedLora]

/-! ## Every file is that of a valid entry -/

/-- Every file is that of a valid entry, and its name is the id of the entry. -/
def Sound (lib : BibleLibrary) (dir : Directory) : Prop :=
  ∀ id file, dir.get? id = some file →
    ∃ entry : Entry, entry.id = id ∧ postInit lib entry.settings = .ok () ∧ file = (entry.toDict lib).canon

theorem get?_save (entry : Entry) (dir : Directory) (id : String) :
    (save lib entry dir).get? id = if entry.id = id then some (entry.toDict lib).canon else dir.get? id :=
  Dict.get?_set dir entry.id id _

theorem get_save {entry : Entry} (h : postInit lib entry.settings = .ok ()) (dir : Directory) :
    get lib entry.id (save lib entry dir) = some entry.saved := by
  rw [get, get?_save, if_pos rfl, Option.bind_some, tryLoad_canon h]

variable {dir : Directory} {id : String} {entry : Entry}

theorem Sound.save (hdir : Sound lib dir) (h : postInit lib entry.settings = .ok ()) :
    Sound lib (save lib entry dir) := by
  intro id file hfile
  rw [get?_save] at hfile
  split at hfile
  next hid => exact ⟨entry, hid, h, (Option.some.inj hfile).symm⟩
  next => exact hdir id file hfile

theorem Sound.delete (hdir : Sound lib dir) (id : String) : Sound lib (delete id dir).2 := by
  intro id' file hfile
  rw [Bible.delete] at hfile
  split at hfile
  · rw [Dict.get?_erase] at hfile
    split at hfile
    · cases hfile
    · exact hdir id' file hfile
  · exact hdir id' file hfile

/-- What a file is read as is valid, and saved already. -/
theorem Sound.get (hdir : Sound lib dir) (h : get lib id dir = some entry) :
    entry.id = id ∧ postInit lib entry.settings = .ok () ∧ entry.saved = entry := by
  rw [Bible.get] at h
  obtain ⟨file, hfile, hload⟩ := Option.bind_eq_some_iff.mp h
  obtain ⟨stored, hid, hvalid, hstored⟩ := hdir id file hfile
  rw [hstored, tryLoad_canon hvalid] at hload
  obtain rfl := Option.some.inj hload
  exact ⟨hid, postInit_saved hvalid, Entry.saved_saved stored⟩

/-- Every file can be read. -/
theorem Sound.isSome_get (hdir : Sound lib dir) (id : String) :
    (Bible.get lib id dir).isSome = (dir.get? id).isSome := by
  rw [Bible.get]
  cases hfile : dir.get? id with
  | none => rfl
  | some file =>
    obtain ⟨stored, -, hvalid, hstored⟩ := hdir id file hfile
    rw [Option.bind_some, hstored, tryLoad_canon hvalid, Option.isSome_some, Option.isSome_some]

/-- What `update` can do: it finds no entry, raises, finds nothing changed, or writes the edited entry. -/
theorem update_cases (id : String) (now : ℕ) (changes : Changes) (dir : Directory) :
    (get lib id dir = none ∧ update lib id now changes dir = (.ok none, dir)) ∨
      ∃ entry, get lib id dir = some entry ∧
        ((∃ e, update lib id now changes dir = (.error e, dir)) ∨
          (unchanged lib entry { entry with settings := changes.apply entry.settings } = true ∧
            update lib id now changes dir = (.ok (some entry), dir)) ∨
          (unchanged lib entry { entry with settings := changes.apply entry.settings } = false ∧
            postInit lib (changes.apply entry.settings) = .ok () ∧
            update lib id now changes dir =
              (.ok (some { entry with settings := changes.apply entry.settings, updatedAt := now }),
                save lib { entry with settings := changes.apply entry.settings, updatedAt := now } dir))) := by
  simp only [update]
  cases hget : get lib id dir with
  | none => exact .inl ⟨rfl, rfl⟩
  | some entry =>
    refine .inr ⟨entry, rfl, ?_⟩
    simp only
    cases hvalid : postInit lib (changes.apply entry.settings) with
    | error e => exact .inl ⟨e, rfl⟩
    | ok _ =>
      cases hsame : unchanged lib entry { entry with settings := changes.apply entry.settings } with
      | true => exact .inr (.inl ⟨rfl, rfl⟩)
      | false => exact .inr (.inr ⟨rfl, rfl, rfl⟩)

/-- What `promote_winner` can do: it finds no entry, raises, or updates the one it finds. -/
theorem promoteWinner_cases (id : String) (now promotedAt : ℕ) (promotion : Promotion) (dir : Directory) :
    (get lib id dir = none ∧ promoteWinner lib id now promotedAt promotion dir = (.ok none, dir)) ∨
      ∃ entry, get lib id dir = some entry ∧
        ((∃ e, promoteWinner lib id now promotedAt promotion dir = (.error e, dir)) ∨
          ∃ history, promotionHistory entry.settings.metadata = .ok history ∧
            promoteWinner lib id now promotedAt promotion dir =
              update lib id now (promotedChanges lib promotedAt promotion entry.settings history) dir) := by
  simp only [promoteWinner]
  cases hget : get lib id dir with
  | none => exact .inl ⟨rfl, rfl⟩
  | some entry =>
    refine .inr ⟨entry, rfl, ?_⟩
    simp only
    split
    · exact .inl ⟨_, rfl⟩
    · cases promotionHistory entry.settings.metadata with
      | error e => exact .inl ⟨e, rfl⟩
      | ok history => exact .inr ⟨history, rfl, rfl⟩

/-- What a call may do to the directory, and what it returns. -/
structure Steady (lib : BibleLibrary) (op : Op) (dir : Directory) : Prop where
  /-- A call that raises has changed nothing. -/
  raised : ∀ e, (op.exec lib dir).1 = .error e → (op.exec lib dir).2 = dir
  /-- No other file is touched. -/
  others : ∀ id, id ≠ op.target → (op.exec lib dir).2.get? id = dir.get? id
  /-- What is returned is what is read afterwards. -/
  returned : ∀ entry, (op.exec lib dir).1 = .ok (some entry) → get lib op.target (op.exec lib dir).2 = some entry.saved
  /-- Nothing but `create` decides when an entry was created. -/
  created : (∀ id now settings, op ≠ .create id now settings) → ∀ before after,
    get lib op.target dir = some before → get lib op.target (op.exec lib dir).2 = some after →
      after.createdAt = before.createdAt

theorem steady_update (hdir : Sound lib dir) (id : String) (now : ℕ) (changes : Changes) :
    Steady lib (.update id now changes) dir ∧ Sound lib (update lib id now changes dir).2 := by
  rcases @update_cases lib id now changes dir with ⟨hget, h⟩ | ⟨entry, hget, ⟨e, h⟩ | ⟨-, h⟩ | ⟨-, hvalid, h⟩⟩
  · refine ⟨⟨?_, ?_, ?_, ?_⟩, ?_⟩ <;> simp [Op.exec, Op.target, h, hdir, hget]
  · refine ⟨⟨?_, ?_, ?_, ?_⟩, ?_⟩ <;> simp [Op.exec, Op.target, h, hdir, hget]
  · have hsaved := (hdir.get hget).2.2
    refine ⟨⟨?_, ?_, ?_, ?_⟩, ?_⟩ <;> simp [Op.exec, Op.target, h, hdir, hget, hsaved]
  · have hid := (hdir.get hget).1
    have hread := @get_save lib { entry with settings := changes.apply entry.settings, updatedAt := now } hvalid dir
    subst hid
    refine ⟨⟨?_, ?_, ?_, ?_⟩, ?_⟩
    · simp [Op.exec, h]
    · intro id' hne
      simp only [Op.exec, h]
      rw [get?_save]
      exact if_neg hne.symm
    · simp only [Op.exec, Op.target, h, Except.ok.injEq, Option.some.injEq]
      rintro _ rfl
      exact hread
    · simp only [Op.exec, Op.target, h, hget, Option.some.injEq]
      intro _ before after hbefore hafter
      rw [hread, Option.some.injEq] at hafter
      rw [← hbefore, ← hafter]
      rfl
    · rw [h]
      exact hdir.save hvalid

theorem steady_of_same (op : Op) (hsame : (op.exec lib dir).2 = dir)
    (hreturned : ∀ entry, (op.exec lib dir).1 ≠ .ok (some entry)) : Steady lib op dir := by
  refine ⟨fun _ _ => hsame, fun id _ => by rw [hsame], fun entry h => absurd h (hreturned entry), ?_⟩
  intro _ before after hbefore hafter
  rw [hsame, hbefore] at hafter
  rw [Option.some.inj hafter]

theorem steady_create (hdir : Sound lib dir) (id : String) (now : ℕ) (settings : Settings) :
    Steady lib (.create id now settings) dir ∧ Sound lib (create lib id now settings dir).2 := by
  cases hvalid : postInit lib settings with
  | error e =>
    have h : create lib id now settings dir = (.error e, dir) := by simp only [create, hvalid]
    refine ⟨steady_of_same _ ?_ ?_, ?_⟩ <;> simp [Op.exec, h, hdir, Except.map]
  | ok _ =>
    have h : create lib id now settings dir =
        (.ok ⟨id, settings, now, now⟩, save lib ⟨id, settings, now, now⟩ dir) := by
      simp only [create, hvalid]
    have hread := @get_save lib ⟨id, settings, now, now⟩ hvalid dir
    refine ⟨⟨?_, ?_, ?_, ?_⟩, ?_⟩
    · simp [Op.exec, h, Except.map]
    · intro id' hne
      simp only [Op.exec, h]
      rw [get?_save]
      exact if_neg hne.symm
    · simp only [Op.exec, Op.target, h, Except.map, Except.ok.injEq, Option.some.injEq]
      rintro _ rfl
      exact hread
    · intro hne
      exact absurd rfl (hne id now settings)
    · rw [h]
      exact hdir.save hvalid

theorem steady_delete (hdir : Sound lib dir) (id : String) :
    Steady lib (.delete id) dir ∧ Sound lib (delete id dir).2 := by
  refine ⟨⟨?_, ?_, ?_, ?_⟩, hdir.delete id⟩
  · simp [Op.exec]
  · intro id' hne
    simp only [Op.exec, delete]
    split
    · rw [Dict.get?_erase]
      exact if_neg hne
    · rfl
  · simp [Op.exec]
  · intro _ before after hbefore hafter
    simp only [Op.exec, Op.target, delete] at hbefore hafter
    have hthere : (dir.get? id).isSome := by
      rw [← hdir.isSome_get, hbefore, Option.isSome_some]
    rw [if_pos hthere, get, Dict.get?_erase, if_pos rfl] at hafter
    cases hafter

theorem steady_exec (hdir : Sound lib dir) (op : Op) : Steady lib op dir ∧ Sound lib (op.exec lib dir).2 := by
  cases op with
  | create id now settings => exact steady_create hdir id now settings
  | update id now changes => exact steady_update hdir id now changes
  | promote id now promotedAt promotion =>
    rcases @promoteWinner_cases lib id now promotedAt promotion dir with ⟨-, h⟩ | ⟨entry, -, ⟨e, h⟩ | ⟨history, -, h⟩⟩
    · refine ⟨steady_of_same _ ?_ ?_, ?_⟩ <;> simp [Op.exec, h, hdir]
    · refine ⟨steady_of_same _ ?_ ?_, ?_⟩ <;> simp [Op.exec, h, hdir]
    · obtain ⟨hsteady, hsound⟩ :=
        @steady_update lib dir hdir id now (promotedChanges lib promotedAt promotion entry.settings history)
      have hexec : (Op.promote id now promotedAt promotion).exec lib dir =
          (Op.update id now (promotedChanges lib promotedAt promotion entry.settings history)).exec lib dir := h
      refine ⟨⟨?_, ?_, ?_, ?_⟩, ?_⟩
      · rw [hexec]
        exact hsteady.raised
      · rw [hexec]
        exact hsteady.others
      · rw [hexec]
        exact hsteady.returned
      · rw [hexec]
        intro _
        exact hsteady.created (by simp)
      · rw [hexec]
        exact hsound
  | delete id => exact steady_delete hdir id

theorem sound_nil : Sound lib [] := by
  intro id file hfile
  cases hfile

theorem sound_run (ops : List Op) (hdir : Sound lib dir) : Sound lib (run lib ops dir) := by
  induction ops generalizing dir with
  | nil => exact hdir
  | cons op rest ih => exact ih (steady_exec hdir op).2

end

end CreativeStudio.Bible
