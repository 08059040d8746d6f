import CreativeStudio.Prompting.Composer

/-!
# Locks win

An entry can lock an attribute or a seed, and one entry can bring an adapter. In the order of composition
the first entry that does so decides, whatever has been assigned before; every entry or axis after it that
says something else is reported.
-/

namespace CreativeStudio.Prompting
open Data

/-! ## What an entry says -/

/-- The value that an entry gives a slot. -/
def BibleEntry.valueOf (lib : PromptLibrary) (entry : BibleEntry) (slot : String) : Option String :=
  (entry.attributes.get? slot).map lib.format

/-- The value that an entry locks a slot to. -/
def BibleEntry.lockOf (lib : PromptLibrary) (slot : String) (entry : BibleEntry) : Option String :=
  if entry.lockedFields.contains slot then entry.valueOf lib slot else none

/-- The adapter that an entry brings. -/
def BibleEntry.adapter (entry : BibleEntry) : Option Obj := entry.lora.filter fun lora => !lora.isEmpty

/-- `str(lora.get("path"))`. -/
def adapterPath (lib : PromptLibrary) (lora : Obj) : String := lib.format ((lora.get? "path").getD .null)

/-- The value that an axis gives a slot. -/
def axisValueOf (lib : PromptLibrary) (patch : Json) (slot : String) : Option String :=
  ((normalizeAxisPatch lib patch).attributes.get? slot).map lib.format

/-- What is reported of a value that a lock has kept out. -/
def attributeConflict (lib : PromptLibrary) (slot kept holder value name : String) : String :=
  s!"locked attribute {lib.repr slot} kept as {lib.repr kept} from {lib.repr holder}; " ++
    s!"ignored {lib.repr value} from {lib.repr name}"

/-- What is reported of a second adapter. -/
def loraConflict (lib : PromptLibrary) (holder name : String) : String :=
  "LoRA conflict: keeping " ++ lib.repr holder ++ " and ignoring " ++
    s!"{lib.repr name}; only one LoRA can be applied per generation"

/-- What is reported of a second seed. -/
def seedConflict (lib : PromptLibrary) (seed : ℤ) (holder : String) (other : ℤ) (name : String) : String :=
  s!"Seed lock conflict: keeping seed {lib.format (.int seed)} " ++
    s!"from {lib.repr holder} and ignoring {other} from {lib.repr name}"

/-! ## What a step decides -/

namespace Draft

/-- A locked slot has the value it is locked to. -/
def Settled (draft : Draft) : Prop :=
  ∀ slot value, draft.lockedAttributes.get? slot = some value → draft.attributes.get? slot = some value

/-- From one draft to a later one: what has been decided stays, what has not been may be decided now, and no
conflict is forgotten. -/
structure Decides (locks : String → Option String) (adapter : Option Obj) (pinned : Option ℤ) (a b : Draft) :
    Prop where
  locked : ∀ slot, b.lockedAttributes.get? slot = (a.lockedAttributes.get? slot).or (locks slot)
  settled : a.Settled → b.Settled
  lora : b.lora = a.lora.or adapter
  seed : b.seed = if a.seedOwner.isSome then a.seed else pinned.or a.seed
  seedOwner : b.seedOwner.isSome = (a.seedOwner.isSome || pinned.isSome)
  conflicts : ∀ conflict ∈ a.conflicts, conflict ∈ b.conflicts

/-- Nothing is decided. -/
abbrev Keeps (a b : Draft) : Prop := Decides (fun _ => none) none none a b

section
variable {a b c : Draft} {locks locks' : String → Option String} {adapter adapter' : Option Obj}
variable {pinned pinned' : Option ℤ}

theorem Keeps.refl (a : Draft) : a.Keeps a := ⟨by simp, id, by simp, by simp, by simp, by simp⟩

theorem Decides.congr (h : a.Decides locks adapter pinned b) (hlocks : ∀ slot, locks slot = locks' slot) :
    a.Decides locks' adapter pinned b := by
  rw [← show locks = locks' from funext hlocks]
  exact h

theorem Decides.trans (h : a.Decides locks adapter pinned b) (h' : b.Decides locks' adapter' pinned' c) :
    a.Decides (fun slot => (locks slot).or (locks' slot)) (adapter.or adapter')
      (pinned.or pinned') c where
  locked slot := by rw [h'.locked, h.locked, Option.or_assoc]
  settled ha := h'.settled (h.settled ha)
  lora := by rw [h'.lora, h.lora, Option.or_assoc]
  seed := by
    rw [h'.seed, h.seedOwner, h.seed]
    cases a.seedOwner <;> cases pinned <;> simp
  seedOwner := by
    rw [h'.seedOwner, h.seedOwner]
    cases a.seedOwner <;> cases pinned <;> simp
  conflicts conflict hmem := h'.conflicts conflict (h.conflicts conflict hmem)

theorem Decides.keeps (h : a.Decides locks adapter pinned b) (h' : b.Keeps c) : a.Decides locks adapter pinned c := by
  have hboth := h.trans h'
  simpa using hboth

theorem Keeps.decides (h : a.Keeps b) (h' : b.Decides locks adapter pinned c) : a.Decides locks adapter pinned c := by
  have hboth := h.trans h'
  simpa using hboth

theorem Keeps.foldl {ι : Type} {step : Draft → ι → Draft} (hstep : ∀ draft i, Keeps draft (step draft i))
    (items : List ι) (draft : Draft) : draft.Keeps (items.foldl step draft) := by
  induction items generalizing draft with
  | nil => exact Keeps.refl draft
  | cons i rest ih => exact (hstep draft i).keeps (ih _)

/-- The fields that a decision is about. -/
theorem keeps_of_eq (hattributes : b.attributes = a.attributes) (hlocked : b.lockedAttributes = a.lockedAttributes)
    (hlora : b.lora = a.lora) (hseed : b.seed = a.seed) (howner : b.seedOwner = a.seedOwner)
    (hconflicts : b.conflicts = a.conflicts) : a.Keeps b where
  locked := by simp [hlocked]
  settled := by
    unfold Settled
    rw [hattributes, hlocked]
    exact id
  lora := by simp [hlora]
  seed := by simp [hseed]
  seedOwner := by simp [howner]
  conflicts := by simp [hconflicts]

end

variable {lib : PromptLibrary}

theorem keeps_addPositive (fragment : String) (draft : Draft) : draft.Keeps (draft.addPositive fragment) :=
  keeps_of_eq rfl rfl rfl rfl rfl rfl

theorem keeps_addNegative (fragment : String) (draft : Draft) : draft.Keeps (draft.addNegative fragment) :=
  keeps_of_eq rfl rfl rfl rfl rfl rfl

theorem keeps_note (record : Obj) (draft : Draft) : draft.Keeps (draft.note record) :=
  keeps_of_eq rfl rfl rfl rfl rfl rfl

theorem keeps_addPalette (colors : List String) (draft : Draft) : draft.Keeps (draft.addPalette colors) :=
  keeps_of_eq rfl rfl rfl rfl rfl rfl

theorem keeps_stateAttributes (draft : Draft) : draft.Keeps draft.stateAttributes :=
  keeps_of_eq rfl rfl rfl rfl rfl rfl

theorem keeps_addFrom (source : String) (draft : Draft) (fragment : String) :
    draft.Keeps (draft.addFrom source fragment) := by
  unfold addFrom
  split
  · exact Keeps.refl draft
  · exact (draft.keeps_addPositive fragment).keeps (keeps_note _ _)

theorem keeps_report (conflict : String) (draft : Draft) : draft.Keeps (draft.report conflict) where
  locked := by simp [report]
  settled h := h
  lora := by simp [report]
  seed := by simp [report]
  seedOwner := by simp [report]
  conflicts other h := List.mem_append_left _ h

/-! ### Attributes -/

/-- A slot is assigned, and locked if that is asked for and no lock stands. -/
theorem decides_assignAttribute (name : String) (isLocked : Bool) (draft : Draft) (slot value : String) :
    draft.Decides (fun other => if other = slot ∧ isLocked then some value else none) none none
      (draft.assignAttribute lib name isLocked slot value) := by
  unfold assignAttribute
  cases hkept : (draft.lockedAttributes.get? slot).filter fun kept => kept ≠ value with
  | some kept =>
    obtain ⟨hlock, -⟩ := Option.filter_eq_some_iff.mp hkept
    refine ⟨fun other => ?_, id, by simp [report], by simp [report], by simp [report],
      fun conflict hmem => List.mem_append_left _ hmem⟩
    by_cases hother : other = slot
    · simp [report, hother, hlock]
    · simp [report, hother]
  | none =>
    have hstands : ∀ kept, draft.lockedAttributes.get? slot = some kept → kept = value := by
      intro kept hlock
      rw [hlock] at hkept
      simpa using hkept
    refine ⟨fun other => ?_, fun hsettled other kept hlock => ?_, by simp, by simp, by simp, by simp⟩
    · by_cases hother : other = slot
      · subst hother
        cases isLocked with
        | false => simp
        | true =>
          cases hlock : draft.lockedAttributes.get? other with
          | none => simp
          | some kept => simp [hstands kept hlock]
      · cases isLocked <;> simp [hother, Dict.get?_set_ne _ _ (Ne.symm hother)]
    · simp only [Dict.get?_set] at hlock ⊢
      by_cases hother : slot = other
      · subst hother
        rw [if_pos rfl]
        cases isLocked with
        | false => rw [hstands kept hlock]
        | true => simpa using hlock
      · rw [if_neg hother]
        cases isLocked with
        | false => exact hsettled other kept hlock
        | true =>
          refine hsettled other kept ?_
          simpa [Dict.get?_set, hother] using hlock

theorem decides_foldl_assignAttribute (name : String) (lockedFields : List String) (members : Obj) (draft : Draft) :
    draft.Decides (fun slot => if lockedFields.contains slot then (members.get? slot).map lib.format else none) none
      none (members.foldl (fun draft slot =>
        draft.assignAttribute lib name (lockedFields.contains slot.1) slot.1 (lib.format slot.2)) draft) := by
  induction members generalizing draft with
  | nil =>
    refine (Keeps.refl draft).congr fun slot => ?_
    simp [Dict.get?]
  | cons member rest ih =>
    obtain ⟨slot, value⟩ := member
    have hfirst := @decides_assignAttribute lib name (lockedFields.contains slot) draft slot (lib.format value)
    refine (hfirst.trans (ih _)).congr fun other => ?_
    by_cases hother : other = slot
    · subst hother
      cases lockedFields.contains other <;> simp [Dict.get?]
    · simp [Dict.get?, hother, Ne.symm hother]

/-- The attributes of an entry or of an axis lock what its locked fields name. -/
theorem decides_assignAttributes (name : String) (lockedFields : List String) (attributes : Obj) (draft : Draft) :
    draft.Decides (fun slot => if lockedFields.contains slot then (attributes.get? slot).map lib.format else none)
      none none (draft.assignAttributes lib name lockedFields attributes) := by
  refine (decides_foldl_assignAttribute name lockedFields (Dict.sortByName attributes) draft).congr fun slot => ?_
  rw [Dict.get?_sortByName]

theorem attributeConflict_of_assignAttribute {draft : Draft} {slot kept : String} (isLocked : Bool)
    (hlock : draft.lockedAttributes.get? slot = some kept) {value : String} (hne : value ≠ kept) (name : String) :
    ∃ holder, attributeConflict lib slot kept holder value name ∈
      (draft.assignAttribute lib name isLocked slot value).conflicts := by
  have hkept : (draft.lockedAttributes.get? slot).filter (fun kept => kept ≠ value) = some kept := by
    rw [hlock]
    simp [Ne.symm hne]
  refine ⟨(draft.attributeOwners.get? slot).getD "", ?_⟩
  rw [assignAttribute, hkept]
  exact List.mem_append_right _ List.mem_cons_self

/-- Another value for a locked slot is reported. -/
theorem attributeConflict_of_assignAttributes {draft : Draft} {slot kept : String} (lockedFields : List String)
    (hlock : draft.lockedAttributes.get? slot = some kept) {attributes : Obj} {value : String}
    (hvalue : (attributes.get? slot).map lib.format = some value) (hne : value ≠ kept) (name : String) :
    ∃ holder, attributeConflict lib slot kept holder value name ∈
      (draft.assignAttributes lib name lockedFields attributes).conflicts := by
  obtain ⟨json, hjson, rfl⟩ := Option.map_eq_some_iff.mp hvalue
  rw [← Dict.get?_sortByName] at hjson
  have hmem := Dict.mem_of_get? hjson
  rw [assignAttributes]
  generalize Dict.sortByName attributes = members at hmem
  induction members generalizing draft with
  | nil => cases hmem
  | cons member rest ih =>
    rw [List.foldl_cons]
    have hrest := @decides_foldl_assignAttribute lib name lockedFields rest
      (draft.assignAttribute lib name (lockedFields.contains member.1) member.1 (lib.format member.2))
    rcases List.mem_cons.mp hmem with rfl | hlater
    · obtain ⟨holder, hreport⟩ := @attributeConflict_of_assignAttribute lib draft slot kept
        (lockedFields.contains slot) hlock _ hne name
      exact ⟨holder, hrest.conflicts _ hreport⟩
    · refine ih ?_ hlater
      rw [(decides_assignAttribute name _ draft member.1 _).locked, hlock]
      rfl

/-! ### Adapters and seeds -/

theorem decides_addLora (entry : BibleEntry) (draft : Draft) :
    draft.Decides (fun _ => none) entry.adapter none (draft.addLora lib entry) := by
  unfold addLora BibleEntry.adapter
  cases entry.lora.filter fun lora => !lora.isEmpty with
  | none => exact Keeps.refl draft
  | some lora =>
    cases hkept : draft.lora with
    | none => exact ⟨by simp, id, by simp [hkept], by simp, by simp, by simp⟩
    | some kept =>
      have hsame (other : Draft) (h : draft.Keeps other) : draft.Decides (fun _ => none) (some lora) none other :=
        ⟨h.locked, h.settled, by rw [h.lora, hkept]; rfl, h.seed, h.seedOwner, h.conflicts⟩
      simp only
      split
      · exact hsame draft (Keeps.refl draft)
      · exact hsame _ (keeps_report _ draft)

/-- An adapter of another path is reported. -/
theorem loraConflict_of_addLora {draft : Draft} {kept lora : Obj} (hkept : draft.lora = some kept)
    {entry : BibleEntry} (hadapter : entry.adapter = some lora) (hne : adapterPath lib lora ≠ adapterPath lib kept) :
    ∃ holder, loraConflict lib holder entry.name ∈ (draft.addLora lib entry).conflicts := by
  refine ⟨draft.loraOwner.getD "", ?_⟩
  unfold BibleEntry.adapter at hadapter
  unfold adapterPath at hne
  simp only [addLora, hadapter, hkept, hne, if_false]
  exact List.mem_append_right _ List.mem_cons_self

theorem decides_lockSeed (entry : BibleEntry) (draft : Draft) :
    draft.Decides (fun _ => none) none entry.lockedSeed (draft.lockSeed lib entry) := by
  unfold lockSeed
  cases entry.lockedSeed with
  | none => exact Keeps.refl draft
  | some locked =>
    cases howner : draft.seedOwner with
    | none => exact ⟨by simp [note], id, by simp [note], by simp [note, howner], by simp [note], by simp [note]⟩
    | some owner =>
      have hsame (other : Draft) (h : draft.Keeps other) : draft.Decides (fun _ => none) none (some locked) other :=
        ⟨h.locked, h.settled, h.lora, by simp [h.seed, howner], by simp [h.seedOwner, howner], h.conflicts⟩
      simp only
      split
      · exact hsame draft (Keeps.refl draft)
      · exact hsame _ (keeps_report _ draft)

/-- Another seed is reported. -/
theorem seedConflict_of_lockSeed {draft : Draft} {seed other : ℤ} (howner : draft.seedOwner.isSome)
    (hseed : draft.seed = some seed) {entry : BibleEntry} (hlocked : entry.lockedSeed = some other)
    (hne : other ≠ seed) :
    ∃ holder, seedConflict lib seed holder other entry.name ∈ (draft.lockSeed lib entry).conflicts := by
  obtain ⟨holder, hholder⟩ := Option.isSome_iff_exists.mp howner
  refine ⟨holder, ?_⟩
  have hother : ¬draft.seed = some other := by
    rw [hseed]
    exact fun heq => hne (Option.some.inj heq).symm
  simp only [lockSeed, hlocked, hholder, hother, if_false]
  rw [hseed]
  exact List.mem_append_right _ List.mem_cons_self

/-! ### Entries and axes -/

theorem decides_describe (entry : BibleEntry) (draft : Draft) :
    draft.Decides (fun slot => entry.lockOf lib slot) none none (draft.describe lib entry) := by
  have htokens := (draft.keeps_addPositive entry.promptFragment).keeps
    (Keeps.foldl (fun draft token => keeps_addPositive token draft) entry.tokens _)
  have hnegative := htokens.keeps (keeps_addNegative entry.negativeFragment _)
  exact Keeps.decides hnegative (decides_assignAttributes entry.name entry.lockedFields entry.attributes _)

/-- Another value that an entry gives a locked slot is reported. -/
theorem attributeConflict_of_describe {draft : Draft} {slot kept : String}
    (hlock : draft.lockedAttributes.get? slot = some kept) {entry : BibleEntry} {value : String}
    (hvalue : entry.valueOf lib slot = some value) (hne : value ≠ kept) :
    ∃ holder, attributeConflict lib slot kept holder value entry.name ∈ (draft.describe lib entry).conflicts := by
  have htokens := (draft.keeps_addPositive entry.promptFragment).keeps
    (Keeps.foldl (fun draft token => keeps_addPositive token draft) entry.tokens _)
  have hnegative := htokens.keeps (keeps_addNegative entry.negativeFragment _)
  exact attributeConflict_of_assignAttributes entry.lockedFields (by rw [hnegative.locked, hlock]; rfl) hvalue hne
    entry.name

theorem keeps_addAxis (draft : Draft) (axis : String × Json) : draft.Keeps (draft.addAxis lib axis) := by
  have htexts := ((draft.keeps_addPositive (normalizeAxisPatch lib axis.2).fragment).keeps
    (keeps_addNegative (normalizeAxisPatch lib axis.2).negative _)).keeps
      (keeps_addPalette (normalizeAxisPatch lib axis.2).palette _)
  have hattributes := Keeps.decides htexts
    (@decides_assignAttributes lib axis.1 [] (normalizeAxisPatch lib axis.2).attributes _)
  refine Decides.keeps ?_ (keeps_note _ _)
  exact hattributes.congr fun slot => by simp

/-- Another value that an axis gives a locked slot is reported. -/
theorem attributeConflict_of_addAxis {draft : Draft} {slot kept : String}
    (hlock : draft.lockedAttributes.get? slot = some kept) {axis : String × Json} {value : String}
    (hvalue : axisValueOf lib axis.2 slot = some value) (hne : value ≠ kept) :
    ∃ holder, attributeConflict lib slot kept holder value axis.1 ∈ (draft.addAxis lib axis).conflicts :=
  @attributeConflict_of_assignAttributes lib (((draft.addPositive (normalizeAxisPatch lib axis.2).fragment).addNegative
    (normalizeAxisPatch lib axis.2).negative).addPalette (normalizeAxisPatch lib axis.2).palette) slot kept []
    hlock _ value hvalue hne axis.1

theorem keeps_axes (axes : Obj) (draft : Draft) : draft.Keeps (axes.foldl (Draft.addAxis lib) draft) :=
  Keeps.foldl keeps_addAxis axes draft

theorem attributeConflict_of_axes {draft : Draft} {slot kept : String}
    (hlock : draft.lockedAttributes.get? slot = some kept) {axes : Obj} {axis : String × Json} (hmem : axis ∈ axes)
    {value : String} (hvalue : axisValueOf lib axis.2 slot = some value) (hne : value ≠ kept) :
    ∃ holder, attributeConflict lib slot kept holder value axis.1 ∈
      (axes.foldl (Draft.addAxis lib) draft).conflicts := by
  induction axes generalizing draft with
  | nil => cases hmem
  | cons first rest ih =>
    rw [List.foldl_cons]
    rcases List.mem_cons.mp hmem with rfl | hlater
    · obtain ⟨holder, hreport⟩ := attributeConflict_of_addAxis hlock hvalue hne
      exact ⟨holder, (keeps_axes rest _).conflicts _ hreport⟩
    · refine ih ?_ hlater
      rw [(keeps_addAxis _ first).locked, hlock]
      rfl

end Draft

section
variable {lib : PromptLibrary} {composer : PromptComposer} {draft draft' : Draft} {entry : BibleEntry}

theorem keeps_resolveReferences {entryName : String} {role : ReferenceRole} {ids : List String}
    (h : ids.foldlM (composer.resolveReference lib entryName role) draft = .ok draft') : draft.Keeps draft' := by
  induction ids generalizing draft with
  | nil =>
    cases h
    exact Draft.Keeps.refl _
  | cons assetId rest ih =>
    obtain ⟨mid, hmid, hrest⟩ := ok_of_bind h
    refine Draft.Decides.keeps ?_ (ih hrest)
    unfold PromptComposer.resolveReference at hmid
    split at hmid
    · cases hmid
      exact Draft.Keeps.refl draft
    · obtain ⟨-, -, rfl⟩ := ok_of_map hmid
      exact Draft.keeps_of_eq rfl rfl rfl rfl rfl rfl

theorem keeps_addReferences (h : composer.addReferences lib entry draft = .ok draft') : draft.Keeps draft' := by
  have hids : draft.Keeps (draft.addReferenceIds entry.referenceAssetIds) :=
    Draft.keeps_of_eq rfl rfl rfl rfl rfl rfl
  unfold PromptComposer.addReferences at h
  simp only at h
  split at h
  · cases h
    exact hids
  · exact hids.keeps (keeps_resolveReferences h)

/-- What an entry decides. -/
theorem decides_addEntry (h : composer.addEntry lib draft entry = .ok draft') :
    draft.Decides (fun slot => entry.lockOf lib slot) entry.adapter entry.lockedSeed draft' := by
  obtain ⟨mid, hmid, hrest⟩ := ok_of_bind h
  cases hrest
  have hdescribed := (@Draft.decides_describe lib entry draft).keeps (keeps_addReferences hmid)
  have hpalette := hdescribed.keeps (Draft.keeps_addPalette entry.palette mid)
  have hlora := hpalette.trans (@Draft.decides_addLora lib entry _)
  refine Draft.Decides.keeps ?_ (Draft.keeps_note _ _)
  simpa using hlora.trans (@Draft.decides_lockSeed lib entry _)

/-- What an entry reports of the locks, the adapter and the seed that stand before it. -/
structure Reports (lib : PromptLibrary) (draft : Draft) (entry : BibleEntry) (draft' : Draft) : Prop where
  assigned : ∀ slot kept value, draft.lockedAttributes.get? slot = some kept → entry.valueOf lib slot = some value →
    value ≠ kept → ∃ holder, attributeConflict lib slot kept holder value entry.name ∈ draft'.conflicts
  lora : ∀ kept lora, draft.lora = some kept → entry.adapter = some lora →
    adapterPath lib lora ≠ adapterPath lib kept → ∃ holder, loraConflict lib holder entry.name ∈ draft'.conflicts
  seed : ∀ seed other, draft.seedOwner.isSome → draft.seed = some seed → entry.lockedSeed = some other →
    other ≠ seed → ∃ holder, seedConflict lib seed holder other entry.name ∈ draft'.conflicts

theorem reports_addEntry (h : composer.addEntry lib draft entry = .ok draft') : Reports lib draft entry draft' := by
  obtain ⟨mid, hmid, hrest⟩ := ok_of_bind h
  cases hrest
  have hdescribed := @Draft.decides_describe lib entry draft
  have hpalette := (keeps_addReferences hmid).keeps (Draft.keeps_addPalette entry.palette mid)
  have hbefore := hdescribed.keeps hpalette
  have hlora := @Draft.decides_addLora lib entry (mid.addPalette entry.palette)
  have hlock := @Draft.decides_lockSeed lib entry ((mid.addPalette entry.palette).addLora lib entry)
  refine ⟨fun slot kept value hkept hvalue hne => ?_, fun kept lora hkept hadapter hne => ?_,
    fun seed other howner hseed hlocked hne => ?_⟩
  · obtain ⟨holder, hreport⟩ := Draft.attributeConflict_of_describe hkept hvalue hne
    exact ⟨holder, hlock.conflicts _ (hlora.conflicts _ (hpalette.conflicts _ hreport))⟩
  · have hstands : (mid.addPalette entry.palette).lora = some kept := by
      rw [hbefore.lora, hkept]
      rfl
    obtain ⟨holder, hreport⟩ := Draft.loraConflict_of_addLora hstands hadapter hne
    exact ⟨holder, hlock.conflicts _ hreport⟩
  · have hall := hbefore.trans hlora
    have howner' : ((mid.addPalette entry.palette).addLora lib entry).seedOwner.isSome := by
      rw [hall.seedOwner, howner]
      rfl
    have hseed' : ((mid.addPalette entry.palette).addLora lib entry).seed = some seed := by
      rw [hall.seed, if_pos howner, hseed]
    obtain ⟨holder, hreport⟩ := @Draft.seedConflict_of_lockSeed lib _ _ _ howner' hseed' _ hlocked hne
    exact ⟨holder, hreport⟩

/-! ## All entries -/

/-- What the entries decide is what the first of them does. -/
theorem decides_entries {entries : List BibleEntry} (h : entries.foldlM (composer.addEntry lib) draft = .ok draft') :
    draft.Decides (fun slot => entries.findSome? (BibleEntry.lockOf lib slot))
      (entries.findSome? BibleEntry.adapter) (entries.findSome? BibleEntry.lockedSeed) draft' := by
  induction entries generalizing draft with
  | nil =>
    cases h
    exact Draft.Keeps.refl _
  | cons entry rest ih =>
    obtain ⟨mid, hmid, hrest⟩ := ok_of_bind h
    have hboth := (decides_addEntry hmid).trans (ih hrest)
    have hcons {β : Type} (f : BibleEntry → Option β) :
        (entry :: rest).findSome? f = (f entry).or (rest.findSome? f) := by
      rw [List.findSome?_cons]
      cases f entry <;> rfl
    rw [hcons, hcons]
    exact hboth.congr fun slot => (hcons _).symm

/-- A later entry reports what stands before all of them. -/
theorem reports_entries {entries : List BibleEntry} (h : entries.foldlM (composer.addEntry lib) draft = .ok draft')
    {later : BibleEntry} (hmem : later ∈ entries) : Reports lib draft later draft' := by
  induction entries generalizing draft with
  | nil => cases hmem
  | cons entry rest ih =>
    obtain ⟨mid, hmid, hrest⟩ := ok_of_bind h
    rcases List.mem_cons.mp hmem with rfl | hlater
    · have hreports := reports_addEntry hmid
      have hstays := (decides_entries hrest).conflicts
      refine ⟨fun slot kept value hkept hvalue hne => ?_, fun kept lora hkept hadapter hne => ?_,
        fun seed other howner hseed hlocked hne => ?_⟩
      · obtain ⟨holder, hreport⟩ := hreports.assigned slot kept value hkept hvalue hne
        exact ⟨holder, hstays _ hreport⟩
      · obtain ⟨holder, hreport⟩ := hreports.lora kept lora hkept hadapter hne
        exact ⟨holder, hstays _ hreport⟩
      · obtain ⟨holder, hreport⟩ := hreports.seed seed other howner hseed hlocked hne
        exact ⟨holder, hstays _ hreport⟩
    · have hentry := decides_addEntry hmid
      have hreports := ih hrest hlater
      refine ⟨fun slot kept value hkept => hreports.assigned slot kept value (by rw [hentry.locked, hkept]; rfl),
        fun kept lora hkept => hreports.lora kept lora (by rw [hentry.lora, hkept]; rfl),
        fun seed other howner hseed => hreports.seed seed other (by rw [hentry.seedOwner, howner]; rfl)
          (by rw [hentry.seed, if_pos howner, hseed])⟩

theorem split_entries {before after : List BibleEntry} {owner : BibleEntry}
    (h : (before ++ owner :: after).foldlM (composer.addEntry lib) draft = .ok draft') :
    ∃ mid, (before ++ [owner]).foldlM (composer.addEntry lib) draft = .ok mid ∧
      after.foldlM (composer.addEntry lib) mid = .ok draft' := by
  have hsplit : before ++ owner :: after = (before ++ [owner]) ++ after := by simp
  rw [hsplit, List.foldlM_append] at h
  exact ok_of_bind h

theorem findSome?_of_first {β : Type} {f : BibleEntry → Option β} {before : List BibleEntry} {owner : BibleEntry}
    {b : β}
    (hbefore : ∀ entry ∈ before, f entry = none) (howner : f owner = some b) :
    (before ++ [owner]).findSome? f = some b := by
  rw [List.findSome?_append, List.findSome?_eq_none_iff.mpr hbefore]
  simp [howner]

/-! ## Before the first entry and after the last -/

theorem keeps_finishDraft (spec : PromptSpec) (draft : Draft) :
    ((Dict.sortByName spec.axisValues).foldl (Draft.addAxis lib) draft).Keeps
      (PromptComposer.finishDraft lib spec draft) := by
  have hextra := Draft.Keeps.foldl (Draft.keeps_addFrom "extra") spec.extraFragments
    ((Dict.sortByName spec.axisValues).foldl (Draft.addAxis lib) draft)
  refine Draft.Decides.keeps ?_ (Draft.keeps_addNegative _ _)
  exact (hextra.keeps (Draft.keeps_stateAttributes _)).keeps (Draft.keeps_addFrom "template" _ _)

/-- Nothing is locked, taken or pinned before the first entry. -/
structure Draft.Fresh (seed : Option ℤ) (draft : Draft) : Prop where
  lockedAttributes : ∀ slot, draft.lockedAttributes.get? slot = none
  lora : draft.lora = none
  seed : draft.seed = seed
  seedOwner : draft.seedOwner = none

theorem Draft.Fresh.keeps {seed : Option ℤ} {a b : Draft} (h : a.Fresh seed) (hkeeps : a.Keeps b) : b.Fresh seed where
  lockedAttributes slot := by rw [hkeeps.locked, h.lockedAttributes]; rfl
  lora := by rw [hkeeps.lora, h.lora]; rfl
  seed := by rw [hkeeps.seed, h.seedOwner, h.seed]; rfl
  seedOwner := by
    have hnone := hkeeps.seedOwner
    rw [h.seedOwner] at hnone
    simpa using hnone

theorem Draft.Fresh.settled {seed : Option ℤ} {draft : Draft} (h : draft.Fresh seed) : draft.Settled := by
  intro slot value hlock
  rw [h.lockedAttributes] at hlock
  cases hlock

theorem fresh_startingDraft (composer : PromptComposer) (spec : PromptSpec) :
    (composer.startingDraft spec).Fresh spec.seed := by
  have hempty : Draft.Fresh spec.seed { seed := spec.seed, conflicts := (composer.resolveEntries spec.bibleRefs).2 } :=
    ⟨fun slot => rfl, rfl, rfl, rfl⟩
  exact hempty.keeps ((Draft.keeps_addFrom "base" _ _).keeps (Draft.keeps_addNegative _ _))

/-- The draft after the entries up to the first that decides, after all entries and at the end. -/
structure Passes (lib : PromptLibrary) (composer : PromptComposer) (spec : PromptSpec) (before : List BibleEntry)
    (owner : BibleEntry) (after : List BibleEntry) (mid draft final : Draft) : Prop where
  first : (before ++ [owner]).foldlM (composer.addEntry lib) (composer.startingDraft spec) = .ok mid
  later : after.foldlM (composer.addEntry lib) mid = .ok draft
  finish : ((Dict.sortByName spec.axisValues).foldl (Draft.addAxis lib) draft).Keeps final

section
variable {spec : PromptSpec} {before after : List BibleEntry} {owner : BibleEntry} {mid final : Draft}

theorem Passes.decides_first (h : Passes lib composer spec before owner after mid draft final) :
    (composer.startingDraft spec).Decides (fun slot => (before ++ [owner]).findSome? (BibleEntry.lockOf lib slot))
      ((before ++ [owner]).findSome? BibleEntry.adapter) ((before ++ [owner]).findSome? BibleEntry.lockedSeed) mid :=
  decides_entries h.first

theorem Passes.keeps_final (h : Passes lib composer spec before owner after mid draft final) : draft.Keeps final :=
  (Draft.keeps_axes _ draft).keeps h.finish

/-- The first lock of a slot decides its value, and other values of it are reported. -/
theorem Passes.attributes (h : Passes lib composer spec before owner after mid draft final) {slot kept : String}
    (hbefore : ∀ entry ∈ before, entry.lockOf lib slot = none) (howner : owner.lockOf lib slot = some kept) :
    final.attributes.get? slot = some kept ∧
      (∀ later ∈ after, ∀ value, later.valueOf lib slot = some value → value ≠ kept →
        ∃ holder, attributeConflict lib slot kept holder value later.name ∈ final.conflicts) ∧
      ∀ axis patch value, spec.axisValues.get? axis = some patch → axisValueOf lib patch slot = some value →
        value ≠ kept → ∃ holder, attributeConflict lib slot kept holder value axis ∈ final.conflicts := by
  have hfirst := h.decides_first
  have hlater := decides_entries h.later
  have hstart := fresh_startingDraft composer spec
  have hmid : mid.lockedAttributes.get? slot = some kept := by
    rw [hfirst.locked, hstart.lockedAttributes, findSome?_of_first hbefore howner]
    rfl
  have hdraft : draft.lockedAttributes.get? slot = some kept := by
    rw [hlater.locked, hmid]
    rfl
  have hfinal : final.lockedAttributes.get? slot = some kept := by
    rw [h.keeps_final.locked, hdraft]
    rfl
  have hsettled := h.keeps_final.settled (hlater.settled (hfirst.settled hstart.settled))
  refine ⟨hsettled slot kept hfinal, fun later hmem value hvalue hne => ?_,
    fun axis patch value hpatch hvalue hne => ?_⟩
  · obtain ⟨holder, hreport⟩ := (reports_entries h.later hmem).assigned slot kept value hmid hvalue hne
    exact ⟨holder, h.keeps_final.conflicts _ hreport⟩
  · rw [← Dict.get?_sortByName] at hpatch
    obtain ⟨holder, hreport⟩ := Draft.attributeConflict_of_axes hdraft (Dict.mem_of_get? hpatch) hvalue hne
    exact ⟨holder, h.finish.conflicts _ hreport⟩

/-- The first seed that an entry locks decides, and other seeds are reported. -/
theorem Passes.seed (h : Passes lib composer spec before owner after mid draft final) {seed : ℤ}
    (hbefore : ∀ entry ∈ before, entry.lockedSeed = none) (howner : owner.lockedSeed = some seed) :
    final.seed = some seed ∧ ∀ later ∈ after, ∀ other, later.lockedSeed = some other → other ≠ seed →
      ∃ holder, seedConflict lib seed holder other later.name ∈ final.conflicts := by
  have hfirst := h.decides_first
  have hstart := fresh_startingDraft composer spec
  have howned : mid.seedOwner.isSome := by
    rw [hfirst.seedOwner, findSome?_of_first hbefore howner]
    simp
  have hmid : mid.seed = some seed := by
    rw [hfirst.seed, hstart.seedOwner, findSome?_of_first hbefore howner]
    rfl
  refine ⟨?_, fun later hmem other hlocked hne => ?_⟩
  · rw [((decides_entries h.later).keeps h.keeps_final).seed, if_pos howned, hmid]
  · obtain ⟨holder, hreport⟩ := (reports_entries h.later hmem).seed seed other howned hmid hlocked hne
    exact ⟨holder, h.keeps_final.conflicts _ hreport⟩

/-- The first adapter decides, and adapters of other paths are reported. -/
theorem Passes.lora (h : Passes lib composer spec before owner after mid draft final) {kept : Obj}
    (hbefore : ∀ entry ∈ before, entry.adapter = none) (howner : owner.adapter = some kept) :
    final.lora = some kept ∧ ∀ later ∈ after, ∀ lora, later.adapter = some lora →
      adapterPath lib lora ≠ adapterPath lib kept →
        ∃ holder, loraConflict lib holder later.name ∈ final.conflicts := by
  have hmid : mid.lora = some kept := by
    rw [h.decides_first.lora, (fresh_startingDraft composer spec).lora, findSome?_of_first hbefore howner]
    rfl
  refine ⟨?_, fun later hmem lora hadapter hne => ?_⟩
  · rw [((decides_entries h.later).keeps h.keeps_final).lora, hmid]
    rfl
  · obtain ⟨holder, hreport⟩ := (reports_entries h.later hmem).lora kept lora hmid hadapter hne
    exact ⟨holder, h.keeps_final.conflicts _ hreport⟩

end

/-! ## The composed prompt -/

@[simp] theorem lora_composed (draft : Draft) : (PromptComposer.composed lib draft).lora = draft.lora := rfl

/-- The entries by the rank of their kind, those of one rank as they are listed. -/
structure InCompositionOrder (listed entries : List BibleEntry) : Prop where
  perm : entries.Perm listed
  ranked : entries.Pairwise fun a b => a.kind.compositionRank ≤ b.kind.compositionRank
  stable : ∀ rank, entries.filter (fun entry => entry.kind.compositionRank = rank) =
    listed.filter fun entry => entry.kind.compositionRank = rank

/-- The entries that a request lists, as far as they are found. -/
def PromptComposer.listedEntries (composer : PromptComposer) (bibleRefs : List String) : List BibleEntry :=
  match composer.bibleRepository with
  | none => []
  | some get => bibleRefs.filterMap get

/-- The first lock, adapter and seed decide, and whatever differs from them later is reported. -/
structure LocksWin (lib : PromptLibrary) (spec : PromptSpec) (entries : List BibleEntry) (composed : ComposedPrompt) :
    Prop where
  attributes : ∀ before owner after slot kept, entries = before ++ owner :: after →
    (∀ entry ∈ before, entry.lockOf lib slot = none) → owner.lockOf lib slot = some kept →
      composed.attributes.get? slot = some kept ∧
      (∀ later ∈ after, ∀ value, later.valueOf lib slot = some value → value ≠ kept →
        ∃ holder, attributeConflict lib slot kept holder value later.name ∈ composed.conflicts) ∧
      ∀ axis patch value, spec.axisValues.get? axis = some patch → axisValueOf lib patch slot = some value →
        value ≠ kept → ∃ holder, attributeConflict lib slot kept holder value axis ∈ composed.conflicts
  seed : ∀ before owner after seed, entries = before ++ owner :: after →
    (∀ entry ∈ before, entry.lockedSeed = none) → owner.lockedSeed = some seed →
      composed.seed = some seed ∧ ∀ later ∈ after, ∀ other, later.lockedSeed = some other → other ≠ seed →
        ∃ holder, seedConflict lib seed holder other later.name ∈ composed.conflicts
  unlockedSeed : (∀ entry ∈ entries, entry.lockedSeed = none) → composed.seed = spec.seed
  lora : ∀ before owner after kept, entries = before ++ owner :: after →
    (∀ entry ∈ before, entry.adapter = none) → owner.adapter = some kept →
      composed.lora = some kept ∧ ∀ later ∈ after, ∀ lora, later.adapter = some lora →
        adapterPath lib lora ≠ adapterPath lib kept →
          ∃ holder, loraConflict lib holder later.name ∈ composed.conflicts
  noLora : (∀ entry ∈ entries, entry.adapter = none) → composed.lora = none

theorem passes_of_split {spec : PromptSpec} {before after : List BibleEntry} {owner : BibleEntry} {final : Draft}
    (h : (before ++ owner :: after).foldlM (composer.addEntry lib) (composer.startingDraft spec) = .ok draft)
    (hfinish : ((Dict.sortByName spec.axisValues).foldl (Draft.addAxis lib) draft).Keeps final) :
    ∃ mid, Passes lib composer spec before owner after mid draft final := by
  obtain ⟨mid, hfirst, hlater⟩ := split_entries h
  exact ⟨mid, hfirst, hlater, hfinish⟩

theorem locksWin_of_entries {spec : PromptSpec} {entries : List BibleEntry} {final : Draft}
    (h : entries.foldlM (composer.addEntry lib) (composer.startingDraft spec) = .ok draft)
    (hfinish : ((Dict.sortByName spec.axisValues).foldl (Draft.addAxis lib) draft).Keeps final) :
    LocksWin lib spec entries (PromptComposer.composed lib final) := by
  have hstart := fresh_startingDraft composer spec
  have hall := (decides_entries h).keeps ((Draft.keeps_axes _ draft).keeps hfinish)
  refine ⟨fun before owner after slot kept hsplit hbefore howner => ?_,
    fun before owner after seed hsplit hbefore howner => ?_, fun hnone => ?_,
    fun before owner after kept hsplit hbefore howner => ?_, fun hnone => ?_⟩
  · rw [hsplit] at h
    obtain ⟨mid, hpasses⟩ := passes_of_split h hfinish
    exact hpasses.attributes hbefore howner
  · rw [hsplit] at h
    obtain ⟨mid, hpasses⟩ := passes_of_split h hfinish
    exact hpasses.seed hbefore howner
  · rw [PromptComposer.seed_composed, hall.seed, hstart.seedOwner, hstart.seed, List.findSome?_eq_none_iff.mpr hnone]
    rfl
  · rw [hsplit] at h
    obtain ⟨mid, hpasses⟩ := passes_of_split h hfinish
    exact hpasses.lora hbefore howner
  · rw [lora_composed, hall.lora, hstart.lora, List.findSome?_eq_none_iff.mpr hnone]
    rfl

/-! ## The order of composition -/

/-- One entry does not come after another. -/
def BibleEntry.NotAfter (a b : BibleEntry) : Prop := a.kind.compositionRank ≤ b.kind.compositionRank

instance : DecidableRel BibleEntry.NotAfter := fun a b =>
  inferInstanceAs (Decidable (a.kind.compositionRank ≤ b.kind.compositionRank))

instance : Std.Total BibleEntry.NotAfter where
  total a b := Nat.le_total a.kind.compositionRank b.kind.compositionRank

instance : IsTrans BibleEntry BibleEntry.NotAfter where
  trans _ _ _ := Nat.le_trans

/-- Entries of one rank come out of the sort in the order they went in. -/
theorem filter_insertionSort_notAfter (entries : List BibleEntry) (rank : ℕ) :
    (entries.insertionSort BibleEntry.NotAfter).filter (fun entry => entry.kind.compositionRank = rank) =
      entries.filter fun entry => entry.kind.compositionRank = rank := by
  have hsorted : (entries.filter fun entry => entry.kind.compositionRank = rank).Pairwise BibleEntry.NotAfter := by
    refine List.pairwise_of_forall_mem_list fun a ha b hb => ?_
    have harank := of_decide_eq_true (List.mem_filter.mp ha).2
    have hbrank := of_decide_eq_true (List.mem_filter.mp hb).2
    exact (harank.trans hbrank.symm).le
  have hsublist := List.sublist_insertionSort hsorted List.filter_sublist
  have hfiltered := hsublist.filter fun entry => entry.kind.compositionRank = rank
  rw [List.filter_filter] at hfiltered
  simp only [Bool.and_self] at hfiltered
  refine (hfiltered.eq_of_length ?_).symm
  exact ((List.perm_insertionSort BibleEntry.NotAfter entries).filter _).length_eq.symm

theorem inCompositionOrder_insertionSort (entries : List BibleEntry) :
    InCompositionOrder entries (entries.insertionSort BibleEntry.NotAfter) where
  perm := List.perm_insertionSort _ _
  ranked := List.pairwise_insertionSort BibleEntry.NotAfter entries
  stable := filter_insertionSort_notAfter entries

theorem inCompositionOrder_resolveEntries (composer : PromptComposer) (bibleRefs : List String) :
    InCompositionOrder (composer.listedEntries bibleRefs) (composer.resolveEntries bibleRefs).1 := by
  have hempty : InCompositionOrder [] [] := ⟨.refl _, .nil, fun rank => rfl⟩
  unfold PromptComposer.listedEntries PromptComposer.resolveEntries
  cases bibleRefs with
  | nil => cases composer.bibleRepository <;> exact hempty
  | cons id rest =>
    cases composer.bibleRepository with
    | none => exact hempty
    | some get => exact inCompositionOrder_insertionSort ((id :: rest).filterMap get)

/-! ## The order of the axes -/

theorem compose_congr_axisValues {spec : PromptSpec} {axisValues : Obj}
    (h : Dict.sortByName axisValues = Dict.sortByName spec.axisValues) :
    composer.compose lib { spec with axisValues } = composer.compose lib spec := by
  have hfinish (draft : Draft) : PromptComposer.finishDraft lib { spec with axisValues } draft =
      PromptComposer.finishDraft lib spec draft := by
    rw [PromptComposer.finishDraft, h]
    rfl
  have hstart : composer.startingDraft { spec with axisValues } = composer.startingDraft spec := rfl
  simp only [PromptComposer.compose, hstart, hfinish]

/-- Axes in another order are the same when they are sorted. -/
theorem sortByName_of_perm {axisValues axisValues' : Obj} (hperm : axisValues'.Perm axisValues)
    (hnodup : (axisValues.map Prod.fst).Nodup) : Dict.sortByName axisValues' = Dict.sortByName axisValues := by
  refine (Dict.sorted_sortByName axisValues').ext (Dict.sorted_sortByName axisValues) fun key => ?_
  rw [Dict.get?_sortByName, Dict.get?_sortByName]
  exact Dict.get?_congr ((hperm.map Prod.fst).nodup_iff.mpr hnodup) hnodup (fun kv => hperm.mem_iff) key

/-- Over the entries in the order of composition, the first lock of a slot, the first locked seed and the first
adapter decide, whatever entries and axes assign before or after; what differs from them is reported, and the
order of the axes does not count. -/
theorem locks_win (lib : PromptLibrary) (composer : PromptComposer) (spec : PromptSpec) :
    InCompositionOrder (composer.listedEntries spec.bibleRefs) (composer.resolveEntries spec.bibleRefs).1 ∧
      (∀ composed, composer.compose lib spec = .ok composed →
        LocksWin lib spec (composer.resolveEntries spec.bibleRefs).1 composed) ∧
      ∀ axisValues : Obj, axisValues.Perm spec.axisValues → (spec.axisValues.map Prod.fst).Nodup →
        composer.compose lib { spec with axisValues } = composer.compose lib spec := by
  refine ⟨inCompositionOrder_resolveEntries composer spec.bibleRefs, fun composed h => ?_,
    fun axisValues hperm hnodup => compose_congr_axisValues (sortByName_of_perm hperm hnodup)⟩
  obtain ⟨draft, hentries, hrest⟩ := ok_of_bind h
  obtain rfl := Except.ok.inj hrest
  exact locksWin_of_entries hentries (keeps_finishDraft spec draft)

end

end CreativeStudio.Prompting
