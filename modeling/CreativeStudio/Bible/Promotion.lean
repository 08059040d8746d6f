import CreativeStudio.Bible.Persistence

/-!
# The history of promotions

Every promotion of an asset leaves a record with the entry: what it applied, and what the entry was like
before. Nothing but a promotion writes these records, so that they tell of all promotions, in their
order, and each of them goes on from where the one before it has left the entry.
-/

namespace CreativeStudio.Bible
open Data Prompting

/-! ## A promotion is always written -/

theorem get?_plainNumbersMembers (members : Obj) (key : String) :
    Dict.get? (plainNumbersMembers members) key = (members.get? key).map plainNumbers := by
  induction members with
  | nil => rfl
  | cons first rest ih =>
    obtain ⟨name, value⟩ := first
    by_cases hname : name = key
    · simp [plainNumbersMembers, Dict.get?, hname]
    · simp [plainNumbersMembers, Dict.get?, hname, ih]

theorem length_plainNumbersList (items : List Json) : (plainNumbersList items).length = items.length := by
  induction items with
  | nil => rfl
  | cons item rest ih => rw [plainNumbersList, List.length_cons, List.length_cons, ih]

theorem canonList_eq_map (items : List Json) : JsonOf.canonList items = items.map JsonOf.canon := by
  induction items with
  | nil => rfl
  | cons item rest ih => rw [JsonOf.canonList, List.map_cons, ih]

/-- Equal dictionaries have equal values. -/
theorem equalDicts_get? {a b : Obj} (h : equalDicts a b) (key : String) :
    (a.get? key).map (fun value => plainNumbers value.canon) =
      (b.get? key).map fun value => plainNumbers value.canon := by
  have hsame : plainNumbersMembers a.canon = plainNumbersMembers b.canon := eq_of_beq h
  have hget := congrArg (fun members => Dict.get? members key) hsame
  simp only [get?_plainNumbersMembers] at hget
  rw [show Dict.get? a.canon key = _ from Obj.get?_canon a key,
    show Dict.get? b.canon key = _ from Obj.get?_canon b key, Option.map_map, Option.map_map] at hget
  exact hget

/-- The metadata of entries with equal dictionaries are equal. -/
theorem equalDicts_metadata {lib : BibleLibrary} {a b : Entry} (h : unchanged lib a b) :
    equalDicts a.settings.metadata b.settings.metadata := by
  have hmember := equalDicts_get? h "metadata"
  rw [Dict.get?_erase, Dict.get?_erase] at hmember
  have hname : "metadata" ≠ "updated_at" := by decide
  rw [if_neg hname, if_neg hname] at hmember
  have hget (entry : Entry) : Dict.get? (entry.toDict lib) "metadata" = some (.obj entry.settings.metadata) := rfl
  rw [hget, hget, Option.map_some, Option.map_some, Option.some.injEq, JsonOf.canon_obj, JsonOf.canon_obj,
    plainNumbers, plainNumbers] at hmember
  exact beq_iff_eq.mpr (JsonOf.obj.inj hmember)

/-- The records of the promotions, if they are a list. -/
def records (metadata : Obj) : Option (List Json) :=
  match (metadata.get? "promotion_history").getD (.arr []) with
  | .arr records => some records
  | _ => none

theorem promotionHistory_of_records {metadata : Obj} {history : List Json} (h : records metadata = some history) :
    promotionHistory metadata = .ok history := by
  simp only [records] at h
  split at h
  next found hfound =>
    simp only [promotionHistory, hfound]
    exact congrArg Except.ok (Option.some.inj h)
  next => cases h

theorem records_canon (metadata : Obj) : records metadata.canon = (records metadata).map (List.map JsonOf.canon) := by
  simp only [records]
  rw [show Dict.get? metadata.canon "promotion_history" = _ from Obj.get?_canon metadata _]
  cases metadata.get? "promotion_history" with
  | none => rfl
  | some value =>
    cases value with
    | arr items => exact congrArg some (canonList_eq_map items)
    | obj members => rw [Option.map_some, JsonOf.canon_obj]; rfl
    | _ => rfl

section
variable {lib : BibleLibrary} {dir : Directory} {id : String} {entry : Entry} {history : List Json}

/-- The entry after a promotion. -/
def promotedEntry (lib : BibleLibrary) (now promotedAt : ℕ) (promotion : Promotion) (entry : Entry)
    (history : List Json) : Entry :=
  { entry with
    settings := (promotedChanges lib promotedAt promotion entry.settings history).apply entry.settings
    updatedAt := now }

theorem get?_promotedMetadata (promotedAt : ℕ) (promotion : Promotion) (settings : Settings) (history : List Json) :
    (promotedMetadata lib promotedAt promotion settings history).get? "promotion_history" =
      some (.arr (history ++ [promotionRecord lib promotedAt promotion settings])) := by
  simp [promotedMetadata, Dict.get?_set]

theorem records_promotedMetadata (promotedAt : ℕ) (promotion : Promotion) (settings : Settings)
    (history : List Json) : records (promotedMetadata lib promotedAt promotion settings history) =
      some (history ++ [promotionRecord lib promotedAt promotion settings]) := by
  rw [records, get?_promotedMetadata]
  rfl

/-- The history grows, so that the entry has changed. -/
theorem unchanged_promoted (promotedAt : ℕ) (promotion : Promotion)
    (hhistory : promotionHistory entry.settings.metadata = .ok history) :
    unchanged lib entry { entry with
      settings := (promotedChanges lib promotedAt promotion entry.settings history).apply entry.settings } = false := by
  rw [← Bool.not_eq_true]
  intro hsame
  have hmetadata : (entry.settings.metadata.get? "promotion_history").map (fun value => plainNumbers value.canon) =
      ((promotedMetadata lib promotedAt promotion entry.settings history).get? "promotion_history").map
        fun value => plainNumbers value.canon :=
    equalDicts_get? (equalDicts_metadata hsame) "promotion_history"
  rw [get?_promotedMetadata, Option.map_some] at hmetadata
  rw [promotionHistory] at hhistory
  cases hbefore : entry.settings.metadata.get? "promotion_history" with
  | none =>
    rw [hbefore] at hmetadata
    cases hmetadata
  | some value =>
    rw [hbefore, Option.map_some, Option.some.injEq] at hmetadata
    rw [hbefore] at hhistory
    cases value with
    | arr items =>
      obtain rfl := Except.ok.inj hhistory
      rw [JsonOf.canon, JsonOf.canon, plainNumbers, plainNumbers] at hmetadata
      have hlength := congrArg List.length (JsonOf.arr.inj hmetadata)
      simp [length_plainNumbersList, canonList_eq_map] at hlength
    | float q =>
      simp only [JsonOf.canon, plainNumbers] at hmetadata
      split at hmetadata <;> cases hmetadata
    | _ => cases hmetadata

/-- Locking the seed of a valid entry leaves it valid. -/
theorem postInit_locked {settings settings' : Settings} (h : postInit lib settings = .ok ())
    (hkind : settings'.kind = settings.kind) (hname : settings'.name = settings.name)
    (hmode : settings'.seedPolicy.get? "mode" = some (.str "locked")) : postInit lib settings' = .ok () := by
  rw [postInit] at h ⊢
  rw [hkind, hname, hmode]
  split at h
  next => cases h
  next hkinds =>
  split at h
  next => cases h
  next hnames =>
    rw [if_neg hkinds, if_neg hnames]
    rfl

/-- What a promotion of a valid entry with a history does. -/
theorem promoteWinner_eq (hdir : Sound lib dir) (hget : get lib id dir = some entry)
    (hrecords : records entry.settings.metadata = some history) (now promotedAt : ℕ) {promotion : Promotion}
    (hasset : strip promotion.assetId ≠ "") :
    promoteWinner lib id now promotedAt promotion dir =
      (.ok (some (promotedEntry lib now promotedAt promotion entry history)),
        save lib (promotedEntry lib now promotedAt promotion entry history) dir) ∧
      postInit lib (promotedEntry lib now promotedAt promotion entry history).settings = .ok () := by
  have hvalid : postInit lib ((promotedChanges lib promotedAt promotion entry.settings history).apply entry.settings) =
      .ok () := postInit_locked (hdir.get hget).2.1 rfl rfl rfl
  refine ⟨?_, hvalid⟩
  simp only [promoteWinner, hget, promotionHistory_of_records hrecords]
  rw [if_neg hasset]
  simp only [update, hget, hvalid, unchanged_promoted promotedAt promotion (promotionHistory_of_records hrecords)]
  rfl

/-! ## What the records say -/

/-- `record[key]`, if the record is a dictionary that has the key. -/
def member (key : String) (value : Json) : Option Json := value.obj?.bind fun members => Dict.get? members key

theorem member_canon (key : String) (value : Json) : member key value.canon = (member key value).map JsonOf.canon := by
  cases value with
  | obj members =>
    rw [JsonOf.canon_obj]
    exact Obj.get?_canon members key
  | _ => rfl

/-- What a record says that its promotion has applied. -/
def appliedOf (key : String) (record : Json) : Option Json := (member "applied" record).bind (member key)

/-- What a record says that the entry had before. -/
def previousOf (key : String) (record : Json) : Option Json := (member "previous" record).bind (member key)

/-- Every record goes on from the model and the parameters that the one before it has applied, and the last
one has applied those that the entry has. -/
inductive Linked : List Json → Json → Json → Prop
  | nil : Linked [] .null .null
  | promote {history : List Json} {model params model' params' record : Json} : Linked history model params →
      previousOf "model_id" record = some model → previousOf "params" record = some params →
        appliedOf "model_id" record = some model' → appliedOf "params" record = some params' →
          Linked (history ++ [record]) model' params'

theorem Linked.canon {model params : Json} (h : Linked history model params) :
    Linked (history.map JsonOf.canon) model.canon params.canon := by
  have hmember (outer inner : String) (record : Json) : (member outer record.canon).bind (member inner) =
      ((member outer record).bind (member inner)).map JsonOf.canon := by
    rw [member_canon]
    cases member outer record with
    | none => rfl
    | some value => exact member_canon inner value
  induction h with
  | nil => exact .nil
  | @promote history model params model' params' record _ hmodel hparams hmodel' hparams' ih =>
    rw [List.map_append]
    refine .promote ih ?_ ?_ ?_ ?_
    · exact (hmember "previous" "model_id" record).trans (congrArg (Option.map JsonOf.canon) hmodel)
    · exact (hmember "previous" "params" record).trans (congrArg (Option.map JsonOf.canon) hparams)
    · exact (hmember "applied" "model_id" record).trans (congrArg (Option.map JsonOf.canon) hmodel')
    · exact (hmember "applied" "params" record).trans (congrArg (Option.map JsonOf.canon) hparams')

/-- The model that the last promotion has left with the entry. -/
def promotedModel (metadata : Obj) : Json := (metadata.get? "promoted_model_id").getD .null

/-- The parameters that the last promotion has left with the entry. -/
def promotedParams (metadata : Obj) : Json := (metadata.get? "promoted_params").getD .null

/-- The history of the entry is `history`, and its records are linked. -/
structure Audited (history : List Json) (metadata : Obj) : Prop where
  records : records metadata = some history
  linked : Linked history (promotedModel metadata) (promotedParams metadata)

theorem Audited.canon {metadata : Obj} (h : Audited history metadata) :
    Audited (history.map JsonOf.canon) metadata.canon := by
  have hgetD (key : String) : (Dict.get? metadata.canon key).getD .null = ((metadata.get? key).getD .null).canon := by
    rw [show Dict.get? metadata.canon key = _ from Obj.get?_canon metadata key]
    cases metadata.get? key <;> rfl
  refine ⟨?_, ?_⟩
  · rw [records_canon, h.records]
    rfl
  · rw [promotedModel, promotedParams, hgetD, hgetD]
    exact h.linked.canon

theorem audited_nil : Audited [] [] := ⟨rfl, .nil⟩

theorem Audited.promoted (h : Audited history entry.settings.metadata) (promotedAt : ℕ) (promotion : Promotion) :
    Audited (history ++ [promotionRecord lib promotedAt promotion entry.settings])
      (promotedMetadata lib promotedAt promotion entry.settings history) := by
  refine ⟨records_promotedMetadata promotedAt promotion entry.settings history, ?_⟩
  have hmodel : promotedModel (promotedMetadata lib promotedAt promotion entry.settings history) =
      .str promotion.modelId := by
    simp [promotedModel, promotedMetadata, Dict.get?_set]
  have hparams : promotedParams (promotedMetadata lib promotedAt promotion entry.settings history) =
      .obj promotion.portableParams := by
    simp [promotedParams, promotedMetadata]
  rw [hmodel, hparams]
  exact .promote h.linked rfl rfl rfl rfl

/-! ## Runs -/

/-- The routes give no metadata: a new entry has none, and an update leaves them as they are. -/
def Op.Plain : Op → Prop
  | .create _ _ settings => settings.metadata = []
  | .update _ _ changes => changes.metadata = none
  | .promote _ _ _ _ | .delete _ => True

/-- The records that an entry has after a call, if it had `history` before. -/
def historyStep (lib : BibleLibrary) (id : String) (op : Op) (dir : Directory) (history : List Json) : List Json :=
  if op.target ≠ id then history
  else match op with
    | .create _ _ settings => if (postInit lib settings).toOption.isSome then [] else history
    | .update _ _ _ => history
    | .promote _ _ promotedAt promotion =>
      match get lib id dir with
      | none => history
      | some entry =>
        if strip promotion.assetId = "" then history
        else history ++ [(promotionRecord lib promotedAt promotion entry.settings).canon]
    | .delete _ => []

/-- The records of the promotions of an entry since it was created, each of them made of the entry as it was. -/
def historyAfter (lib : BibleLibrary) (id : String) : List Op → Directory → List Json → List Json
  | [], _, history => history
  | op :: rest, dir, history => historyAfter lib id rest (op.exec lib dir).2 (historyStep lib id op dir history)

/-- The entry, if it is there, has the records. -/
def Tracked (lib : BibleLibrary) (id : String) (history : List Json) (dir : Directory) : Prop :=
  ∀ entry, get lib id dir = some entry → Audited history entry.settings.metadata

theorem canon_metadata_of_get (hdir : Sound lib dir) (h : get lib id dir = some entry) :
    entry.settings.metadata.canon = entry.settings.metadata :=
  congrArg (fun entry : Entry => entry.settings.metadata) (hdir.get h).2.2

/-- The records of a stored entry are sorted already. -/
theorem Tracked.map_canon (hdir : Sound lib dir) (htracked : Tracked lib id history dir)
    (h : get lib id dir = some entry) : history.map JsonOf.canon = history := by
  have haudited := htracked entry h
  have hcanon := haudited.canon.records
  rw [canon_metadata_of_get hdir h, haudited.records] at hcanon
  exact (Option.some.inj hcanon).symm

theorem metadata_of_get_save {saved : Entry} (hvalid : postInit lib saved.settings = .ok ())
    (h : get lib saved.id (save lib saved dir) = some entry) :
    entry.settings.metadata = saved.settings.metadata.canon := by
  rw [get_save hvalid, Option.some.injEq] at h
  rw [← h]
  rfl

theorem tracked_create (htracked : Tracked lib id history dir) (now : ℕ) {settings : Settings}
    (hplain : settings.metadata = []) :
    Tracked lib id (historyStep lib id (.create id now settings) dir history) (create lib id now settings dir).2 := by
  simp only [historyStep, Op.target, ne_eq, not_true_eq_false, if_false]
  cases hvalid : postInit lib settings with
  | error e =>
    simp only [create, hvalid]
    exact htracked
  | ok _ =>
    intro entry hentry
    simp only [create, hvalid] at hentry
    have hmetadata := @metadata_of_get_save lib dir entry ⟨id, settings, now, now⟩ hvalid hentry
    rw [hmetadata, show Entry.settings _ = settings from rfl, hplain]
    exact audited_nil.canon

theorem tracked_update (hdir : Sound lib dir) (htracked : Tracked lib id history dir) (now : ℕ) {changes : Changes}
    (hplain : changes.metadata = none) :
    Tracked lib id (historyStep lib id (.update id now changes) dir history) (update lib id now changes dir).2 := by
  simp only [historyStep, Op.target, ne_eq, not_true_eq_false, if_false]
  rcases @update_cases lib id now changes dir with ⟨-, h⟩ | ⟨before, hget, ⟨e, h⟩ | ⟨-, h⟩ | ⟨-, hvalid, h⟩⟩
  · rw [h]
    exact htracked
  · rw [h]
    exact htracked
  · rw [h]
    exact htracked
  · intro entry hentry
    rw [h] at hentry
    obtain rfl := (hdir.get hget).1
    have hmetadata := @metadata_of_get_save lib dir entry
      { before with settings := changes.apply before.settings, updatedAt := now } hvalid hentry
    have hkept : (changes.apply before.settings).metadata = before.settings.metadata := by
      simp [Changes.apply, hplain]
    have haudited := (htracked before hget).canon
    rw [htracked.map_canon hdir hget, ← hkept] at haudited
    rw [hmetadata]
    exact haudited

theorem tracked_promote (hdir : Sound lib dir) (htracked : Tracked lib id history dir) (now promotedAt : ℕ)
    (promotion : Promotion) :
    Tracked lib id (historyStep lib id (.promote id now promotedAt promotion) dir history)
      (promoteWinner lib id now promotedAt promotion dir).2 := by
  simp only [historyStep, Op.target, ne_eq, not_true_eq_false, if_false]
  cases hget : get lib id dir with
  | none =>
    simp only [promoteWinner, hget]
    exact htracked
  | some before =>
    by_cases hasset : strip promotion.assetId = ""
    · simp only [promoteWinner, hget, hasset, if_true]
      exact htracked
    · have haudited := htracked before hget
      obtain ⟨heq, hvalid⟩ := promoteWinner_eq hdir hget haudited.records now promotedAt hasset
      rw [heq]
      simp only [hasset, if_false]
      intro entry hentry
      obtain rfl := (hdir.get hget).1
      have hmetadata := @metadata_of_get_save lib dir entry (promotedEntry lib now promotedAt promotion before history)
        hvalid hentry
      have hpromoted := (@Audited.promoted lib before history haudited promotedAt promotion).canon
      rw [List.map_append, htracked.map_canon hdir hget] at hpromoted
      rw [hmetadata]
      exact hpromoted

theorem tracked_delete (hdir : Sound lib dir) :
    Tracked lib id (historyStep lib id (.delete id) dir history) (delete id dir).2 := by
  intro entry hentry
  have hsound := hdir.delete id
  have hthere := hsound.isSome_get id
  rw [hentry, Option.isSome_some, delete] at hthere
  split at hthere
  · rw [Dict.get?_erase, if_pos rfl] at hthere
    cases hthere
  next habsent =>
    exact absurd hthere.symm habsent

theorem tracked_exec (hdir : Sound lib dir) (htracked : Tracked lib id history dir) {op : Op} (hplain : op.Plain) :
    Tracked lib id (historyStep lib id op dir history) (op.exec lib dir).2 := by
  by_cases htarget : op.target = id
  · subst htarget
    cases op with
    | create id now settings => exact tracked_create htracked now hplain
    | update id now changes => exact tracked_update hdir htracked now hplain
    | promote id now promotedAt promotion => exact tracked_promote hdir htracked now promotedAt promotion
    | delete id => exact tracked_delete hdir
  · intro entry hentry
    have hsame := (steady_exec hdir op).1.others id (Ne.symm htarget)
    rw [get, hsame] at hentry
    rw [historyStep.eq_def, if_pos htarget]
    exact htracked entry hentry

theorem tracked_run (ops : List Op) (hplain : ∀ op ∈ ops, op.Plain) (hdir : Sound lib dir)
    (htracked : Tracked lib id history dir) :
    Tracked lib id (historyAfter lib id ops dir history) (run lib ops dir) := by
  induction ops generalizing dir history with
  | nil => exact htracked
  | cons op rest ih =>
    refine ih (fun op hop => hplain op (List.mem_cons_of_mem _ hop)) (steady_exec hdir op).2 ?_
    exact tracked_exec hdir htracked (hplain op List.mem_cons_self)

/-- **The history tells of every promotion.** After any calls that the routes can make, an entry has one record
for each promotion since it was created, made of the entry as it was then, and each record goes on from the
one before it. -/
theorem run_history (lib : BibleLibrary) (ops : List Op) (hplain : ∀ op ∈ ops, op.Plain) (id : String) (entry : Entry)
    (hentry : get lib id (run lib ops []) = some entry) :
    promotionHistory entry.settings.metadata = .ok (historyAfter lib id ops [] []) ∧
      Linked (historyAfter lib id ops [] []) (promotedModel entry.settings.metadata)
        (promotedParams entry.settings.metadata) := by
  have htracked : Tracked lib id [] [] := by
    intro entry hentry
    cases hentry
  have haudited := tracked_run ops hplain sound_nil htracked entry hentry
  exact ⟨promotionHistory_of_records haudited.records, haudited.linked⟩

end

/-- A character is created and promoted, renamed, and promoted again. -/
def someCalls : List Op :=
  [.create "mia" 1 { kind := "character", name := "Mia" },
    .promote "mia" 2 2 { assetId := "first", modelId := "sdxl", seed := 7 },
    .update "mia" 3 { name := some "Mia the second" },
    .promote "mia" 4 4 { assetId := "second", modelId := "flux", seed := 8, attributes := [("hair", "black")] }]

theorem run_history_mia : ∃ entry, get .plain "mia" (run .plain someCalls []) = some entry ∧
    (historyAfter .plain "mia" someCalls [] []).map (previousOf "model_id") = [some .null, some (.str "sdxl")] ∧
    promotionHistory entry.settings.metadata = .ok (historyAfter .plain "mia" someCalls [] []) := by
  have hthere : (get .plain "mia" (run .plain someCalls [])).isSome := by decide +kernel
  obtain ⟨entry, hentry⟩ := Option.isSome_iff_exists.mp hthere
  have hplain : ∀ op ∈ someCalls, op.Plain := by
    intro op hop
    simp only [someCalls, List.mem_cons, List.not_mem_nil, or_false] at hop
    rcases hop with rfl | rfl | rfl | rfl
    · exact (rfl : ([] : Obj) = [])
    · exact trivial
    · exact (rfl : (none : Option Obj) = none)
    · exact trivial
  refine ⟨entry, hentry, by decide +kernel, ?_⟩
  exact (run_history .plain someCalls hplain "mia" entry hentry).1

end CreativeStudio.Bible
