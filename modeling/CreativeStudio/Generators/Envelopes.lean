import CreativeStudio.Generators.AnswerText

/-!
# Objects in their envelopes

An object is answered plainly, between prose, or in a fence. It is recovered just when the expression
for fences finds nothing in the object itself and the answer is no JSON document of another kind.
-/

namespace CreativeStudio.Generators
open Data Story

/-- What a model puts around an object: prose, which may be nothing, or a fence with whitespace in it. -/
inductive Envelope
  | prose (before after : Text)
  | fenced (tagged : Bool) (before after : Text)

namespace Envelope

/-- The answer with the object. -/
def around (object : Text) : Envelope → Text
  | prose before after => before ++ (object ++ after)
  | fenced tagged before after =>
    fence ++ ((if tagged then jsonTag else []) ++ (before ++ (object ++ (after ++ fence))))

/-- Prose has no brace and no marker of a fence. -/
structure IsProse (text : Text) : Prop where
  no_open : '{' ∉ text
  no_close : '}' ∉ text
  no_fence : ¬fence <:+: text

/-- The envelope is one of those. -/
def Proper : Envelope → Prop
  | prose before after => IsProse before ∧ IsProse after
  | fenced _ before after => isBlank before ∧ isBlank after

end Envelope

/-- What is known of `json.loads`: an object is in braces, and a backtick in a string is written as
itself or as its escape. -/
structure JsonLaws (loads : Text → Except LoadsError Value) : Prop where
  braces : ∀ text members, loads text = .ok (.obj members) →
    ∃ before body after, text = before ++ '{' :: (body ++ '}' :: after) ∧ isBlank before ∧ isBlank after
  backticks_le : ∀ text value, loads text = .ok value → backticks value ≤ spelledBackticks text

/-- When the object is recovered: no fence is found in it, and `json.loads` finds that prose around it
is no JSON. -/
def Recovers (loads : Text → Except LoadsError Value) (object : Text) : Envelope → Prop
  | .prose before after => ¬Fenced object ∧
    (isBlank before ∧ isBlank after ∨
      ∃ message, loads (stripText (before ++ (object ++ after))) = .error (.decode message))
  | .fenced _ _ _ => ¬fence <:+: object

/-! ## Every answer is an object or an error -/

section
variable (loads : Text → Except LoadsError Value)

/-- What is returned, or a `ValueError`. -/
def ObjectOrValueError (result : Except Exc (Dict Value)) : Prop :=
  (∃ members, result = .ok members) ∨ ∃ message, result = .error (.value message)

theorem scanForObject_cases (text : Text) : (∃ value, scanForObject loads text = .ok value) ∨
    ∃ message, scanForObject loads text = .error (.value message) := by
  unfold scanForObject
  split
  · exact .inr ⟨_, rfl⟩
  · split
    · exact .inr ⟨_, rfl⟩
    next object _ =>
      rcases loads object with (message | message) | value
      · exact .inr ⟨message, rfl⟩
      · exact .inr ⟨message, rfl⟩
      · exact .inl ⟨value, rfl⟩

theorem parseAnswer_cases (text : Text) : (∃ value, parseAnswer loads text = .ok value) ∨
    ∃ message, parseAnswer loads text = .error (.value message) := by
  unfold parseAnswer
  split
  next value _ => exact .inl ⟨value, rfl⟩
  · exact scanForObject_cases loads text
  next message _ => exact .inr ⟨message, rfl⟩

theorem extractJsonObject_cases (rawText : Text) : ObjectOrValueError (extractJsonObject loads rawText) := by
  unfold extractJsonObject
  split
  · exact .inr ⟨_, rfl⟩
  · rcases parseAnswer_cases loads (answerText rawText) with ⟨value, hvalue⟩ | ⟨message, hmessage⟩
    · rw [hvalue]
      cases value with
      | obj members => exact .inl ⟨members, rfl⟩
      | _ => exact .inr ⟨_, rfl⟩
    · rw [hmessage]
      exact .inr ⟨message, rfl⟩

end

/-! ## What is read is part of the answer -/

theorem scanFrom_prefix {depth : ℤ} {inString escaped : Bool} {text found : Text}
    (h : scanFrom depth inString escaped text = some found) : found <+: text ∧ found ≠ [] := by
  have hmap {c : Char} {rest found : Text} {inner : Option Text} (ih : ∀ g, inner = some g → g <+: rest ∧ g ≠ [])
      (h : inner.map (c :: ·) = some found) : found <+: c :: rest ∧ found ≠ [] := by
    obtain ⟨g, hg, rfl⟩ := Option.map_eq_some_iff.mp h
    exact ⟨List.cons_prefix_cons.mpr ⟨rfl, (ih g hg).1⟩, List.cons_ne_nil c g⟩
  induction text generalizing depth inString escaped found with
  | nil => cases h
  | cons c rest ih =>
    rw [scanFrom] at h
    repeat' split at h
    all_goals first
      | exact hmap (fun g hg => ih hg) h
      | (obtain rfl := Option.some.inj h; exact ⟨⟨rest, rfl⟩, List.cons_ne_nil c []⟩)

section
variable {loads : Text → Except LoadsError Value} (laws : JsonLaws loads)

include laws

/-- An object that is read from a part of a spelled text has no more backticks than there are in it. -/
theorem backticks_le_of_loads {whole before text after : Text} (hspelled : Spelled whole)
    (hwhole : whole = before ++ (text ++ after)) {members : Dict Value} (h : loads text = .ok (.obj members)) :
    backticks (.obj members) ≤ text.count '`' := by
  refine (laws.backticks_le text _ h).trans ?_
  obtain ⟨blank, body, blank', rfl, hblank, -⟩ := laws.braces text members h
  simp only [List.append_assoc, List.cons_append] at hwhole ⊢
  rw [hwhole, ← List.append_assoc] at hspelled
  have hbrace := hspelled.of_append
  have hleading : Spelled blank := by
    refine spelled_of_forall fun c hc => ?_
    rintro rfl
    exact absurd (isBlank_iff.mp hblank _ hc) (by decide)
  have hpart := hleading.append hbrace
  refine @Spelled.spelledBackticks_le _ hpart _ after ?_
  simp only [List.append_assoc, List.cons_append]

/-- What is read from a part of a spelled text. -/
theorem backticks_le_of_parseAnswer {whole before text after : Text} (hspelled : Spelled whole)
    (hwhole : whole = before ++ (text ++ after)) {members : Dict Value}
    (h : parseAnswer loads text = .ok (.obj members)) : backticks (.obj members) ≤ text.count '`' := by
  unfold parseAnswer at h
  split at h
  next value hloads =>
    rw [Except.ok.inj h] at hloads
    exact backticks_le_of_loads laws hspelled hwhole hloads
  next =>
    unfold scanForObject at h
    split at h
    · cases h
    next found hfound =>
      split at h
      · cases h
      next object hscan =>
        obtain ⟨⟨rest, hrest⟩, -⟩ := scanFrom_prefix hscan
        obtain ⟨lead, rfl⟩ : ∃ lead, text = lead ++ (object ++ rest) :=
          ⟨text.takeWhile (· ≠ '{'), by rw [hrest, List.takeWhile_append_dropWhile]⟩
        have hloads : loads object = .ok (.obj members) := by
          cases hobject : loads object with
          | ok value =>
            rw [hobject] at h
            exact congrArg Except.ok (Except.ok.inj h)
          | error e =>
            rw [hobject] at h
            cases h
        rw [List.append_assoc, List.append_assoc, ← List.append_assoc before] at hwhole
        refine (backticks_le_of_loads laws hspelled hwhole hloads).trans ?_
        rw [List.count_append, List.count_append]
        omega
  next => cases h

/-- A part that lacks backticks of the object does not give it back, stripped as it is read. -/
theorem not_recovered {whole before group after : Text} (hspelled : Spelled whole)
    (hwhole : whole = before ++ (group ++ after)) {members : Dict Value}
    (hcount : group.count '`' < backticks (.obj members)) :
    parseAnswer loads (stripText group) >>= asObject ≠ .ok members := by
  intro h
  obtain ⟨value, hvalue, hmembers⟩ := bind_eq_ok.mp h
  obtain rfl : value = .obj members := by
    cases value <;> cases hmembers
    rfl
  obtain ⟨lead, trail, hgroup⟩ : ∃ lead trail, group = lead ++ (stripText group ++ trail) :=
    ⟨group.takeWhile isSpace, (group.dropWhile isSpace).rtakeWhile isSpace, by
      rw [stripText_eq, rstrip_append_rtakeWhile, List.takeWhile_append_dropWhile]⟩
  have hpart : whole = (before ++ lead) ++ (stripText group ++ (trail ++ after)) := by
    rw [hwhole]
    conv_lhs => rw [hgroup]
    simp only [List.append_assoc]
  have hle := backticks_le_of_parseAnswer laws hspelled hpart hvalue
  have hstripped : (stripText group).count '`' ≤ group.count '`' := by
    conv_rhs => rw [hgroup, List.count_append, List.count_append]
    omega
  omega

end

/-! ## Stripping an answer -/

theorem dropWhile_append_brace (before rest : Text) :
    (before ++ '{' :: rest).dropWhile isSpace = before.dropWhile isSpace ++ '{' :: rest := by
  induction before with
  | nil => rfl
  | cons c before ih =>
    rw [List.cons_append, List.dropWhile_cons, List.dropWhile_cons]
    split
    · exact ih
    · rfl

theorem rstrip_append_brace (before after : Text) :
    rstrip (before ++ '}' :: after) = before ++ '}' :: rstrip after := by
  have hbrace : ¬isBlank ('}' :: after) := fun h => absurd (isBlank_iff.mp h '}' List.mem_cons_self) (by decide)
  rw [rstrip_append_of_not_isBlank hbrace]
  refine congrArg (before ++ ·) ?_
  by_cases h : isBlank after
  · rw [← List.singleton_append, rstrip_append_of_isBlank h, rstrip_of_isBlank h]
    rfl
  · rw [← List.singleton_append, rstrip_append_of_not_isBlank h]
    rfl

/-- Only the prose is stripped. -/
theorem stripText_around (before body after : Text) :
    stripText (before ++ '{' :: (body ++ '}' :: after)) =
      before.dropWhile isSpace ++ '{' :: (body ++ '}' :: rstrip after) := by
  rw [stripText_eq, dropWhile_append_brace, ← List.cons_append, ← List.append_assoc, rstrip_append_brace]
  simp only [List.append_assoc, List.cons_append]

/-- Fences are searched in the object only. -/
theorem searchFence_around {before after : Text} (hbefore : ¬fence <:+: before) (hafter : ¬fence <:+: after)
    (body : Text) : searchFence (before ++ '{' :: (body ++ '}' :: after)) = searchFence body := by
  rw [searchFence_prepend hbefore, searchFence_append hafter]

namespace Envelope

theorem IsProse.of_suffix {text part : Text} (h : IsProse text) (hpart : part <:+ text) : IsProse part :=
  ⟨fun hmem => h.no_open (hpart.mem hmem), fun hmem => h.no_close (hpart.mem hmem),
    fun hwithin => h.no_fence (hwithin.trans hpart.isInfix)⟩

theorem IsProse.of_prefix {text part : Text} (h : IsProse text) (hpart : part <+: text) : IsProse part :=
  ⟨fun hmem => h.no_open (hpart.mem hmem), fun hmem => h.no_close (hpart.mem hmem),
    fun hwithin => h.no_fence (hwithin.trans hpart.isInfix)⟩

end Envelope

/-! ## Prose -/

section
variable (floats : FloatText) {loads : Text → Except LoadsError Value} (laws : JsonLaws loads) {members : Dict Value}

/-- What stands between the braces of an object. -/
def bodyOf (members : Dict Value) : Text := dumpsMembers floats [] members

theorem dumps_obj (members : Dict Value) :
    dumps floats (.obj members) = '{' :: (bodyOf floats members ++ ['}']) := by
  rw [dumps]
  rfl

theorem count_bodyOf (members : Dict Value) : (bodyOf floats members).count '`' = backticks (.obj members) := by
  rw [← @count_dumps floats, dumps_obj, List.count_cons_of_ne (by decide), List.count_append]
  rfl

theorem searchFence_dumps (members : Dict Value) :
    searchFence (dumps floats (.obj members)) = searchFence (bodyOf floats members) := by
  rw [dumps_obj]
  exact @searchFence_around [] [] (by decide) (by decide) (bodyOf floats members)

include laws

/-- What a fence in the object encloses does not give the object. -/
theorem not_recovered_of_searchFence {group : Text} (h : searchFence (bodyOf floats members) = some group) :
    parseAnswer loads (stripText group) >>= asObject ≠ .ok members := by
  obtain ⟨before, between, after, hbody⟩ := searchFence_eq_some h
  have hcount : (bodyOf floats members).count '`' = backticks (.obj members) := count_bodyOf floats members
  rw [hbody] at hcount
  simp only [List.count_append, show fence.count '`' = 3 from rfl] at hcount
  have hwhole : bodyOf floats members = (before ++ fence ++ between) ++ (group ++ (fence ++ after)) := by
    rw [hbody]
    simp only [List.append_assoc]
  exact not_recovered laws (spelled_dumpsMembers floats .nil members) hwhole (by omega)

/-- A text that is stripped and is read as an object is in braces. -/
theorem braces_of_loads {text : Text} (hstrip : stripText text = text) (h : loads text = .ok (.obj members)) :
    ∃ body, text = '{' :: (body ++ ['}']) := by
  obtain ⟨before, body, after, rfl, hbefore, hafter⟩ := laws.braces text members h
  rw [stripText_around, List.dropWhile_eq_nil_iff.mpr (isBlank_iff.mp hbefore), rstrip_of_isBlank hafter] at hstrip
  exact ⟨body, hstrip.symm⟩

variable (hread : loads (dumps floats (.obj members)) = .ok (.obj members))
include hread

omit laws in
/-- The scanner finds the object behind the prose. -/
theorem scanForObject_dumps {lead : Text} (hlead : '{' ∉ lead) (trail : Text) :
    scanForObject loads (lead ++ (dumps floats (.obj members) ++ trail)) = .ok (.obj members) := by
  have hfound : (lead ++ (dumps floats (.obj members) ++ trail)).dropWhile (· ≠ '{') =
      dumps floats (.obj members) ++ trail := by
    rw [List.dropWhile_append_of_pos, dumps_obj, List.cons_append, List.dropWhile_cons_of_neg (by simp)]
    intro c hc
    exact decide_eq_true fun heq => hlead (heq ▸ hc)
  have hscan := scanFrom_dumps floats members trail
  unfold scanForObject
  rw [hfound]
  split
  next hnil =>
    rw [dumps_obj] at hnil
    cases hnil
  next =>
    rw [hscan]
    change (loads (dumps floats (.obj members))).mapError LoadsError.toExc = _
    rw [hread]
    rfl

/-- A stripped answer with prose, no fence found. -/
theorem parseAnswer_prose {lead trail : Text} (hlead : Envelope.IsProse lead) (htrail : Envelope.IsProse trail)
    (hleft : lead.dropWhile isSpace = lead) (hright : rstrip trail = trail) :
    parseAnswer loads (lead ++ (dumps floats (.obj members) ++ trail)) >>= asObject = .ok members ↔
      (lead = [] ∧ trail = [] ∨
        ∃ message, loads (lead ++ (dumps floats (.obj members) ++ trail)) = .error (.decode message)) := by
  by_cases hplain : lead = [] ∧ trail = []
  · obtain ⟨rfl, rfl⟩ := hplain
    rw [List.nil_append, List.append_nil, parseAnswer, hread]
    exact iff_of_true rfl (.inl ⟨rfl, rfl⟩)
  rw [or_iff_right hplain]
  cases hloads : loads (lead ++ (dumps floats (.obj members) ++ trail)) with
  | ok value =>
    refine iff_of_false ?_ (by simp)
    rw [parseAnswer, hloads]
    intro h
    obtain rfl : value = .obj members := by
      cases value <;> cases h
      rfl
    have hstrip : stripText (lead ++ (dumps floats (.obj members) ++ trail)) =
        lead ++ (dumps floats (.obj members) ++ trail) := by
      have haround := stripText_around lead (bodyOf floats members) trail
      rw [hleft, hright] at haround
      simpa only [dumps_obj, List.cons_append, List.append_assoc, List.nil_append] using haround
    obtain ⟨body, hbody⟩ := braces_of_loads laws hstrip hloads
    refine hplain ⟨?_, ?_⟩
    · cases lead with
      | nil => rfl
      | cons c lead => exact absurd ((List.cons.inj hbody).1 ▸ List.mem_cons_self) hlead.no_open
    · rcases List.eq_nil_or_concat trail with rfl | ⟨init, c, hconcat⟩
      · rfl
      · rw [List.concat_eq_append] at hconcat
        subst hconcat
        have hlast := congrArg List.getLast? hbody
        rw [← List.cons_append, List.getLast?_concat, ← List.append_assoc, ← List.append_assoc,
          List.getLast?_concat] at hlast
        exact absurd (Option.some.inj hlast ▸ List.mem_append_right init (List.mem_singleton_self c)) htrail.no_close
  | error e =>
    cases e with
    | decode message =>
      rw [parseAnswer, hloads]
      change scanForObject loads _ >>= asObject = _ ↔ _
      rw [scanForObject_dumps floats hread hlead.no_open]
      exact iff_of_true rfl ⟨message, rfl⟩
    | value message =>
      rw [parseAnswer, hloads]
      exact iff_of_false (fun h => by cases h) (by simp)

/-- Prose around the object. -/
theorem extractJsonObject_prose {before after : Text} (hbefore : Envelope.IsProse before)
    (hafter : Envelope.IsProse after) :
    extractJsonObject loads (before ++ (dumps floats (.obj members) ++ after)) = .ok members ↔
      Recovers loads (dumps floats (.obj members)) (.prose before after) := by
  have hblank : isBlank before ↔ before.dropWhile isSpace = [] := isBlank_iff.trans List.dropWhile_eq_nil_iff.symm
  have hblank' : isBlank after ↔ rstrip after = [] := isBlank_iff.trans List.rdropWhile_eq_nil_iff.symm
  have hlead : Envelope.IsProse (before.dropWhile isSpace) := hbefore.of_suffix (List.dropWhile_suffix _)
  have htrail : Envelope.IsProse (rstrip after) := hafter.of_prefix (List.rdropWhile_prefix _ _)
  have hstrip : stripText (before ++ (dumps floats (.obj members) ++ after)) =
      before.dropWhile isSpace ++ (dumps floats (.obj members) ++ rstrip after) := by
    rw [dumps_obj]
    simpa only [List.cons_append, List.append_assoc, List.nil_append] using
      stripText_around before (bodyOf floats members) after
  have hne : before.dropWhile isSpace ++ (dumps floats (.obj members) ++ rstrip after) ≠ [] := by
    rw [dumps_obj]
    simp
  have hsearch : searchFence (before.dropWhile isSpace ++ (dumps floats (.obj members) ++ rstrip after)) =
      searchFence (bodyOf floats members) := by
    rw [dumps_obj]
    simpa only [List.cons_append, List.append_assoc, List.nil_append] using
      searchFence_around hlead.no_fence htrail.no_fence (bodyOf floats members)
  rw [Recovers, hblank, hblank', extractJsonObject, answerText, hstrip, if_neg hne, hsearch, ← searchFence_eq_none,
    searchFence_dumps]
  cases hfence : searchFence (bodyOf floats members) with
  | some group => exact iff_of_false (not_recovered_of_searchFence floats laws hfence) (by simp)
  | none =>
    rw [and_iff_right rfl]
    exact parseAnswer_prose floats laws hread hlead htrail (List.dropWhile_idempotent isSpace before)
      (List.rdropWhile_idempotent isSpace after)

end

/-! ## Fences -/

theorem beforeFence_blank {blank : Text} (h : isBlank blank) : beforeFence (blank ++ fence) = some blank := by
  induction blank with
  | nil => rfl
  | cons c blank ih =>
    obtain ⟨hc, hblank⟩ := List.forall_mem_cons.mp (isBlank_iff.mp h)
    have hfence : ¬fence <+: c :: (blank ++ fence) := by
      intro hstarts
      rw [← (List.cons_prefix_cons.mp hstarts).1] at hc
      exact absurd hc (by decide)
    rw [List.cons_append, beforeFence, if_neg hfence, ih (isBlank_iff.mpr hblank)]
    rfl

/-- The whitespace behind a marker is skipped. -/
theorem groupAfterSpaces_blank {blank : Text} (h : isBlank blank) {rest group : Text}
    (hrest : groupAfterSpaces rest = some group) : groupAfterSpaces (blank ++ rest) = some group := by
  induction blank with
  | nil => exact hrest
  | cons c blank ih =>
    obtain ⟨hc, hblank⟩ := List.forall_mem_cons.mp (isBlank_iff.mp h)
    rw [List.cons_append, groupAfterSpaces, if_pos hc, ih (isBlank_iff.mpr hblank)]
    rfl

/-- So is the tag. -/
theorem groupAfterFence_tag {blank : Text} (h : isBlank blank) (tagged : Bool) {rest group : Text}
    (hrest : groupAfterSpaces ('{' :: rest) = some group) :
    groupAfterFence ((if tagged then jsonTag else []) ++ (blank ++ '{' :: rest)) = some group := by
  have hblank := groupAfterSpaces_blank h hrest
  cases tagged with
  | true =>
    rw [if_pos rfl, groupAfterFence, if_pos (List.prefix_append _ _), List.drop_left, hblank]
    rfl
  | false =>
    have htag : ¬jsonTag <+: blank ++ '{' :: rest := by
      rw [prefix_append_cons_iff (by decide)]
      intro hstarts
      exact absurd (isBlank_iff.mp h 'j' (hstarts.mem List.mem_cons_self)) (by decide)
    rw [if_neg (by decide), List.nil_append, groupAfterFence, if_neg htag, hblank]
    rfl

/-- The group of a fence around an object. -/
theorem groupAfterSpaces_object (body : Text) {blank : Text} (h : isBlank blank) :
    groupAfterSpaces ('{' :: (body ++ '}' :: (blank ++ fence))) =
      some ('{' :: ((beforeFence body).getD (body ++ '}' :: blank))) := by
  rw [groupAfterSpaces, if_neg (by decide), fenceGroup, beforeFence_append_cons (by decide), beforeFence_blank h]
  cases beforeFence body <;> rfl

/-- A fence is not stripped. -/
theorem stripText_fence (text : Text) : stripText (fence ++ (text ++ fence)) = fence ++ (text ++ fence) := by
  have hconcat : fence ++ (text ++ fence) = (fence ++ (text ++ ['`', '`'])) ++ ['`'] := by
    simp [fence]
  change rstrip (fence ++ (text ++ fence)) = _
  rw [hconcat, rstrip, List.rdropWhile_concat_neg _ _ _ (by decide)]

theorem searchFence_fence {text group : Text} (h : groupAfterFence text = some group) :
    searchFence (fence ++ text) = some group := by
  change (if fence <+: fence ++ text then groupAfterFence text else none).or _ = _
  rw [if_pos (List.prefix_append _ _), h]
  rfl

section
variable (floats : FloatText) {loads : Text → Except LoadsError Value} (laws : JsonLaws loads) {members : Dict Value}

theorem fence_infix_dumps (members : Dict Value) :
    fence <:+: dumps floats (.obj members) ↔ fence <:+: bodyOf floats members := by
  rw [dumps_obj, List.infix_cons_iff, or_iff_right (by simp [fence]), infix_append_cons_iff (by decide),
    or_iff_left (by decide)]

include laws in
/-- A fence around the object. -/
theorem extractJsonObject_fenced (hread : loads (dumps floats (.obj members)) = .ok (.obj members)) (tagged : Bool)
    {before after : Text} (hbefore : isBlank before) (hafter : isBlank after) :
    extractJsonObject loads (Envelope.around (dumps floats (.obj members)) (.fenced tagged before after)) =
        .ok members ↔
      Recovers loads (dumps floats (.obj members)) (.fenced tagged before after) := by
  have htext : Envelope.around (dumps floats (.obj members)) (.fenced tagged before after) =
      fence ++ (((if tagged then jsonTag else []) ++ (before ++ (dumps floats (.obj members) ++ after))) ++ fence) := by
    simp only [Envelope.around, List.append_assoc]
  have hgroup := groupAfterSpaces_object (bodyOf floats members) hafter
  have hsearch : searchFence (Envelope.around (dumps floats (.obj members)) (.fenced tagged before after)) =
      some ('{' :: ((beforeFence (bodyOf floats members)).getD (bodyOf floats members ++ '}' :: after))) := by
    refine searchFence_fence ?_
    rw [dumps_obj]
    simpa only [List.cons_append, List.append_assoc, List.nil_append] using groupAfterFence_tag hbefore tagged hgroup
  have hne : Envelope.around (dumps floats (.obj members)) (.fenced tagged before after) ≠ [] := by
    rw [htext]
    simp [fence]
  have hstrip := stripText_fence
    ((if tagged then jsonTag else []) ++ (before ++ (dumps floats (.obj members) ++ after)))
  rw [← htext] at hstrip
  rw [Recovers, extractJsonObject, answerText, hstrip, if_neg hne, hsearch, fence_infix_dumps, ← beforeFence_isSome]
  change parseAnswer loads (stripText _) >>= asObject = .ok members ↔ _
  cases hinner : beforeFence (bodyOf floats members) with
  | none =>
    have hobject : stripText ('{' :: (bodyOf floats members ++ '}' :: after)) = dumps floats (.obj members) := by
      have haround := stripText_around [] (bodyOf floats members) after
      rw [rstrip_of_isBlank hafter] at haround
      rw [dumps_obj]
      exact haround
    rw [Option.getD_none, hobject, parseAnswer, hread]
    exact iff_of_true rfl (by simp)
  | some group =>
    obtain ⟨rest, hrest⟩ := beforeFence_eq_some hinner
    refine iff_of_false ?_ (by simp)
    have hcount := count_bodyOf floats members
    rw [hrest] at hcount
    simp only [List.count_append, show fence.count '`' = 3 from rfl] at hcount
    have hwhole : dumps floats (.obj members) = [] ++ (('{' :: group) ++ (fence ++ rest ++ ['}'])) := by
      rw [dumps_obj, hrest]
      simp only [List.append_assoc, List.cons_append, List.nil_append]
    refine not_recovered laws (spelled_dumps floats (.obj members)) hwhole ?_
    rw [List.count_cons_of_ne (by decide)]
    omega

include laws in
/-- Every answer comes to an object or a `ValueError`, and an object in an envelope is recovered
exactly when no fence is found in it and prose does not make the whole JSON. -/
theorem extractJsonObject_recovers_iff :
    (∀ rawText, ObjectOrValueError (extractJsonObject loads rawText)) ∧
      ∀ (members : Dict Value) (envelope : Envelope), envelope.Proper →
        loads (dumps floats (.obj members)) = .ok (.obj members) →
        (extractJsonObject loads (envelope.around (dumps floats (.obj members))) = .ok members ↔
          Recovers loads (dumps floats (.obj members)) envelope) := by
  refine ⟨extractJsonObject_cases loads, fun members envelope hproper hread => ?_⟩
  cases envelope with
  | prose before after => exact extractJsonObject_prose floats laws hread hproper.1 hproper.2
  | fenced tagged before after => exact extractJsonObject_fenced floats laws hread tagged hproper.1 hproper.2

end

/-! ## A reader of one text -/

/-- Floats that do not matter. -/
def noFloats : FloatText where
  write _ := ['0']
  isNumeric_of_mem _ := by decide

/-- `json.loads`, of a text that is known and of others that are no JSON. -/
def loadsOnly (members : Dict Value) (text : Text) : Except LoadsError Value :=
  if text = dumps noFloats (.obj members) then .ok (.obj members) else .error (.decode "Expecting value")

theorem jsonLaws_loadsOnly {members : Dict Value}
    (h : backticks (.obj members) ≤ spelledBackticks (dumps noFloats (.obj members))) :
    JsonLaws (loadsOnly members) := by
  have hread {text : Text} {value : Value} (hloads : loadsOnly members text = .ok value) :
      text = dumps noFloats (.obj members) ∧ value = .obj members := by
    unfold loadsOnly at hloads
    split at hloads
    next htext => exact ⟨htext, (Except.ok.inj hloads).symm⟩
    next => cases hloads
  refine ⟨?_, ?_⟩
  · intro text found hloads
    obtain ⟨rfl, -⟩ := hread hloads
    exact ⟨[], bodyOf noFloats members, [], dumps_obj noFloats members, rfl, rfl⟩
  · intro text value hloads
    obtain ⟨rfl, rfl⟩ := hread hloads
    exact h

/-- A title with a word in backticks. -/
def titled : Dict Value := [("title", .str "The `last` train")]

/-- Between prose it is recovered. -/
theorem recovers_titled : extractJsonObject (loadsOnly titled)
    (Envelope.around (dumps noFloats (.obj titled)) (.prose ['O', 'K', ':', ' '] ['\n'])) = .ok titled := by
  refine ((extractJsonObject_recovers_iff noFloats (jsonLaws_loadsOnly (by decide +kernel))).2 titled _ ?_ ?_).mpr ?_
  · exact ⟨⟨by decide, by decide, by decide⟩, by decide, by decide, by decide⟩
  · exact if_pos rfl
  · have hfence : searchFence (dumps noFloats (.obj titled)) = none := by decide +kernel
    have hprose : stripText (['O', 'K', ':', ' '] ++ (dumps noFloats (.obj titled) ++ ['\n'])) ≠
        dumps noFloats (.obj titled) := by decide +kernel
    exact ⟨searchFence_eq_none.mp hfence, .inr ⟨_, if_neg hprose⟩⟩

/-- A text that shows how code is fenced. -/
def fencedText : Dict Value := [("text", .str "```x```")]

/-- The object is not recovered although nothing is put around it: the fence is found in its string. -/
theorem not_recovers_fencedText :
    JsonLaws (loadsOnly fencedText) ∧
      loadsOnly fencedText (dumps noFloats (.obj fencedText)) = .ok (.obj fencedText) ∧
      extractJsonObject (loadsOnly fencedText) (Envelope.around (dumps noFloats (.obj fencedText)) (.prose [] [])) =
        .error (.value "no JSON object found in model response") := by
  refine ⟨jsonLaws_loadsOnly (by decide +kernel), if_pos rfl, ?_⟩
  have htext : answerText (Envelope.around (dumps noFloats (.obj fencedText)) (.prose [] [])) = ['x'] := by
    decide +kernel
  have hx : ['x'] ≠ dumps noFloats (.obj fencedText) := by decide +kernel
  rw [extractJsonObject, if_neg (by decide +kernel), htext, parseAnswer, loadsOnly, if_neg hx]
  rfl

end CreativeStudio.Generators
