import Mathlib.Data.Rat.Defs
import Mathlib.Data.String.Basic
import CreativeStudio.Data.Substitution

/-!
# Redacting the secrets of a provider call

What a provider sends back is searched for the credential of the call before any of it is kept. Every text
is redacted where it is walked to; the keys of a mapping are not walked to, and an iterator of secrets
that can be gone through only once has nothing left for the request id of an error.
-/

namespace CreativeStudio.Audio
open Data

/-! ## Texts -/

/-- What a secret is replaced by. -/
def redactionMarker : String := "<redacted>"

/-- The secret is a part of the text. -/
def Occurs (secret text : String) : Prop := secret.toList <:+: text.toList

instance (secret text : String) : Decidable (Occurs secret text) :=
  inferInstanceAs (Decidable (_ <:+: _))

/-- `text.replace(secret, "<redacted>")`. -/
def replaceSecret (secret text : String) : String :=
  .ofList (replaceAll secret.toList redactionMarker.toList text.toList)

/-- One turn of the loop over secrets. -/
def redactSecret (text : String) : Option String → String
  | none => text
  | some secret => if secret = "" then text else replaceSecret secret text

/-- `redact_secrets`, of the secrets that an iteration yields. -/
def redactSecrets (secrets : List (Option String)) (text : String) : String := secrets.foldl redactSecret text

/-- An iterable of secrets: a collection, or an iterator with what it has left. -/
inductive SecretSource
  | collection (secrets : List (Option String))
  | iterator (left : List (Option String))
  deriving DecidableEq, Repr

namespace SecretSource

/-- What one iteration yields. -/
def yielded : SecretSource → List (Option String)
  | collection secrets => secrets
  | iterator left => left

/-- The iterable after it has been gone through. -/
def exhausted : SecretSource → SecretSource
  | collection secrets => collection secrets
  | iterator _ => iterator []

/-- It can be gone through again. -/
def Reiterable : SecretSource → Prop
  | collection _ => True
  | iterator _ => False

instance (source : SecretSource) : Decidable source.Reiterable := by
  cases source <;> unfold Reiterable <;> infer_instance

/-- The secrets that are not empty. -/
def values (source : SecretSource) : List String :=
  source.yielded.filterMap fun secret => secret.filter fun text => text ≠ ""

end SecretSource

/-! ## Errors -/

/-- The categories of `AudioProviderErrorCategory`, each with an error class of its own. -/
inductive AudioProviderErrorCategory
  | timeout | rateLimit | transient | auth | permanent
  deriving DecidableEq, Repr

/-- `AudioProviderCallError`. -/
structure AudioProviderCallError where
  category : AudioProviderErrorCategory
  message : String
  providerName : String
  providerRequestId : Option String := none
  retryAfterSeconds : Option ℚ := none
  deriving DecidableEq, Repr

/-- `redact_provider_error`, which goes through the secrets once for each text. -/
def redactProviderError (error : AudioProviderCallError) (secrets : SecretSource) : AudioProviderCallError :=
  let left := secrets.exhausted
  { error with
    message := redactSecrets secrets.yielded error.message
    providerRequestId := error.providerRequestId.map (redactSecrets left.yielded) }

/-! ## Metadata -/

/-- A key of a mapping: a string, or a scalar by its repr. -/
inductive MetadataKey
  | str (text : String)
  | other (shown : String)
  deriving DecidableEq, Repr

/-- A value of provider metadata: nested values, strings, and scalars by their repr. -/
inductive Metadata
  | mapping (members : List (MetadataKey × Metadata))
  | list (items : List Metadata)
  | tuple (items : List Metadata)
  | str (text : String)
  | other (shown : String)

namespace Metadata

mutual
/-- `_walk`, with what is done to a string. -/
def walk (f : String → String) : Metadata → Metadata
  | mapping members => mapping (walkMembers f members)
  | list items => list (walkItems f items)
  | tuple items => tuple (walkItems f items)
  | str text => str (f text)
  | other shown => other shown
/-- `_walk` of the items of a list. -/
def walkItems (f : String → String) : List Metadata → List Metadata
  | [] => []
  | item :: rest => walk f item :: walkItems f rest
/-- `_walk` of the values of a mapping. -/
def walkMembers (f : String → String) : List (MetadataKey × Metadata) → List (MetadataKey × Metadata)
  | [] => []
  | (key, value) :: rest => (key, walk f value) :: walkMembers f rest
end

mutual
/-- The strings that are not keys. -/
def texts : Metadata → List String
  | mapping members => textsOfMembers members
  | list items => textsOfItems items
  | tuple items => textsOfItems items
  | str text => [text]
  | other _ => []
def textsOfItems : List Metadata → List String
  | [] => []
  | item :: rest => texts item ++ textsOfItems rest
def textsOfMembers : List (MetadataKey × Metadata) → List String
  | [] => []
  | (_, value) :: rest => texts value ++ textsOfMembers rest
end

/-- The string of a key. -/
def keyTexts : MetadataKey → List String
  | .str text => [text]
  | .other _ => []

mutual
/-- The strings that are keys, at any depth. -/
def keys : Metadata → List String
  | mapping members => keysOfMembers members
  | list items => keysOfItems items
  | tuple items => keysOfItems items
  | str _ => []
  | other _ => []
def keysOfItems : List Metadata → List String
  | [] => []
  | item :: rest => keys item ++ keysOfItems rest
def keysOfMembers : List (MetadataKey × Metadata) → List String
  | [] => []
  | (key, value) :: rest => keyTexts key ++ (keys value ++ keysOfMembers rest)
end

/-- Every string in the value, keys included. -/
def strings (node : Metadata) : List String := node.keys ++ node.texts

end Metadata

/-- `redact_provider_metadata` of the members of a mapping: the secrets are put into a list before the walk. -/
def redactProviderMetadata (members : List (MetadataKey × Metadata)) (secrets : SecretSource) :
    List (MetadataKey × Metadata) :=
  Metadata.walkMembers (redactSecrets (secrets.values.map some)) members

/-! ## What the walk keeps -/

namespace Metadata

mutual
theorem texts_walk (f : String → String) : ∀ node : Metadata, (node.walk f).texts = node.texts.map f
  | mapping members => by rw [walk, texts, texts, textsOfMembers_walkMembers]
  | list items => by rw [walk, texts, texts, textsOfItems_walkItems]
  | tuple items => by rw [walk, texts, texts, textsOfItems_walkItems]
  | str text => by rw [walk, texts, texts, List.map_singleton]
  | other shown => by rw [walk, texts, List.map_nil]
theorem textsOfItems_walkItems (f : String → String) :
    ∀ items : List Metadata, textsOfItems (walkItems f items) = (textsOfItems items).map f
  | [] => by rw [walkItems, textsOfItems, List.map_nil]
  | item :: rest => by
    rw [walkItems, textsOfItems, textsOfItems, List.map_append, texts_walk, textsOfItems_walkItems]
theorem textsOfMembers_walkMembers (f : String → String) : ∀ members : List (MetadataKey × Metadata),
    textsOfMembers (walkMembers f members) = (textsOfMembers members).map f
  | [] => by rw [walkMembers, textsOfMembers, List.map_nil]
  | (key, value) :: rest => by
    rw [walkMembers, textsOfMembers, textsOfMembers, List.map_append, texts_walk, textsOfMembers_walkMembers]
end

mutual
theorem keys_walk (f : String → String) : ∀ node : Metadata, (node.walk f).keys = node.keys
  | mapping members => by rw [walk, keys, keys, keysOfMembers_walkMembers]
  | list items => by rw [walk, keys, keys, keysOfItems_walkItems]
  | tuple items => by rw [walk, keys, keys, keysOfItems_walkItems]
  | str text => by rw [walk, keys, keys]
  | other shown => by rw [walk]
theorem keysOfItems_walkItems (f : String → String) :
    ∀ items : List Metadata, keysOfItems (walkItems f items) = keysOfItems items
  | [] => by rw [walkItems]
  | item :: rest => by rw [walkItems, keysOfItems, keysOfItems, keys_walk, keysOfItems_walkItems]
theorem keysOfMembers_walkMembers (f : String → String) : ∀ members : List (MetadataKey × Metadata),
    keysOfMembers (walkMembers f members) = keysOfMembers members
  | [] => by rw [walkMembers]
  | (key, value) :: rest => by
    rw [walkMembers, keysOfMembers, keysOfMembers, keys_walk, keysOfMembers_walkMembers]
end

mutual
/-- A walk that changes no string changes nothing. -/
theorem walk_eq_self {f : String → String} :
    ∀ node : Metadata, (∀ text ∈ node.texts, f text = text) → node.walk f = node
  | mapping members => fun h => by
    rw [texts] at h
    rw [walk, walkMembers_eq_self members h]
  | list items => fun h => by
    rw [texts] at h
    rw [walk, walkItems_eq_self items h]
  | tuple items => fun h => by
    rw [texts] at h
    rw [walk, walkItems_eq_self items h]
  | str text => fun h => by
    rw [texts] at h
    rw [walk, h text List.mem_cons_self]
  | other shown => fun _ => by rw [walk]
theorem walkItems_eq_self {f : String → String} :
    ∀ items : List Metadata, (∀ text ∈ textsOfItems items, f text = text) → walkItems f items = items
  | [] => fun _ => by rw [walkItems]
  | item :: rest => fun h => by
    rw [textsOfItems] at h
    obtain ⟨hitem, hrest⟩ := List.forall_mem_append.mp h
    rw [walkItems, walk_eq_self item hitem, walkItems_eq_self rest hrest]
theorem walkMembers_eq_self {f : String → String} : ∀ members : List (MetadataKey × Metadata),
    (∀ text ∈ textsOfMembers members, f text = text) → walkMembers f members = members
  | [] => fun _ => by rw [walkMembers]
  | (key, value) :: rest => fun h => by
    rw [textsOfMembers] at h
    obtain ⟨hvalue, hrest⟩ := List.forall_mem_append.mp h
    rw [walkMembers, walk_eq_self value hvalue, walkMembers_eq_self rest hrest]
end

end Metadata

/-! ## What redacting a text leaves -/

/-- The secret has no character of the marker. -/
def SharesNothing (secret : String) : Prop := ∀ c ∈ secret.toList, c ∉ redactionMarker.toList

instance (secret : String) : Decidable (SharesNothing secret) :=
  List.decidableBAll (fun c => c ∉ redactionMarker.toList) secret.toList

section
variable {secret text : String} {secrets : List (Option String)} {source : SecretSource}

theorem toList_ne_nil (hne : secret ≠ "") : secret.toList ≠ [] := by
  intro hnil
  exact hne (String.toList_eq_nil_iff.mp hnil)

theorem marker_ne_nil : redactionMarker.toList ≠ [] := by decide

theorem not_occurs_replaceSecret (hne : secret ≠ "") (hshares : SharesNothing secret) (text : String) :
    ¬Occurs secret (replaceSecret secret text) := by
  rw [Occurs, replaceSecret, String.toList_ofList]
  exact not_infix_replaceFrom marker_ne_nil (toList_ne_nil hne) hshares

/-- Redacting another secret brings none back. -/
theorem not_occurs_redactSecret (hne : secret ≠ "") (hshares : SharesNothing secret) (h : ¬Occurs secret text)
    (other : Option String) : ¬Occurs secret (redactSecret text other) := by
  cases other with
  | none => exact h
  | some other =>
    rw [redactSecret]
    split
    next => exact h
    next =>
      rw [Occurs, replaceSecret, String.toList_ofList]
      intro hoccurs
      exact h (infix_of_infix_replaceFrom marker_ne_nil (toList_ne_nil hne) hshares hoccurs)

theorem not_occurs_foldl (hne : secret ≠ "") (hshares : SharesNothing secret) (h : ¬Occurs secret text)
    (secrets : List (Option String)) : ¬Occurs secret (redactSecrets secrets text) := by
  induction secrets generalizing text with
  | nil => exact h
  | cons other rest ih => exact ih (not_occurs_redactSecret hne hshares h other)

/-- No secret that is redacted is left. -/
theorem not_occurs_redactSecrets (hne : secret ≠ "") (hshares : SharesNothing secret) (hmem : some secret ∈ secrets)
    (text : String) : ¬Occurs secret (redactSecrets secrets text) := by
  induction secrets generalizing text with
  | nil => cases hmem
  | cons first rest ih =>
    rcases List.mem_cons.mp hmem with rfl | hrest
    · have hreplaced : ¬Occurs secret (redactSecret text (some secret)) := by
        rw [redactSecret, if_neg hne]
        exact not_occurs_replaceSecret hne hshares text
      exact not_occurs_foldl hne hshares hreplaced rest
    · exact ih hrest (redactSecret text first)

theorem redactSecrets_of_not_occurs (h : ∀ secret, some secret ∈ secrets → secret ≠ "" → ¬Occurs secret text) :
    redactSecrets secrets text = text := by
  induction secrets with
  | nil => rfl
  | cons first rest ih =>
    have hfirst : redactSecret text first = text := by
      cases first with
      | none => rfl
      | some secret =>
        rw [redactSecret]
        split
        next => rfl
        next hne =>
          rw [replaceSecret, replaceAll_of_not_infix (h secret List.mem_cons_self hne), String.ofList_toList]
    have hrest := ih fun secret hmem => h secret (List.mem_cons_of_mem _ hmem)
    rw [redactSecrets, List.foldl_cons, hfirst]
    exact hrest

theorem mem_values : secret ∈ source.values ↔ some secret ∈ source.yielded ∧ secret ≠ "" := by
  simp only [SecretSource.values, List.mem_filterMap, Option.filter_eq_some_iff, decide_eq_true_eq]
  constructor
  · rintro ⟨found, hmem, rfl, hne⟩
    exact ⟨hmem, hne⟩
  · rintro ⟨hmem, hne⟩
    exact ⟨some secret, hmem, rfl, hne⟩

/-- The secrets of a source are redacted, whether they are put into a list first or not. -/
theorem not_occurs_of_mem_values (hshares : ∀ secret ∈ source.values, SharesNothing secret)
    (hmem : secret ∈ source.values) (text : String) :
    ¬Occurs secret (redactSecrets (source.values.map some) text) ∧
      ¬Occurs secret (redactSecrets source.yielded text) := by
  obtain ⟨hyielded, hne⟩ := mem_values.mp hmem
  refine ⟨not_occurs_redactSecrets hne (hshares secret hmem) ?_ text,
    not_occurs_redactSecrets hne (hshares secret hmem) hyielded text⟩
  exact List.mem_map_of_mem hmem

theorem redactSecrets_yielded_of_not_occurs (h : ∀ secret ∈ source.values, ¬Occurs secret text) :
    redactSecrets (source.values.map some) text = text ∧ redactSecrets source.yielded text = text := by
  refine ⟨redactSecrets_of_not_occurs fun secret hmem _ => ?_, redactSecrets_of_not_occurs fun secret hmem hne => ?_⟩
  · obtain ⟨found, hfound, heq⟩ := List.mem_map.mp hmem
    rw [← Option.some.inj heq]
    exact h found hfound
  · exact h secret (mem_values.mpr ⟨hmem, hne⟩)

end

/-! ## What redacting metadata and errors leaves -/

/-- No secret is left in the metadata or in the error of a call, and redacting again changes nothing. -/
structure LeavesNoSecret (members : List (MetadataKey × Metadata)) (error : AudioProviderCallError)
    (secrets : SecretSource) : Prop where
  metadata : ∀ secret ∈ secrets.values,
    ∀ text ∈ (Metadata.mapping (redactProviderMetadata members secrets)).strings, ¬Occurs secret text
  message : ∀ secret ∈ secrets.values, ¬Occurs secret (redactProviderError error secrets).message
  requestId : ∀ secret ∈ secrets.values, ∀ id ∈ (redactProviderError error secrets).providerRequestId,
    ¬Occurs secret id
  metadataAgain : redactProviderMetadata (redactProviderMetadata members secrets) secrets =
    redactProviderMetadata members secrets
  errorAgain : redactProviderError (redactProviderError error secrets) secrets = redactProviderError error secrets

section
variable {members : List (MetadataKey × Metadata)} {error : AudioProviderCallError} {secrets : SecretSource}

theorem strings_redactProviderMetadata : (Metadata.mapping (redactProviderMetadata members secrets)).strings =
    Metadata.keysOfMembers members ++
      (Metadata.textsOfMembers members).map (redactSecrets (secrets.values.map some)) := by
  rw [Metadata.strings, Metadata.keys, Metadata.texts, redactProviderMetadata, Metadata.keysOfMembers_walkMembers,
    Metadata.textsOfMembers_walkMembers]

theorem redactProviderMetadata_again (hshares : ∀ secret ∈ secrets.values, SharesNothing secret) :
    redactProviderMetadata (redactProviderMetadata members secrets) secrets =
      redactProviderMetadata members secrets := by
  refine Metadata.walkMembers_eq_self _ fun text htext => ?_
  rw [redactProviderMetadata, Metadata.textsOfMembers_walkMembers] at htext
  obtain ⟨before, -, rfl⟩ := List.mem_map.mp htext
  exact (redactSecrets_yielded_of_not_occurs fun secret hmem =>
    (not_occurs_of_mem_values hshares hmem before).1).1

theorem redactProviderError_again (hshares : ∀ secret ∈ secrets.values, SharesNothing secret) :
    redactProviderError (redactProviderError error secrets) secrets = redactProviderError error secrets := by
  have hagain (text : String) :
      redactSecrets secrets.yielded (redactSecrets secrets.yielded text) = redactSecrets secrets.yielded text :=
    (redactSecrets_yielded_of_not_occurs fun secret hmem => (not_occurs_of_mem_values hshares hmem text).2).2
  cases secrets with
  | collection list =>
    have hboth : redactSecrets list ∘ redactSecrets list = redactSecrets list := funext hagain
    simp only [redactProviderError, SecretSource.exhausted, SecretSource.yielded, Option.map_map, hboth]
    rw [show redactSecrets list (redactSecrets list error.message) = redactSecrets list error.message from
      hagain error.message]
  | iterator left =>
    have hnone : redactSecrets [] ∘ redactSecrets [] = redactSecrets [] := rfl
    simp only [redactProviderError, SecretSource.exhausted, SecretSource.yielded, Option.map_map, hnone]
    rw [show redactSecrets left (redactSecrets left error.message) = redactSecrets left error.message from
      hagain error.message]

/-- An iterator leaves the request id as it is. -/
theorem providerRequestId_of_not_reiterable (h : ¬secrets.Reiterable) :
    (redactProviderError error secrets).providerRequestId = error.providerRequestId := by
  cases secrets with
  | collection list => exact absurd trivial h
  | iterator left =>
    have hid : (redactProviderError error (.iterator left)).providerRequestId = error.providerRequestId.map id := rfl
    rw [hid, Option.map_id]
    rfl

theorem providerRequestId_of_reiterable (h : secrets.Reiterable) :
    (redactProviderError error secrets).providerRequestId =
      error.providerRequestId.map (redactSecrets secrets.yielded) := by
  cases secrets with
  | collection list => rfl
  | iterator left => cases h

/-- Nothing is left exactly when no secret is in a key, and the secrets can be gone through again or the
request id has none of them. -/
theorem leavesNoSecret_iff (members : List (MetadataKey × Metadata)) (error : AudioProviderCallError)
    (secrets : SecretSource) (hshares : ∀ secret ∈ secrets.values, SharesNothing secret) :
    LeavesNoSecret members error secrets ↔
      (∀ secret ∈ secrets.values, ∀ key ∈ Metadata.keysOfMembers members, ¬Occurs secret key) ∧
        (secrets.Reiterable ∨ ∀ secret ∈ secrets.values, ∀ id ∈ error.providerRequestId, ¬Occurs secret id) := by
  constructor
  · intro h
    refine ⟨fun secret hmem key hkey => h.metadata secret hmem key ?_, ?_⟩
    · rw [strings_redactProviderMetadata]
      exact List.mem_append_left _ hkey
    · by_cases hagain : secrets.Reiterable
      · exact .inl hagain
      · refine .inr fun secret hmem id hid => h.requestId secret hmem id ?_
        rw [providerRequestId_of_not_reiterable hagain]
        exact hid
  · rintro ⟨hkeys, hiterable⟩
    refine ⟨fun secret hmem text htext => ?_, fun secret hmem => (not_occurs_of_mem_values hshares hmem _).2,
      fun secret hmem id hid => ?_, redactProviderMetadata_again hshares, redactProviderError_again hshares⟩
    · rw [strings_redactProviderMetadata] at htext
      rcases List.mem_append.mp htext with hkey | hvalue
      · exact hkeys secret hmem text hkey
      · obtain ⟨before, -, rfl⟩ := List.mem_map.mp hvalue
        exact (not_occurs_of_mem_values hshares hmem before).1
    · by_cases hagain : secrets.Reiterable
      · rw [providerRequestId_of_reiterable hagain] at hid
        obtain ⟨before, -, rfl⟩ := Option.map_eq_some_iff.mp hid
        exact (not_occurs_of_mem_values hshares hmem before).2
      · rw [providerRequestId_of_not_reiterable hagain] at hid
        rcases hiterable with hreiterable | hnone
        · exact absurd hreiterable hagain
        · exact hnone secret hmem id hid

end

/-! ## A credential that a provider sends back -/

/-- An error that names the credential in its message and in its request id. -/
def echoedError : AudioProviderCallError where
  category := .auth
  message := "key sk-1 rejected"
  providerName := "vendor"
  providerRequestId := some "sk-1/7"

/-- The credential is left in a key, and in a request id whose secrets came from an iterator. -/
theorem not_leavesNoSecret_echoed :
    ¬LeavesNoSecret [(.str "sk-1", .str "ok")] echoedError (.collection [some "sk-1"]) ∧
      ¬LeavesNoSecret [] echoedError (.iterator [some "sk-1"]) := by
  have hvalue : "sk-1" ∈ (SecretSource.collection [some "sk-1"]).values := by decide
  have hvalue' : "sk-1" ∈ (SecretSource.iterator [some "sk-1"]).values := by decide
  refine ⟨fun h => ?_, fun h => ?_⟩
  · have hkey : "sk-1" ∈ (Metadata.mapping
        (redactProviderMetadata [(.str "sk-1", .str "ok")] (.collection [some "sk-1"]))).strings := by
      rw [strings_redactProviderMetadata]
      exact List.mem_cons_self
    exact h.metadata "sk-1" hvalue "sk-1" hkey (by decide)
  · have hid : (redactProviderError echoedError (.iterator [some "sk-1"])).providerRequestId = some "sk-1/7" := rfl
    exact h.requestId "sk-1" hvalue' "sk-1/7" hid (by decide)

theorem leavesNoSecret_iff_echoed :
    LeavesNoSecret [(.str "note", .str "key sk-1")] echoedError (.collection [none, some "sk-1", some ""]) ↔
      (∀ secret ∈ (SecretSource.collection [none, some "sk-1", some ""]).values,
          ∀ key ∈ Metadata.keysOfMembers [(.str "note", .str "key sk-1")], ¬Occurs secret key) ∧
        ((SecretSource.collection [none, some "sk-1", some ""]).Reiterable ∨
          ∀ secret ∈ (SecretSource.collection [none, some "sk-1", some ""]).values,
            ∀ id ∈ echoedError.providerRequestId, ¬Occurs secret id) :=
  leavesNoSecret_iff _ _ _ (by decide +kernel)

end CreativeStudio.Audio
