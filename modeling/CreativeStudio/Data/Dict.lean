import Mathlib.Data.List.Sort
import Mathlib.Data.String.Basic

/-!
# Dictionaries with string keys

A dictionary is the list of its members in insertion order, which is what iterating
over one visits. `set` is assignment: it replaces the value of a key in place and
appends a new key. `sortByName` is the order a file written with sorted keys has; a
sorted dictionary is determined by looking keys up.
-/

namespace CreativeStudio.Data

/-- The members of a dictionary in insertion order. -/
abbrev Dict (α : Type) := List (String × α)

namespace Dict
variable {α β : Type}

/-- `d.get(key)`: the first member of that name. -/
def get? : Dict α → String → Option α
  | [], _ => none
  | (k, v) :: rest, key => if k = key then some v else get? rest key

/-- `d[key] = value`: replace in place, or append. -/
def set : Dict α → String → α → Dict α
  | [], key, value => [(key, value)]
  | (k, v) :: rest, key, value =>
    if k = key then (k, value) :: rest else (k, v) :: set rest key value

theorem get?_set (d : Dict α) (key key' : String) (value : α) :
    (d.set key value).get? key' = if key = key' then some value else d.get? key' := by
  induction d with
  | nil => simp [set, get?]
  | cons kv rest ih =>
    obtain ⟨k, v⟩ := kv
    by_cases hk : k = key
    · subst hk
      by_cases hk' : k = key' <;> simp [set, get?, hk']
    · by_cases hk' : k = key'
      · subst hk'
        simp [set, get?, hk, Ne.symm hk]
      · simp [set, get?, hk, hk', ih]

@[simp] theorem get?_set_self (d : Dict α) (key : String) (value : α) :
    (d.set key value).get? key = some value := by simp [get?_set]

@[simp] theorem set_set (d : Dict α) (key : String) (value value' : α) :
    (d.set key value).set key value' = d.set key value' := by
  induction d with
  | nil => simp [set]
  | cons kv d ih =>
    rw [set]
    split
    next h => simp [set, h]
    next h => simp [set, h, ih]

theorem get?_set_ne {key key' : String} (d : Dict α) (value : α) (h : key ≠ key') :
    (d.set key value).get? key' = d.get? key' := by simp [get?_set, h]

/-- Put a member where its name belongs in a list sorted by name. -/
def insertByName (key : String) (value : α) : Dict α → Dict α
  | [] => [(key, value)]
  | (k, v) :: rest =>
    if key < k then (key, value) :: (k, v) :: rest
    else if key = k then (key, value) :: rest
    else (k, v) :: insertByName key value rest

/-- The members sorted by name; a name that is there twice keeps its first value. -/
def sortByName : Dict α → Dict α
  | [] => []
  | (k, v) :: rest => insertByName k v (sortByName rest)

theorem get?_insertByName (key key' : String) (value : α) (d : Dict α) :
    (insertByName key value d).get? key' = if key = key' then some value else d.get? key' := by
  induction d with
  | nil => simp [insertByName, get?]
  | cons kv rest ih =>
    obtain ⟨k, v⟩ := kv
    unfold insertByName
    split
    · simp [get?]
    · split
      next h => subst h; by_cases hk : key = key' <;> simp [get?, hk]
      next h =>
        by_cases hk : k = key'
        · subst hk; simp [get?, h]
        · simp [get?, hk, ih]

theorem get?_sortByName (d : Dict α) (key : String) : (sortByName d).get? key = d.get? key := by
  induction d with
  | nil => rfl
  | cons kv rest ih => simp [sortByName, get?_insertByName, get?, ih]

/-- The names are strictly increasing. -/
def Sorted (d : Dict α) : Prop := (d.map Prod.fst).Pairwise (· < ·)

theorem mem_names_insertByName {key key' : String} {value : α} {d : Dict α}
    (h : key' ∈ (insertByName key value d).map Prod.fst) : key' = key ∨ key' ∈ d.map Prod.fst := by
  induction d with
  | nil => simpa [insertByName] using h
  | cons kv rest ih =>
    obtain ⟨k, v⟩ := kv
    unfold insertByName at h
    split at h
    · simpa using h
    · split at h
      · simp only [List.map_cons, List.mem_cons] at h ⊢
        rcases h with h | h <;> simp [h]
      · simp only [List.map_cons, List.mem_cons] at h ⊢
        rcases h with h | h
        · simp [h]
        · rcases ih h with h | h <;> simp [h]

theorem sorted_insertByName {key : String} {value : α} {d : Dict α} (h : Sorted d) :
    Sorted (insertByName key value d) := by
  induction d with
  | nil => simp [Sorted, insertByName]
  | cons kv rest ih =>
    obtain ⟨k, v⟩ := kv
    simp only [Sorted, List.map_cons, List.pairwise_cons] at h ih
    unfold insertByName
    split
    next hlt =>
      simp only [Sorted, List.map_cons, List.pairwise_cons, List.mem_cons]
      refine ⟨?_, h⟩
      rintro k' (rfl | hk')
      · exact hlt
      · exact hlt.trans (h.1 k' hk')
    next hge =>
      split
      next heq => subst heq; simpa [Sorted] using h
      next hne =>
        simp only [Sorted, List.map_cons, List.pairwise_cons]
        refine ⟨fun k' hk' => ?_, ih h.2⟩
        rcases mem_names_insertByName hk' with rfl | hk'
        · exact lt_of_le_of_ne (not_lt.mp hge) (Ne.symm hne)
        · exact h.1 k' hk'

theorem sorted_sortByName (d : Dict α) : Sorted (sortByName d) := by
  induction d with
  | nil => simp [sortByName, Sorted]
  | cons kv rest ih => exact sorted_insertByName ih

theorem get?_eq_none_of_notMem {d : Dict α} {key : String} (h : key ∉ d.map Prod.fst) :
    d.get? key = none := by
  induction d with
  | nil => rfl
  | cons kv rest ih =>
    simp only [List.map_cons, List.mem_cons, not_or] at h
    simp [get?, Ne.symm h.1, ih h.2]

theorem get?_of_mem {d : Dict α} (hd : (d.map Prod.fst).Nodup) {kv : String × α} (h : kv ∈ d) :
    d.get? kv.1 = some kv.2 := by
  induction d with
  | nil => cases h
  | cons kv' rest ih =>
    simp only [List.map_cons, List.nodup_cons] at hd
    rcases List.mem_cons.mp h with rfl | h
    · simp [get?]
    · have hne : kv'.1 ≠ kv.1 := fun heq => hd.1 (heq ▸ List.mem_map_of_mem h)
      simp [get?, hne, ih hd.2 h]

theorem mem_of_get? {d : Dict α} {key : String} {value : α} (h : d.get? key = some value) :
    (key, value) ∈ d := by
  induction d with
  | nil => simp [get?] at h
  | cons kv rest ih =>
    obtain ⟨k, v⟩ := kv
    by_cases hk : k = key
    · subst hk
      obtain rfl : v = value := by simpa [get?] using h
      exact List.mem_cons_self
    · exact List.mem_cons_of_mem _ (ih (by simpa [get?, hk] using h))

theorem Sorted.nodup {d : Dict α} (h : Sorted d) : (d.map Prod.fst).Nodup :=
  List.Pairwise.imp (fun h => ne_of_lt h) h

/-- Sorted objects are determined by looking keys up. -/
theorem Sorted.ext {a b : Dict α} (ha : Sorted a) (hb : Sorted b)
    (h : ∀ key, a.get? key = b.get? key) : a = b := by
  induction a generalizing b with
  | nil =>
    cases b with
    | nil => rfl
    | cons kv rest => simpa [get?] using (h kv.1)
  | cons kv rest ih =>
    cases b with
    | nil => simpa [get?] using (h kv.1)
    | cons kv' rest' =>
      simp only [Sorted, List.map_cons, List.pairwise_cons] at ha hb ih
      -- the smaller of the two first names would be missing on the other side
      have hname : kv.1 = kv'.1 := by
        rcases lt_trichotomy kv.1 kv'.1 with hlt | heq | hgt
        · have hnot : kv.1 ∉ (kv' :: rest').map Prod.fst := by
            simp only [List.map_cons, List.mem_cons, not_or]
            exact ⟨ne_of_lt hlt, fun hmem => absurd (hb.1 _ hmem) (lt_asymm hlt)⟩
          have := h kv.1
          rw [get?_eq_none_of_notMem hnot] at this
          simp [get?] at this
        · exact heq
        · have hnot : kv'.1 ∉ (kv :: rest).map Prod.fst := by
            simp only [List.map_cons, List.mem_cons, not_or]
            exact ⟨ne_of_lt hgt, fun hmem => absurd (ha.1 _ hmem) (lt_asymm hgt)⟩
          have := h kv'.1
          rw [get?_eq_none_of_notMem hnot] at this
          simp [get?] at this
      have hvalue : kv.2 = kv'.2 := by simpa [get?, hname] using h kv.1
      have hrest : rest = rest' := by
        refine ih ha.2 hb.2 fun key => ?_
        by_cases hk : kv.1 = key
        · have hkr : key ∉ rest.map Prod.fst := fun hmem =>
            absurd (hk ▸ ha.1 _ hmem) (lt_irrefl _)
          have hkr' : key ∉ rest'.map Prod.fst := fun hmem =>
            absurd (hk ▸ hname ▸ hb.1 _ hmem) (lt_irrefl _)
          rw [get?_eq_none_of_notMem hkr, get?_eq_none_of_notMem hkr']
        · have hk' : kv'.1 ≠ key := hname ▸ hk
          simpa [get?, hk, hk'] using h key
      rw [hrest, Prod.ext hname hvalue]

theorem mem_names_iff {d : Dict α} {key : String} :
    key ∈ d.map Prod.fst ↔ (d.get? key).isSome := by
  induction d with
  | nil => simp [get?]
  | cons kv rest ih =>
    by_cases hk : kv.1 = key
    · simp [get?, hk]
    · simp [get?, hk, Ne.symm hk, ← ih]

theorem get?_eq_some_iff {d : Dict α} (hd : (d.map Prod.fst).Nodup) {key : String} {value : α} :
    d.get? key = some value ↔ (key, value) ∈ d :=
  ⟨mem_of_get?, fun h => get?_of_mem hd h⟩

/-- Looking keys up does not depend on the order of the members. -/
theorem get?_congr {a b : Dict α} (ha : (a.map Prod.fst).Nodup) (hb : (b.map Prod.fst).Nodup)
    (h : ∀ kv, kv ∈ a ↔ kv ∈ b) (key : String) : a.get? key = b.get? key := by
  ext value
  rw [get?_eq_some_iff ha, get?_eq_some_iff hb, h]

/-- Sorting a dictionary only changes the order of its members. -/
theorem mem_sortByName {d : Dict α} (hd : (d.map Prod.fst).Nodup) {kv : String × α} :
    kv ∈ sortByName d ↔ kv ∈ d := by
  constructor
  · intro h
    have hget := get?_of_mem (sorted_sortByName d).nodup h
    rw [get?_sortByName] at hget
    exact mem_of_get? hget
  · intro h
    have hget := get?_of_mem hd h
    rw [← get?_sortByName] at hget
    exact mem_of_get? hget

@[simp] theorem sortByName_sortByName (d : Dict α) : sortByName (sortByName d) = sortByName d :=
  (sorted_sortByName _).ext (sorted_sortByName d) fun key => get?_sortByName _ key

theorem mem_names_set {d : Dict α} {key key' : String} {value : α} :
    key' ∈ (d.set key value).map Prod.fst ↔ key' = key ∨ key' ∈ d.map Prod.fst := by
  induction d with
  | nil => simp [set]
  | cons kv rest ih =>
    by_cases hk : kv.1 = key
    · simp [set, hk]
    · simp only [set, hk, if_false, List.map_cons, List.mem_cons, ih]
      tauto

theorem nodup_set {d : Dict α} (hd : (d.map Prod.fst).Nodup) (key : String) (value : α) :
    ((d.set key value).map Prod.fst).Nodup := by
  induction d with
  | nil => simp [set]
  | cons kv rest ih =>
    simp only [List.map_cons, List.nodup_cons] at hd
    by_cases hk : kv.1 = key
    · subst hk; simpa [set] using hd
    · simp only [set, hk, if_false, List.map_cons, List.nodup_cons, mem_names_set, not_or]
      exact ⟨⟨not_false, hd.1⟩, ih hd.2⟩

theorem set_of_notMem {d : Dict α} {key : String} (h : key ∉ d.map Prod.fst) (value : α) :
    d.set key value = d ++ [(key, value)] := by
  induction d with
  | nil => rfl
  | cons kv rest ih =>
    simp only [List.map_cons, List.mem_cons, not_or] at h
    simp [set, Ne.symm h.1, ih h.2]

/-- `dict(pairs)`: a later pair of the same name replaces the value of an earlier one. -/
def ofPairs (pairs : List (String × α)) : Dict α :=
  pairs.foldl (fun d kv => d.set kv.1 kv.2) []

theorem nodup_ofPairs (pairs : List (String × α)) : ((ofPairs pairs).map Prod.fst).Nodup := by
  suffices h : ∀ d : Dict α, (d.map Prod.fst).Nodup →
      ((pairs.foldl (fun d kv => d.set kv.1 kv.2) d).map Prod.fst).Nodup from h [] List.nodup_nil
  induction pairs with
  | nil => exact fun d hd => hd
  | cons kv rest ih => exact fun d hd => ih _ (nodup_set hd kv.1 kv.2)

/-- Pairs with distinct names are a dictionary already. -/
theorem ofPairs_of_nodup {pairs : List (String × α)} (h : (pairs.map Prod.fst).Nodup) :
    ofPairs pairs = pairs := by
  suffices key : ∀ d : Dict α, ((d ++ pairs).map Prod.fst).Nodup →
      pairs.foldl (fun d kv => d.set kv.1 kv.2) d = d ++ pairs from key [] (by simpa using h)
  clear h
  induction pairs with
  | nil => simp
  | cons kv rest ih =>
    intro d hd
    have hnot : kv.1 ∉ d.map Prod.fst := by
      intro hmem
      simp only [List.map_append, List.map_cons] at hd
      exact (List.nodup_append.mp hd).2.2 kv.1 hmem kv.1 List.mem_cons_self rfl
    rw [List.foldl_cons, set_of_notMem hnot, ih _ (by simpa using hd)]
    simp

@[simp] theorem ofPairs_ofPairs (pairs : List (String × α)) :
    ofPairs (ofPairs pairs) = ofPairs pairs := ofPairs_of_nodup (nodup_ofPairs pairs)

/-- `{**d, **d'}`: the members of `d` keep their places, and those of `d'` win. -/
def update (d d' : Dict α) : Dict α :=
  (d.map fun kv => (kv.1, (d'.get? kv.1).getD kv.2)) ++
    d'.filter fun kv => kv.1 ∉ d.map Prod.fst

theorem get?_append (d d' : Dict α) (key : String) :
    get? (d ++ d') key = (d.get? key).or (d'.get? key) := by
  induction d with
  | nil => rfl
  | cons kv rest ih =>
    obtain ⟨k, v⟩ := kv
    by_cases hk : k = key
    · simp [get?, hk]
    · simpa [get?, hk] using ih

theorem get?_filter (d : Dict α) (p : String → Bool) (key : String) :
    get? (d.filter fun kv => p kv.1) key = if p key then d.get? key else none := by
  induction d with
  | nil => simp [get?]
  | cons kv rest ih =>
    obtain ⟨k, v⟩ := kv
    by_cases hk : k = key
    · subst hk
      by_cases hp : p k
      · simp [hp, get?]
      · simpa [hp] using ih
    · by_cases hp : p k
      · simpa [hp, get?, hk] using ih
      · simpa [hp, get?, hk] using ih

theorem get?_mapMember (d : Dict α) (f : String → α → α) (key : String) :
    get? (d.map fun kv => (kv.1, f kv.1 kv.2)) key = (d.get? key).map (f key) := by
  induction d with
  | nil => rfl
  | cons kv rest ih =>
    obtain ⟨k, v⟩ := kv
    by_cases hk : k = key
    · subst hk
      simp [get?]
    · simpa [get?, hk] using ih

theorem get?_update (d d' : Dict α) (key : String) :
    (d.update d').get? key = (d'.get? key).or (d.get? key) := by
  unfold update
  rw [get?_append, get?_mapMember d (fun k v => (d'.get? k).getD v),
    get?_filter d' (fun k => decide (k ∉ d.map Prod.fst))]
  cases hd : d.get? key with
  | some v => cases d'.get? key <;> simp
  | none =>
    have hnot : key ∉ d.map Prod.fst := fun hmem => by
      have hsome := mem_names_iff.mp hmem
      rw [hd] at hsome
      cases hsome
    simp only [hnot, not_false_iff, decide_true, if_true, Option.map_none, Option.none_or,
      Option.or_none]

/-- `d.pop(key, None)` as a change of `d`. -/
def erase (d : Dict α) (key : String) : Dict α := d.filter fun kv => kv.1 != key

theorem get?_erase (d : Dict α) (key key' : String) :
    (d.erase key).get? key' = if key' = key then none else d.get? key' := by
  unfold erase
  rw [get?_filter d (fun k => k != key)]
  by_cases h : key' = key <;> simp [h]

/-- `d.setdefault(key, value)`. -/
def setDefault (d : Dict α) (key : String) (value : α) : Dict α :=
  if (d.get? key).isSome then d else d.set key value

theorem get?_setDefault (d : Dict α) (key key' : String) (value : α) :
    (d.setDefault key value).get? key' =
      if key' = key then some ((d.get? key).getD value) else d.get? key' := by
  unfold setDefault
  cases h : d.get? key with
  | some v =>
    by_cases hk : key' = key
    · subst hk
      simp [h]
    · simp [hk]
  | none =>
    by_cases hk : key' = key
    · subst hk
      simp
    · simp [hk, get?_set, Ne.symm hk]

/-- Apply a function to every value. -/
def mapValues (f : α → β) (d : Dict α) : Dict β := d.map fun kv => (kv.1, f kv.2)

theorem get?_mapValues (f : α → β) (d : Dict α) (key : String) :
    (mapValues f d).get? key = (d.get? key).map f := by
  induction d with
  | nil => rfl
  | cons kv rest ih =>
    obtain ⟨k, v⟩ := kv
    by_cases hk : k = key
    · simp [mapValues, get?, hk]
    · simpa [mapValues, get?, hk] using ih

end Dict
end CreativeStudio.Data
