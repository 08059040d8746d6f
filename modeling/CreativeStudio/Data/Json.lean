import CreativeStudio.Data.Dict
import Mathlib.Data.Rat.Defs

/-!
# JSON values with ordered objects

`canon` sorts the members of every object in a value, which is how a file written with
sorted keys holds it. Two objects that differ in member order only are the same
dictionary: they have one canonical form, and `Obj.canon_eq_iff` says that this form
is determined by looking keys up.
-/

namespace CreativeStudio.Data

/-- A JSON value over the type of its floats. Integers and floats are kept apart. -/
inductive JsonOf (φ : Type)
  | null
  | bool (b : Bool)
  | int (n : ℤ)
  | float (x : φ)
  | str (s : String)
  | arr (xs : List (JsonOf φ))
  | obj (members : List (String × JsonOf φ))
  deriving Inhabited, Repr

/-- A JSON value whose floats are finite, and exact. -/
abbrev Json := JsonOf ℚ

/-- The members of an object in insertion order. -/
abbrev Obj := Dict Json

namespace JsonOf
variable {φ : Type}

section Equality
variable [DecidableEq φ]

mutual
/-- Equality of values, member order included. -/
def beq : JsonOf φ → JsonOf φ → Bool
  | .null, .null => true
  | .bool a, .bool b => a == b
  | .int a, .int b => a == b
  | .float a, .float b => decide (a = b)
  | .str a, .str b => decide (a = b)
  | .arr a, .arr b => beqList a b
  | .obj a, .obj b => beqObj a b
  | _, _ => false
/-- `beq` on the elements of an array. -/
def beqList : List (JsonOf φ) → List (JsonOf φ) → Bool
  | [], [] => true
  | x :: xs, y :: ys => beq x y && beqList xs ys
  | _, _ => false
/-- `beq` on the members of an object. -/
def beqObj : List (String × JsonOf φ) → List (String × JsonOf φ) → Bool
  | [], [] => true
  | (k, x) :: xs, (l, y) :: ys => decide (k = l) && (beq x y && beqObj xs ys)
  | _, _ => false
end

mutual
private theorem eq_of_beq : ∀ a b : JsonOf φ, beq a b = true → a = b
  | .null, b, h => by cases b <;> simp_all [beq]
  | .bool _, b, h => by cases b <;> simp_all [beq]
  | .int _, b, h => by cases b <;> simp_all [beq]
  | .float _, b, h => by cases b <;> simp_all [beq]
  | .str _, b, h => by cases b <;> simp_all [beq]
  | .arr xs, b, h => by
    cases b with
    | arr ys => rw [eq_of_beqList xs ys (by simpa [beq] using h)]
    | _ => simp [beq] at h
  | .obj xs, b, h => by
    cases b with
    | obj ys => rw [eq_of_beqObj xs ys (by simpa [beq] using h)]
    | _ => simp [beq] at h
private theorem eq_of_beqList : ∀ a b : List (JsonOf φ), beqList a b = true → a = b
  | [], b, h => by cases b <;> simp_all [beqList]
  | x :: xs, [], h => by simp [beqList] at h
  | x :: xs, y :: ys, h => by
    simp only [beqList, Bool.and_eq_true] at h
    rw [eq_of_beq x y h.1, eq_of_beqList xs ys h.2]
private theorem eq_of_beqObj : ∀ a b : List (String × JsonOf φ), beqObj a b = true → a = b
  | [], b, h => by cases b <;> simp_all [beqObj]
  | x :: xs, [], h => by simp [beqObj] at h
  | (k, x) :: xs, (l, y) :: ys, h => by
    simp only [beqObj, Bool.and_eq_true, decide_eq_true_eq] at h
    rw [h.1, eq_of_beq x y h.2.1, eq_of_beqObj xs ys h.2.2]
end

mutual
private theorem beq_self : ∀ a : JsonOf φ, beq a a = true
  | .null => rfl
  | .bool _ => by simp [beq]
  | .int _ => by simp [beq]
  | .float _ => by simp [beq]
  | .str _ => by simp [beq]
  | .arr xs => by simpa [beq] using beqList_self xs
  | .obj xs => by simpa [beq] using beqObj_self xs
private theorem beqList_self : ∀ a : List (JsonOf φ), beqList a a = true
  | [] => rfl
  | x :: xs => by simp [beqList, beq_self x, beqList_self xs]
private theorem beqObj_self : ∀ a : List (String × JsonOf φ), beqObj a a = true
  | [] => rfl
  | (k, x) :: xs => by simp [beqObj, beq_self x, beqObj_self xs]
end

instance : DecidableEq (JsonOf φ) := fun a b =>
  decidable_of_iff (beq a b = true) ⟨eq_of_beq a b, fun h => h ▸ beq_self a⟩

end Equality

end JsonOf

/-! ## Canonical form -/

namespace JsonOf
variable {φ : Type}

mutual
/-- The value with the members of every object in it sorted by name. -/
def canon : JsonOf φ → JsonOf φ
  | .arr xs => .arr (canonList xs)
  | .obj members => .obj (Dict.sortByName (canonMembers members))
  | j => j
/-- `canon` on the elements of an array. -/
def canonList : List (JsonOf φ) → List (JsonOf φ)
  | [] => []
  | x :: xs => x.canon :: canonList xs
/-- `canon` on the values of members. -/
def canonMembers : List (String × JsonOf φ) → List (String × JsonOf φ)
  | [] => []
  | (k, v) :: rest => (k, v.canon) :: canonMembers rest
end

theorem get?_canonMembers (d : Dict (JsonOf φ)) (key : String) :
    Dict.get? (canonMembers d) key = (d.get? key).map canon := by
  induction d with
  | nil => rfl
  | cons kv rest ih =>
    obtain ⟨k, v⟩ := kv
    by_cases hk : k = key <;> simp [canonMembers, Dict.get?, hk, ih]

end JsonOf

namespace Json
export JsonOf (null bool int float str arr obj)
end Json

/-- The object with every object in it, and itself, sorted by member name. -/
def Obj.canon (d : Obj) : Obj := Dict.sortByName (JsonOf.canonMembers d)

namespace Obj

@[simp] theorem get?_canon (d : Obj) (key : String) :
    Dict.get? d.canon key = (d.get? key).map JsonOf.canon := by
  rw [canon, Dict.get?_sortByName, JsonOf.get?_canonMembers]

theorem sorted_canon (d : Obj) : Dict.Sorted d.canon := Dict.sorted_sortByName _

/-- Two objects have one canonical form when they hold the same values under the same
keys. -/
theorem canon_eq_iff {a b : Obj} :
    a.canon = b.canon ↔ ∀ key, (a.get? key).map JsonOf.canon = (b.get? key).map JsonOf.canon := by
  constructor
  · intro h key
    rw [← get?_canon, ← get?_canon, h]
  · intro h
    exact (sorted_canon a).ext (sorted_canon b) fun key => by simpa using h key

/-- Equality of dictionaries. -/
def Same (a b : Obj) : Prop := a.canon = b.canon

instance (a b : Obj) : Decidable (a.Same b) := inferInstanceAs (Decidable (a.canon = b.canon))

end Obj

@[simp] theorem JsonOf.canon_obj (d : Obj) : (Json.obj d).canon = .obj d.canon := by
  rw [JsonOf.canon, Obj.canon]

namespace JsonOf

mutual
/-- Sorting a sorted value changes nothing. -/
theorem canon_canon : ∀ j : Json, j.canon.canon = j.canon
  | .null => by simp [canon]
  | .bool _ => by simp [canon]
  | .int _ => by simp [canon]
  | .float _ => by simp [canon]
  | .str _ => by simp [canon]
  | .arr xs => by simp [canon, canonList_canonList xs]
  | .obj members => by
    have h : Obj.canon (Obj.canon members) = Obj.canon members := by
      refine Obj.canon_eq_iff.mpr fun key => ?_
      rw [Obj.get?_canon]
      exact map_canon_canon members key
    simp only [canon_obj, h]
private theorem canonList_canonList : ∀ xs : List Json,
    canonList (canonList xs) = canonList xs
  | [] => rfl
  | x :: xs => by simp [canonList, canon_canon x, canonList_canonList xs]
private theorem map_canon_canon : ∀ (d : List (String × Json)) (key : String),
    ((Dict.get? d key).map canon).map canon = (Dict.get? d key).map canon
  | [], _ => rfl
  | (k, v) :: rest, key => by
    by_cases hk : k = key
    · simp [Dict.get?, hk, canon_canon v]
    · simpa [Dict.get?, hk] using map_canon_canon rest key
end

end JsonOf

@[simp] theorem Obj.canon_canon (d : Obj) : d.canon.canon = d.canon :=
  Obj.canon_eq_iff.mpr fun key => by
    rw [Obj.get?_canon]
    cases d.get? key with
    | none => rfl
    | some v => simp [JsonOf.canon_canon]

namespace Obj

theorem Same.refl (a : Obj) : a.Same a := rfl
theorem Same.symm {a b : Obj} (h : a.Same b) : b.Same a := Eq.symm h
theorem Same.trans {a b c : Obj} (h : a.Same b) (h' : b.Same c) : a.Same c := Eq.trans h h'
theorem same_iff {a b : Obj} :
    a.Same b ↔ ∀ key, (a.get? key).map JsonOf.canon = (b.get? key).map JsonOf.canon := canon_eq_iff

/-- Assignment keeps dictionaries equal. -/
theorem Same.set {a b : Obj} (h : a.Same b) (key : String) {v w : Json} (hv : v.canon = w.canon) :
    Obj.Same (a.set key v) (b.set key w) := by
  refine same_iff.mpr fun key' => ?_
  by_cases hk : key = key'
  · simp [hk, hv]
  · simpa [Dict.get?_set, hk] using same_iff.mp h key'

/-- Two dictionaries that hold the same values under every key but these. -/
def SameOutside (keys : List String) (a b : Obj) : Prop :=
  ∀ key, key ∉ keys → (a.get? key).map JsonOf.canon = (b.get? key).map JsonOf.canon

theorem sameOutside_nil {a b : Obj} : SameOutside [] a b ↔ a.Same b := by
  rw [same_iff]
  exact ⟨fun h key => h key (by simp), fun h key _ => h key⟩

/-- Assigning equal values to one key leaves open what was there before. -/
theorem sameOutside_set_iff {keys : List String} {a b : Obj} {key : String} {v w : Json}
    (hv : v.canon = w.canon) :
    SameOutside keys (a.set key v) (b.set key w) ↔ SameOutside (key :: keys) a b := by
  constructor
  · intro h key' hkey'
    simp only [List.mem_cons, not_or] at hkey'
    have := h key' hkey'.2
    rwa [Dict.get?_set_ne a v (Ne.symm hkey'.1), Dict.get?_set_ne b w (Ne.symm hkey'.1)] at this
  · intro h key' hkey'
    by_cases hk : key = key'
    · subst hk
      simp [hv]
    · rw [Dict.get?_set_ne a v hk, Dict.get?_set_ne b w hk]
      exact h key' (by simp [Ne.symm hk, hkey'])

theorem mem_names_canon {d : Obj} {key : String} :
    key ∈ d.canon.map Prod.fst ↔ key ∈ d.map Prod.fst := by
  simp [Dict.mem_names_iff]

end Obj
/-! ## Reading a value -/

namespace JsonOf
variable {φ : Type}

/-- `bool(value)`. -/
def truthy [Zero φ] [DecidableEq φ] : JsonOf φ → Bool
  | .null => false
  | .bool b => b
  | .int n => n != 0
  | .float x => decide (x ≠ 0)
  | .str s => s != ""
  | .arr xs => !xs.isEmpty
  | .obj members => !members.isEmpty

/-- The text of a value that is a text. -/
def str? : JsonOf φ → Option String
  | .str s => some s
  | _ => none

/-- The integer of a value that is an integer, which a boolean is not here. -/
def int? : JsonOf φ → Option ℤ
  | .int n => some n
  | _ => none

/-- The members of a value that is a dictionary. -/
def obj? : JsonOf φ → Option (Dict (JsonOf φ))
  | .obj members => some members
  | _ => none

/-- An optional text: `None` or a string. -/
def ofStr? (text : Option String) : JsonOf φ := text.elim .null .str

@[simp] theorem str?_canon (j : JsonOf φ) : j.canon.str? = j.str? := by
  cases j <;> simp [canon, str?]

theorem str?_eq_some {j : JsonOf φ} {s : String} : j.str? = some s ↔ j = .str s := by
  cases j <;> simp [str?]

end JsonOf

end CreativeStudio.Data
