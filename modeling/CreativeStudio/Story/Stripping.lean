import CreativeStudio.Data.Lines
import CreativeStudio.Story.TextUtils
import Mathlib.Data.List.DropRight

/-!
# Stripping

What `strip` takes off the two ends of a text, and what stripping does to a text with whitespace on
one side.
-/

namespace CreativeStudio.Story
open Data

/-- `text.rstrip()`. -/
def rstrip (text : Text) : Text := text.rdropWhile isSpace

theorem rdropWhile_append {α : Type} (p : α → Bool) (before after : List α) :
    (before ++ after).rdropWhile p =
      if after.all p then before.rdropWhile p else before ++ after.rdropWhile p := by
  induction after using List.reverseRecOn with
  | nil => simp
  | append_singleton after c ih =>
    rw [← List.append_assoc]
    by_cases hc : p c
    · rw [List.rdropWhile_concat_pos _ _ _ hc, ih, List.rdropWhile_concat_pos _ _ _ hc]
      simp [hc]
    · rw [List.rdropWhile_concat_neg _ _ _ hc, List.rdropWhile_concat_neg _ _ _ hc]
      simp [hc]

theorem stripText_eq (text : Text) : stripText text = rstrip (text.dropWhile isSpace) := rfl

theorem isBlank_iff {text : Text} : isBlank text ↔ ∀ c ∈ text, isSpace c := by simp [isBlank]

theorem visible_eq_nil {text : Text} : visible text = [] ↔ isBlank text := by
  simp [visible, isBlank, List.filter_eq_nil_iff]

theorem rstrip_of_isBlank {text : Text} (h : isBlank text) : rstrip text = [] :=
  (List.rdropWhile_eq_nil_iff ..).mpr (isBlank_iff.mp h)

theorem stripText_of_isBlank {text : Text} (h : isBlank text) : stripText text = [] := by
  rw [stripText_eq, List.dropWhile_eq_nil_iff.mpr (isBlank_iff.mp h)]
  rfl

theorem rstrip_append_of_isBlank {after : Text} (h : isBlank after) (before : Text) :
    rstrip (before ++ after) = rstrip before := by
  rw [rstrip, rdropWhile_append, if_pos (show after.all isSpace from h)]
  rfl

theorem rstrip_append_of_not_isBlank {after : Text} (h : ¬isBlank after) (before : Text) :
    rstrip (before ++ after) = before ++ rstrip after := by
  rw [rstrip, rdropWhile_append, if_neg (show ¬after.all isSpace from h)]
  rfl

theorem stripText_append_of_isBlank {after : Text} (h : isBlank after) (before : Text) :
    stripText (before ++ after) = stripText before := by
  by_cases hbefore : isBlank before
  · rw [stripText_of_isBlank hbefore, stripText_of_isBlank]
    exact isBlank_iff.mpr fun c hc => (List.mem_append.mp hc).elim (isBlank_iff.mp hbefore c) (isBlank_iff.mp h c)
  · have hne : before.dropWhile isSpace ≠ [] := fun hnil =>
      hbefore (isBlank_iff.mpr (List.dropWhile_eq_nil_iff.mp hnil))
    rw [stripText_eq, List.dropWhile_append, if_neg (by simpa using hne), rstrip_append_of_isBlank h]
    rfl

theorem stripText_append_of_isBlank_left {before : Text} (h : isBlank before) (after : Text) :
    stripText (before ++ after) = stripText after := by
  rw [stripText_eq, List.dropWhile_append, if_pos (by simpa using isBlank_iff.mp h)]
  rfl

theorem stripText_cons {c : Char} (h : isSpace c) (text : Text) : stripText (c :: text) = stripText text := by
  rw [stripText_eq, List.dropWhile_cons_of_pos h]
  rfl

/-- A text that starts with what shows keeps its start. -/
theorem stripText_of_head {c : Char} (h : isSpace c = false) (text : Text) :
    stripText (c :: text) = rstrip (c :: text) := by
  rw [stripText_eq, List.dropWhile_cons_of_neg (by simp [h])]

theorem isBlank_rtakeWhile (text : Text) : isBlank (text.rtakeWhile isSpace) :=
  isBlank_iff.mpr fun _ hc => List.mem_rtakeWhile_imp hc

theorem rstrip_append_rtakeWhile (text : Text) : rstrip text ++ text.rtakeWhile isSpace = text :=
  List.rdropWhile_append_rtakeWhile ..

@[simp] theorem stripText_rstrip (text : Text) : stripText (rstrip text) = stripText text := by
  conv_rhs => rw [← rstrip_append_rtakeWhile text, stripText_append_of_isBlank (isBlank_rtakeWhile text)]

end CreativeStudio.Story
