import CreativeStudio.Schemas.Values

/-!
# Models that ignore unknown fields

A response model is a `pydantic` model with `extra="ignore"`: its declared fields are validated in
order, everything else is dropped, and a missing field takes its default. What `validate` returns is
`model_validate(value).model_dump(mode="json")`.
-/

namespace CreativeStudio
open Data

/-- The type of a field, or of a whole response. -/
inductive Shape
  /-- `str`. -/
  | str
  /-- `T | None`. -/
  | optional (shape : Shape)
  /-- `float`. -/
  | float
  /-- `dict[str, str]`. -/
  | strings
  /-- `list[T]`, with `min_length=1` or without. -/
  | list (nonempty : Bool) (item : Shape)
  /-- A model: the names, the defaults and the types of its fields. -/
  | model (fields : List (String × Option Value × Shape))

namespace Shape

/-- A field without a default. -/
def required (name : String) (shape : Shape) : String × Option Value × Shape := (name, none, shape)

/-- `name: str = ""`. -/
def blankText (name : String) : String × Option Value × Shape := (name, some (.str ""), .str)

section
variable (lib : ValueLibrary)

mutual
/-- What `model_validate` accepts, as it is dumped afterwards. -/
def validate : Shape → Value → Option Value
  | .str, .str s => some (.str s)
  | .optional _, .null => some .null
  | .optional shape, value => shape.validate value
  | .float, value => match toPyFloat lib value with
    | .ok x => some (.float x)
    | .error _ => none
  | .strings, .obj members => if members.all fun kv => kv.2.str?.isSome then some (.obj members) else none
  | .list nonempty item, .arr values =>
    if nonempty && values.isEmpty then none else (values.mapM item.validate).map .arr
  | .model fields, .obj members => (validateFields fields members).map .obj
  | _, _ => none
/-- The fields of a model, in order. -/
def validateFields : List (String × Option Value × Shape) → Dict Value → Option (Dict Value)
  | [], _ => some []
  | (name, default, shape) :: rest, members => do
    let value ← (members.get? name).elim default shape.validate
    return (name, value) :: (← validateFields rest members)
end

/-- A field with a value is accepted as its type is, and one without as its default. -/
def fieldValue (members : Dict Value) (field : String × Option Value × Shape) : Option Value :=
  (members.get? field.1).elim field.2.1 (field.2.2.validate lib)

end

mutual
/-- How deep models and lists are nested. -/
def depth : Shape → ℕ
  | .str => 1
  | .optional shape => shape.depth
  | .float => 1
  | .strings => 1
  | .list _ item => item.depth + 1
  | .model fields => depthFields fields + 1
/-- The depth of the deepest field. -/
def depthFields : List (String × Option Value × Shape) → ℕ
  | [] => 0
  | (_, _, shape) :: rest => max shape.depth (depthFields rest)
end

theorem depth_le_depthFields {fields : List (String × Option Value × Shape)} {field : String × Option Value × Shape}
    (h : field ∈ fields) : field.2.2.depth ≤ depthFields fields := by
  induction fields with
  | nil => cases h
  | cons first rest ih =>
    rcases first with ⟨name, default, shape⟩
    rw [depthFields]
    rcases List.mem_cons.1 h with rfl | h
    · exact le_max_left _ _
    · exact (ih h).trans (le_max_right _ _)

section
variable {lib : ValueLibrary}

theorem validate_optional (shape : Shape) (value : Value) :
    validate lib (.optional shape) value = if value = .null then some .null else validate lib shape value := by
  cases value <;> rfl

theorem isSome_validate_optional {shape : Shape} {value : Value} (h : (validate lib shape value).isSome) :
    (validate lib (.optional shape) value).isSome := by
  rw [validate_optional]
  split
  · rfl
  · exact h

theorem validate_model (fields : List (String × Option Value × Shape)) (members : Dict Value) :
    validate lib (.model fields) (.obj members) = (validateFields lib fields members).map .obj := rfl

theorem validate_list (nonempty : Bool) (item : Shape) (values : List Value) :
    validate lib (.list nonempty item) (.arr values) =
      if nonempty && values.isEmpty then none else (values.mapM (validate lib item)).map .arr := rfl

theorem validate_strings (members : Dict Value) :
    validate lib .strings (.obj members) =
      if members.all fun kv => kv.2.str?.isSome then some (.obj members) else none := rfl

@[simp] theorem validate_str (s : String) : validate lib .str (.str s) = some (.str s) := rfl

@[simp] theorem validate_float (x : PyFloat) : validate lib .float (.float x) = some (.float x) := rfl

theorem validateFields_cons (field : String × Option Value × Shape) (rest : List (String × Option Value × Shape))
    (members : Dict Value) :
    validateFields lib (field :: rest) members = (fieldValue lib members field).bind fun value =>
      (validateFields lib rest members).map fun dumped => (field.1, value) :: dumped := by
  rcases field with ⟨name, default, shape⟩
  simp only [validateFields, fieldValue, Option.bind_eq_bind, Option.pure_def, Option.map_eq_bind]
  rfl

@[simp] theorem validateFields_nil (members : Dict Value) : validateFields lib [] members = some [] := rfl

/-- A model is accepted if and only if all of its fields are. -/
theorem isSome_validateFields {fields : List (String × Option Value × Shape)} {members : Dict Value} :
    (validateFields lib fields members).isSome ↔ ∀ field ∈ fields, (fieldValue lib members field).isSome := by
  induction fields with
  | nil => simp
  | cons field rest ih =>
    rw [validateFields_cons, List.forall_mem_cons, ← ih]
    cases fieldValue lib members field <;> simp

/-- What is dumped of a field is what was accepted of it. -/
theorem get?_validateFields {fields : List (String × Option Value × Shape)} {members dumped : Dict Value}
    (h : validateFields lib fields members = some dumped) (hnames : (fields.map Prod.fst).Nodup)
    {field : String × Option Value × Shape} (hfield : field ∈ fields) :
    dumped.get? field.1 = fieldValue lib members field := by
  induction fields generalizing dumped with
  | nil => cases hfield
  | cons first rest ih =>
    rw [validateFields_cons] at h
    rcases Option.bind_eq_some_iff.1 h with ⟨value, hvalue, h⟩
    rcases Option.map_eq_some_iff.1 h with ⟨others, hothers, rfl⟩
    rw [List.map_cons, List.nodup_cons] at hnames
    rcases List.mem_cons.1 hfield with rfl | hrest
    · rw [Dict.get?, if_pos rfl, hvalue]
    · have hne : first.1 ≠ field.1 := by
        intro heq
        exact hnames.1 (heq ▸ List.mem_map_of_mem hrest)
      rw [Dict.get?, if_neg hne]
      exact ih hothers hnames.2 hrest

theorem names_validateFields {fields : List (String × Option Value × Shape)} {members dumped : Dict Value}
    (h : validateFields lib fields members = some dumped) : dumped.map Prod.fst = fields.map Prod.fst := by
  induction fields generalizing dumped with
  | nil =>
    cases h
    rfl
  | cons first rest ih =>
    rw [validateFields_cons] at h
    rcases Option.bind_eq_some_iff.1 h with ⟨value, -, h⟩
    rcases Option.map_eq_some_iff.1 h with ⟨others, hothers, rfl⟩
    rw [List.map_cons, List.map_cons, ih hothers]

/-- A field of an accepted model is accepted. -/
theorem exists_get?_validateFields {fields : List (String × Option Value × Shape)} {members dumped : Dict Value}
    (h : validateFields lib fields members = some dumped) (hnames : (fields.map Prod.fst).Nodup)
    {field : String × Option Value × Shape} (hfield : field ∈ fields) :
    ∃ value, dumped.get? field.1 = some value ∧ fieldValue lib members field = some value := by
  have hsome : (fieldValue lib members field).isSome := isSome_validateFields.1 (h ▸ rfl) field hfield
  rcases Option.isSome_iff_exists.1 hsome with ⟨value, hvalue⟩
  exact ⟨value, (get?_validateFields h hnames hfield).trans hvalue, hvalue⟩

theorem validate_model_eq_some {fields : List (String × Option Value × Shape)} {value dumped : Value}
    (h : validate lib (.model fields) value = some dumped) :
    ∃ members d, value = .obj members ∧ dumped = .obj d ∧ validateFields lib fields members = some d := by
  cases value with
  | obj members =>
    rw [validate_model] at h
    rcases Option.map_eq_some_iff.1 h with ⟨d, hd, rfl⟩
    exact ⟨members, d, rfl, rfl, hd⟩
  | _ =>
    have hnone : none = some dumped := h
    cases hnone

theorem validate_list_eq_some {nonempty : Bool} {item : Shape} {value dumped : Value}
    (h : validate lib (.list nonempty item) value = some dumped) :
    ∃ values ds, value = .arr values ∧ dumped = .arr ds ∧ (nonempty → values ≠ []) ∧
      values.mapM (validate lib item) = some ds := by
  cases value with
  | arr values =>
    rw [validate_list] at h
    split at h
    · cases h
    next hne =>
      rcases Option.map_eq_some_iff.1 h with ⟨ds, hds, rfl⟩
      refine ⟨values, ds, rfl, rfl, ?_, hds⟩
      intro hnonempty hnil
      apply hne
      rw [hnonempty, hnil]
      rfl
  | _ =>
    have hnone : none = some dumped := h
    cases hnone

/-- A value that is accepted as a float is dumped as one. -/
theorem validate_float_eq_some {value dumped : Value} (h : validate lib .float value = some dumped) :
    ∃ x, dumped = .float x := by
  have hcases : validate lib .float value = match toPyFloat lib value with
      | .ok x => some (.float x)
      | .error _ => none := by
    cases value <;> rfl
  rw [hcases] at h
  split at h
  · cases h
    exact ⟨_, rfl⟩
  · cases h

theorem validate_str_eq_some {value dumped : Value} (h : validate lib .str value = some dumped) :
    ∃ s, dumped = .str s := by
  cases value with
  | str s => exact ⟨s, (Option.some.inj ((validate_str s).symm.trans h)).symm⟩
  | _ =>
    have hnone : none = some dumped := h
    cases hnone

/-- What is dumped of a field satisfies what its default and every accepted value do. -/
theorem get?_of_dumped {P : Value → Prop} {fields : List (String × Option Value × Shape)} {members dumped : Dict Value}
    (h : validateFields lib fields members = some dumped) (hnames : (fields.map Prod.fst).Nodup)
    {name : String} {default : Option Value} {shape : Shape} (hfield : (name, default, shape) ∈ fields)
    (hdefault : ∀ value, default = some value → P value)
    (haccepted : ∀ raw value, validate lib shape raw = some value → P value) :
    ∃ value, dumped.get? name = some value ∧ P value := by
  rcases exists_get?_validateFields h hnames hfield with ⟨value, hget, hvalue⟩
  refine ⟨value, hget, ?_⟩
  rw [fieldValue] at hvalue
  cases hraw : members.get? name with
  | none =>
    rw [hraw, Option.elim_none] at hvalue
    exact hdefault value hvalue
  | some raw =>
    rw [hraw, Option.elim_some] at hvalue
    exact haccepted raw value hvalue

/-- A list is accepted if and only if all of its items are. -/
theorem isSome_mapM {α β : Type} {f : α → Option β} {items : List α} :
    (items.mapM f).isSome ↔ ∀ item ∈ items, (f item).isSome := by
  induction items with
  | nil => simp
  | cons item rest ih =>
    rw [List.mapM_cons, List.forall_mem_cons, ← ih]
    cases f item <;> cases rest.mapM f <;> simp

/-- The items of a list are dumped one by one. -/
theorem forall_of_mapM {α β : Type} {f : α → Option β} {items : List α} {values : List β}
    (h : items.mapM f = some values) :
    values.length = items.length ∧ ∀ value ∈ values, ∃ item ∈ items, f item = some value := by
  induction items generalizing values with
  | nil =>
    cases h
    exact ⟨rfl, List.forall_mem_nil _⟩
  | cons item rest ih =>
    rw [List.mapM_cons] at h
    rcases Option.bind_eq_some_iff.1 h with ⟨value, hvalue, h⟩
    rcases Option.bind_eq_some_iff.1 h with ⟨others, hothers, h⟩
    cases h
    rcases ih hothers with ⟨hlength, hall⟩
    refine ⟨congrArg (· + 1) hlength, List.forall_mem_cons.2 ⟨⟨item, List.mem_cons_self, hvalue⟩, ?_⟩⟩
    intro v hv
    rcases hall v hv with ⟨i, hi, hvi⟩
    exact ⟨i, List.mem_cons_of_mem _ hi, hvi⟩

end
end Shape
end CreativeStudio
