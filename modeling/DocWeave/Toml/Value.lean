/-!
# TOML values

- `Value`: what a TOML document holds. Numbers, dates and times keep their text. Equality of values
  can be decided.
- `Fields`: the keys of a table with their values, in the order in which they were defined.
-/

namespace DocWeave.Toml

/-- A TOML value. -/
inductive Value where
  | string (value : String)
  | boolean (value : Bool)
  | integer (text : String)
  | float (text : String)
  | dateTime (text : String)
  | array (items : List Value)
  | table (fields : List (String × Value))
deriving Repr

mutual

/-- Whether two values are the same. -/
def Value.same : Value → Value → Bool
  | .string a, .string b | .integer a, .integer b | .float a, .float b | .dateTime a, .dateTime b =>
    a == b
  | .boolean a, .boolean b => a == b
  | .array items, .array others => sameValues items others
  | .table fields, .table others => sameFields fields others
  | _, _ => false

/-- Whether two arrays hold the same values. -/
def sameValues : List Value → List Value → Bool
  | [], [] => true
  | value :: items, other :: others => value.same other && sameValues items others
  | _, _ => false

/-- Whether two tables hold the same values under the same keys, in the same order. -/
def sameFields : List (String × Value) → List (String × Value) → Bool
  | [], [] => true
  | (key, value) :: fields, (otherKey, other) :: others =>
    key == otherKey && value.same other && sameFields fields others
  | _, _ => false

end

mutual

theorem Value.same_iff (value other : Value) : value.same other = true ↔ value = other := by
  cases value <;> cases other <;> simp [Value.same, sameValues_iff, sameFields_iff]

theorem sameValues_iff (items others : List Value) :
    sameValues items others = true ↔ items = others := by
  cases items with
  | nil => cases others <;> simp [sameValues]
  | cons value items =>
    cases others with
    | nil => simp [sameValues]
    | cons other others => simp [sameValues, value.same_iff other, sameValues_iff items others]

theorem sameFields_iff (fields others : List (String × Value)) :
    sameFields fields others = true ↔ fields = others := by
  cases fields with
  | nil => cases others <;> simp [sameFields]
  | cons field fields =>
    cases others with
    | nil => simp [sameFields]
    | cons other others =>
      simp [sameFields, Prod.ext_iff, field.2.same_iff other.2, sameFields_iff fields others]

end

-- The handler that derives such instances does not reach through the lists of values.
instance : DecidableEq Value := fun value other =>
  decidable_of_iff (value.same other = true) (value.same_iff other)

/-- The keys of a table with their values. -/
abbrev Fields := List (String × Value)

namespace Fields

/-- The value of a key. -/
def get? (fields : Fields) (key : String) : Option Value :=
  fields.lookup key

/-- The table without a key. -/
def erase (fields : Fields) (key : String) : Fields :=
  fields.filter (·.1 ≠ key)

@[simp]
theorem get?_erase (fields : Fields) (key other : String) :
    (fields.erase key).get? other = if other = key then none else fields.get? other := by
  induction fields with
  | nil => simp [erase, get?]
  | cons field rest ih =>
    simp only [erase, get?, List.filter_cons] at ih ⊢
    grind

end Fields

end DocWeave.Toml
