import CallContract.Json.Basic

/-!
# Schemas of documents

A `Schema` asks for a form, for members and for sizes, one keyword for each. A keyword speaks of values of one form and
has nothing to say about others. `Schema.Reports` is what a document has reported about it: a keyword once at each
place where a value breaks it, a required member once for each that is missing, and all members beside the known ones
together. `Signature.schema` is the schema of signatures.
-/

namespace CallContract

/-- The form of a JSON value. -/
inductive Json.Form where
  | null
  | bool
  | number
  | string
  | array
  | object
  deriving DecidableEq

/-- The form of a JSON value. -/
def Json.form : Json → Form
  | .null => .null
  | .bool _ => .bool
  | .number _ => .number
  | .string _ => .string
  | .array _ => .array
  | .object _ => .object

section Forms

variable {j : Json}

theorem Json.form_ne_string_iff : j.form ≠ .string ↔ ∀ s, j ≠ .string s := by
  cases j <;> simp [Json.form]

theorem Json.form_ne_array_iff : j.form ≠ .array ↔ ∀ items, j ≠ .array items := by
  cases j <;> simp [Json.form]

theorem Json.form_ne_object_iff : j.form ≠ .object ↔ ∀ members, j ≠ .object members := by
  cases j <;> simp [Json.form]

end Forms

/-- What a schema asks for; a keyword that is left out asks for nothing. -/
structure Schema where
  form : Option Json.Form := none
  required : List String := []
  properties : List (String × Schema) := []
  /-- Whether there may be members beside the properties. -/
  additional : Bool := true
  minLength : Nat := 0
  items : Option Schema := none
  minItems : Nat := 0

/-- A keyword that is broken, with what is reported about it. -/
inductive Schema.Breach where
  | form (found : Json) (asked : Json.Form)
  | required (key : String)
  | additional (keys : List String)
  | minLength
  | minItems

namespace Schema

/-- The keys of members beside the properties. -/
def unknown (s : Schema) (members : List (String × Json)) : List String :=
  (members.map (·.1)).filter fun key => key ∉ s.properties.map (·.1)

/-- The schema has a breach reported of a document, at the place that the keys and indices lead to. -/
inductive Reports : Schema → Json → List String → Breach → Prop where
  | form {s : Schema} {j : Json} {form : Json.Form} (asked : s.form = some form) (h : j.form ≠ form) :
    Reports s j [] (.form j form)
  | required {s : Schema} {members : List (String × Json)} {key : String} (asked : key ∈ s.required)
      (h : Entries.find? members key = none) : Reports s (.object members) [] (.required key)
  | additional {s : Schema} {members : List (String × Json)} (asked : s.additional = false)
      (h : s.unknown members ≠ []) : Reports s (.object members) [] (.additional (s.unknown members))
  | minLength {s : Schema} {text : String} (h : text.length < s.minLength) : Reports s (.string text) [] .minLength
  | minItems {s : Schema} {items : List Json} (h : items.length < s.minItems) : Reports s (.array items) [] .minItems
  | property {s property : Schema} {members : List (String × Json)} {key : String} {j : Json} {place : List String}
      {b : Breach} (asked : (key, property) ∈ s.properties) (given : Entries.find? members key = some j)
      (h : Reports property j place b) : Reports s (.object members) (key :: place) b
  | item {s item : Schema} {items : List Json} {i : Nat} {j : Json} {place : List String} {b : Breach}
      (asked : s.items = some item) (given : items[i]? = some j) (h : Reports item j place b) :
      Reports s (.array items) (toString i :: place) b

/-! ## Strings, arrays and objects -/

/-- A string of some length. -/
def text (minLength : Nat) : Schema where
  form := some .string
  minLength := minLength

/-- An array of some length. -/
def list (minItems : Nat) (items : Schema) : Schema where
  form := some .array
  items := some items
  minItems := minItems

/-- An object of known members. -/
def record (required : List String) (properties : List (String × Schema)) : Schema where
  form := some .object
  required := required
  properties := properties
  additional := false

section Reports

variable {n : Nat} {j : Json} {place : List String} {b : Breach} {item : Schema} {required : List String}
  {properties : List (String × Schema)}

theorem reports_text_iff : Reports (text n) j place b ↔ place = [] ∧
    ((∀ s, j ≠ .string s) ∧ b = .form j .string ∨ ∃ s, j = .string s ∧ s.length < n ∧ b = .minLength) := by
  constructor
  · intro h
    cases h with
    | form asked h =>
      obtain rfl := Option.some.inj asked
      exact ⟨rfl, Or.inl ⟨Json.form_ne_string_iff.1 h, rfl⟩⟩
    | required asked => exact nomatch asked
    | additional asked => exact nomatch asked
    | minLength h => exact ⟨rfl, Or.inr ⟨_, rfl, h, rfl⟩⟩
    | minItems h => exact absurd h (Nat.not_lt_zero _)
    | property asked => exact nomatch asked
    | item asked => exact nomatch asked
  · rintro ⟨rfl, ⟨hform, rfl⟩ | ⟨s, rfl, hlength, rfl⟩⟩
    · exact .form rfl (Json.form_ne_string_iff.2 hform)
    · exact .minLength hlength

theorem reports_list_iff : Reports (list n item) j place b ↔
    place = [] ∧ ((∀ items, j ≠ .array items) ∧ b = .form j .array ∨
      ∃ items, j = .array items ∧ items.length < n ∧ b = .minItems) ∨
    ∃ items i x rest, j = .array items ∧ items[i]? = some x ∧ place = toString (i : Nat) :: rest ∧
      Reports item x rest b := by
  constructor
  · intro h
    cases h with
    | form asked h =>
      obtain rfl := Option.some.inj asked
      exact Or.inl ⟨rfl, Or.inl ⟨Json.form_ne_array_iff.1 h, rfl⟩⟩
    | required asked => exact nomatch asked
    | additional asked => exact nomatch asked
    | minLength h => exact absurd h (Nat.not_lt_zero _)
    | minItems h => exact Or.inl ⟨rfl, Or.inr ⟨_, rfl, h, rfl⟩⟩
    | property asked => exact nomatch asked
    | item asked given h =>
      obtain rfl := Option.some.inj asked
      exact Or.inr ⟨_, _, _, _, rfl, given, rfl, h⟩
  · rintro (⟨rfl, ⟨hform, rfl⟩ | ⟨items, rfl, hlength, rfl⟩⟩ | ⟨items, i, x, rest, rfl, given, rfl, h⟩)
    · exact .form rfl (Json.form_ne_array_iff.2 hform)
    · exact .minItems hlength
    · exact .item rfl given h

theorem reports_record_iff : Reports (record required properties) j place b ↔
    place = [] ∧ ((∀ members, j ≠ .object members) ∧ b = .form j .object ∨ ∃ members, j = .object members ∧
      ((∃ key ∈ required, Entries.find? members key = none ∧ b = .required key) ∨
        (record required properties).unknown members ≠ [] ∧
          b = .additional ((record required properties).unknown members))) ∨
    ∃ members key property x rest, j = .object members ∧ (key, property) ∈ properties ∧
      Entries.find? members key = some x ∧ place = key :: rest ∧ Reports property x rest b := by
  constructor
  · intro h
    cases h with
    | form asked h =>
      obtain rfl := Option.some.inj asked
      exact Or.inl ⟨rfl, Or.inl ⟨Json.form_ne_object_iff.1 h, rfl⟩⟩
    | required asked h => exact Or.inl ⟨rfl, Or.inr ⟨_, rfl, Or.inl ⟨_, asked, h, rfl⟩⟩⟩
    | additional _ h => exact Or.inl ⟨rfl, Or.inr ⟨_, rfl, Or.inr ⟨h, rfl⟩⟩⟩
    | minLength h => exact absurd h (Nat.not_lt_zero _)
    | minItems h => exact absurd h (Nat.not_lt_zero _)
    | property asked given h => exact Or.inr ⟨_, _, _, _, _, rfl, asked, given, rfl, h⟩
    | item asked => exact nomatch asked
  · rintro (⟨rfl, ⟨hform, rfl⟩ | ⟨members, rfl, ⟨key, asked, h, rfl⟩ | ⟨h, rfl⟩⟩⟩ |
      ⟨members, key, property, x, rest, rfl, asked, given, rfl, h⟩)
    · exact .form rfl (Json.form_ne_object_iff.2 hform)
    · exact .required asked h
    · exact .additional rfl h
    · exact .property asked given h

end Reports

end Schema

/-- The schema of signatures: a name, a list of expectations, and perhaps a description. -/
def Signature.schema : Schema :=
  .record ["name", "expects"] [("name", .text 1), ("description", .text 0), ("expects", .list 1 (.text 0))]

end CallContract
