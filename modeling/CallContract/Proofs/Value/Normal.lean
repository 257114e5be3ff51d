import CallContract.Proofs.Binary64
import CallContract.Proofs.Json.RoundTrip
import CallContract.Value.Json
import Mathlib.Data.List.MinMax

/-!
# What the JSON text of a value reads back as

`Value.normal` is the value that JSON can carry: what JSON lacks is null or a string. The text of a value whose finite
numbers are integers below `2^53` reads back as its normal form, and nothing is lost on a value that is plain
everywhere (`Value.ofJsonText?_jsonText`).

- `Value.readable_toJson`: the value as JSON has the shape that reads back;
- `Value.ofJson_toJson`: as a value again it is the normal form;
- `Value.toJson_normal`: the normal form is written like the value.
-/

namespace CallContract

namespace Value

/-! ## Values inside a value -/

/-- A value is inside a value when it is the value itself or inside an item or an entry of it. -/
inductive Within (w : Value) : Value → Prop
  | self : Within w w
  | item {items : List Value} {v : Value} (hv : v ∈ items) (h : Within w v) : Within w (.array items)
  | entry {entries : List (String × Value)} {e : String × Value} (he : e ∈ entries) (h : Within w e.2) :
    Within w (.object entries)

@[simp] theorem within_array {w : Value} {items : List Value} :
    Within w (.array items) ↔ w = .array items ∨ ∃ v ∈ items, Within w v := by
  constructor
  · intro h
    cases h with
    | self => exact .inl rfl
    | item hv h => exact .inr ⟨_, hv, h⟩
  · rintro (rfl | ⟨v, hv, h⟩)
    · exact .self
    · exact .item hv h

@[simp] theorem within_object {w : Value} {entries : List (String × Value)} :
    Within w (.object entries) ↔ w = .object entries ∨ ∃ e ∈ entries, Within w e.2 := by
  constructor
  · intro h
    cases h with
    | self => exact .inl rfl
    | entry he h => exact .inr ⟨_, he, h⟩
  · rintro (rfl | ⟨e, he, h⟩)
    · exact .self
    · exact .entry he h

/-- Nothing but itself is inside a value without items and entries. -/
theorem within_iff_eq {w v : Value} (harray : ∀ items, v ≠ .array items) (hobject : ∀ entries, v ≠ .object entries) :
    Within w v ↔ w = v := by
  constructor
  · intro h
    cases h with
    | self => rfl
    | item => exact absurd rfl (harray _)
    | entry => exact absurd rfl (hobject _)
  · rintro rfl
    exact .self

/-- How many arrays and objects stand inside one another at most. -/
def depth : Value → Nat
  | .array items => (items.map fun v => depth v).foldr max 0 + 1
  | .object entries => (entries.map fun e => depth e.2).foldr max 0 + 1
  | _ => 0
termination_by v => v
decreasing_by
  · have := List.sizeOf_lt_of_mem ‹_›
    simp; omega
  · have := Entries.sizeOf_snd_lt ‹_›
    simp; omega

theorem depth_lt_of_mem_items {v : Value} {items : List Value} (h : v ∈ items) : v.depth < (array items).depth := by
  rw [depth.eq_def (array items)]
  exact Nat.lt_succ_of_le (List.le_max_of_le' 0 (List.mem_map_of_mem h) (Nat.le_refl v.depth))

theorem depth_lt_of_mem_entries {e : String × Value} {entries : List (String × Value)} (h : e ∈ entries) :
    e.2.depth < (object entries).depth := by
  rw [depth.eq_def (object entries)]
  exact Nat.lt_succ_of_le (List.le_max_of_le' 0 (List.mem_map_of_mem (f := fun e => depth e.2) h)
    (Nat.le_refl e.2.depth))

/-! ## Normal forms -/

/-- The value that is read back: null for what is undefined or no finite number, a string for what has no form of its
own in JSON, and one zero. Items and entries keep their places and keys. -/
def normal : Value → Value
  | .undefined | .null => .null
  | .bool b => .bool b
  | .number x => if x.isFinite then .number x.withoutSignedZero else .null
  | .bigint n => .string (toString n)
  | .string s => .string s
  | .symbol d => .string (text (.symbol d))
  | .array items => .array (items.map fun v => normal v)
  | .object entries => .object (entries.map fun e => (e.1, normal e.2))
  | .function f => .string (text (.function f))
termination_by v => v
decreasing_by
  · have := List.sizeOf_lt_of_mem ‹_›
    simp; omega
  · have := Entries.sizeOf_snd_lt ‹_›
    simp; omega

/-- A value of a form that JSON has, its items and entries aside. -/
def isPlain : Value → Bool
  | .null | .bool _ | .string _ | .array _ | .object _ => true
  | .number x => x.isFinite && x != .zero true
  | .undefined | .bigint _ | .symbol _ | .function _ => false

/-- A value that is plain everywhere is its own normal form. -/
theorem normal_of_plain {v : Value} (h : ∀ w, Within w v → w.isPlain = true) : v.normal = v := by
  induction v with
  | undefined => exact nomatch h _ .self
  | null => rw [normal]
  | bool b => rw [normal]
  | number x =>
    have hx := h _ .self
    simp only [isPlain, Bool.and_eq_true, bne_iff_ne] at hx
    rw [normal, if_pos hx.1, Binary64.withoutSignedZero_of_ne hx.2]
  | bigint n => exact nomatch h _ .self
  | string s => rw [normal]
  | symbol d => exact nomatch h _ .self
  | array items ih =>
    have hitems : ∀ v ∈ items, v.normal = v := fun v hv => ih v hv fun w hw => h w (.item hv hw)
    rw [normal, List.map_congr_left hitems, List.map_id']
  | object entries ih =>
    have hentries : ∀ e ∈ entries, (e.1, e.2.normal) = e := fun e he => by
      rw [ih e he fun w hw => h w (.entry he hw)]
    rw [normal, List.map_congr_left hentries, List.map_id']
  | function f => exact nomatch h _ .self

/-- A finite integral number below `2^53` is an integer in JSON. -/
theorem toJson_of_integral {x : Binary64} (finite : x.isFinite = true)
    (integral : x.isIntegral = true ∧ x.natAbs < Nat.pow 2 53) : x.toJson = .number (.integer x.toInt) := by
  simp [Binary64.toJson, finite, integral.1, integral.2, Binary64.toInt_toInt64 finite integral.2]

theorem toJson_of_not_finite {x : Binary64} (h : ¬ x.isFinite = true) : x.toJson = .null := by
  simp [Binary64.toJson, h]

/-- Both zeros are the integer zero in JSON. -/
theorem toJson_of_isZero {x : Binary64} (h : x.isZero = true) : x.toJson = .number (.integer 0) := by
  obtain ⟨negative, rfl⟩ := Binary64.exists_eq_zero h
  rw [toJson_of_integral rfl ⟨Binary64.isIntegral_zero negative, by simp⟩, Binary64.toInt_zero]

theorem toJson_withoutSignedZero (x : Binary64) : x.withoutSignedZero.toJson = x.toJson := by
  rw [Binary64.withoutSignedZero]
  split
  case isTrue hz => rw [toJson_of_isZero hz, toJson_of_isZero rfl]
  case isFalse => rfl

/-- The normal form is written like the value. -/
theorem toJson_normal (v : Value) : v.normal.toJson = v.toJson := by
  induction v with
  | undefined => simp [normal, toJson]
  | null => simp [normal, toJson]
  | bool b => simp [normal, toJson]
  | number x =>
    rw [normal]
    split
    case isTrue => rw [toJson, toJson, toJson_withoutSignedZero]
    case isFalse hx => rw [toJson, toJson, toJson_of_not_finite hx]
  | bigint n => simp [normal, toJson]
  | string s => simp [normal, toJson]
  | symbol d => simp [normal, toJson]
  | array items ih =>
    rw [normal, toJson, toJson, List.map_map]
    exact congrArg Json.array (List.map_congr_left ih)
  | object entries ih =>
    rw [normal, toJson, toJson, List.map_map]
    exact congrArg Json.object (List.map_congr_left fun e he => congrArg (Prod.mk e.1) (ih e he))
  | function f => simp [normal, toJson, text, chars]

/-! ## Reading back -/

variable {v : Value}

/-- As JSON the value has the shape that reads back. -/
theorem readable_toJson {depth : Nat} (sorted : ∀ entries, Within (.object entries) v → Entries.Sorted entries)
    (shallow : v.depth ≤ depth) (integral : ∀ x : Binary64, Within (.number x) v → x.isFinite = true →
      x.isIntegral = true ∧ x.natAbs < Nat.pow 2 53) : Json.Readable depth v.toJson := by
  induction v generalizing depth with
  | undefined => rw [toJson]; exact .null
  | null => rw [toJson]; exact .null
  | bool b => rw [toJson]; exact .bool b
  | number x =>
    rw [toJson]
    by_cases hx : x.isFinite = true
    · have hi := integral x .self hx
      have hn := x.natAbs_toInt
      have h53 : Nat.pow 2 53 = 2 ^ 53 := rfl
      rw [toJson_of_integral hx hi]
      exact .integer (by omega) (by omega)
    · rw [toJson_of_not_finite hx]
      exact .null
  | bigint n => rw [toJson]; exact .string _
  | string s => rw [toJson]; exact .string s
  | symbol d => rw [toJson]; exact .string _
  | array items ih =>
    obtain ⟨d, rfl⟩ : ∃ d, depth = d + 1 := Nat.exists_eq_add_one_of_ne_zero (by rw [Value.depth] at shallow; omega)
    rw [toJson]
    refine .array fun j hj => ?_
    obtain ⟨v, hv, rfl⟩ := List.mem_map.1 hj
    exact ih v hv (fun es h => sorted es (.item hv h))
      (Nat.le_of_lt_succ (Nat.lt_of_lt_of_le (depth_lt_of_mem_items hv) shallow))
      (fun x h => integral x (.item hv h))
  | object entries ih =>
    obtain ⟨d, rfl⟩ : ∃ d, depth = d + 1 := Nat.exists_eq_add_one_of_ne_zero (by rw [Value.depth] at shallow; omega)
    rw [toJson]
    refine .object (List.pairwise_map.2 (sorted entries .self)) fun m hm => ?_
    obtain ⟨e, he, rfl⟩ := List.mem_map.1 hm
    exact ih e he (fun es h => sorted es (.entry he h))
      (Nat.le_of_lt_succ (Nat.lt_of_lt_of_le (depth_lt_of_mem_entries he) shallow))
      (fun x h => integral x (.entry he h))
  | function f => rw [toJson]; exact .string _

/-- The integer that a number is converts back to the number. -/
theorem toBinary64?_toInt {x : Binary64} (finite : x.isFinite = true)
    (integral : x.isIntegral = true ∧ x.natAbs < Nat.pow 2 53) :
    (Json.Number.integer x.toInt).toBinary64? = some x.withoutSignedZero := by
  have hround : (Json.Number.integer x.toInt).toBinary64 = x.withoutSignedZero :=
    Binary64.ofInt_toInt integral.1 integral.2
  have hfinite : x.withoutSignedZero.isFinite = true := by
    rw [Binary64.withoutSignedZero]
    split
    · rfl
    · exact finite
  rw [Json.Number.toBinary64?, hround, if_pos hfinite]

/-- As a value again the JSON of a value is the normal form. -/
theorem ofJson_toJson (integral : ∀ x : Binary64, Within (.number x) v → x.isFinite = true →
    x.isIntegral = true ∧ x.natAbs < Nat.pow 2 53) : ofJson v.toJson = v.normal := by
  induction v with
  | undefined => simp [toJson, ofJson, normal]
  | null => simp [toJson, ofJson, normal]
  | bool b => simp [toJson, ofJson, normal]
  | number x =>
    rw [toJson, normal]
    split
    case isTrue hx =>
      have hi := integral x .self hx
      rw [toJson_of_integral hx hi, ofJson, toBinary64?_toInt hx hi]
      rfl
    case isFalse hx =>
      rw [toJson_of_not_finite hx, ofJson]
  | bigint n => simp [toJson, ofJson, normal]
  | string s => simp [toJson, ofJson, normal]
  | symbol d => simp [toJson, ofJson, normal]
  | array items ih =>
    rw [toJson, ofJson, normal, List.map_map]
    exact congrArg array (List.map_congr_left fun v hv => ih v hv fun x h => integral x (.item hv h))
  | object entries ih =>
    rw [toJson, ofJson, normal, List.map_map]
    exact congrArg object (List.map_congr_left fun e he =>
      congrArg (Prod.mk e.1) (ih e he fun x h => integral x (.entry he h)))
  | function f => simp [toJson, ofJson, normal, text, chars]

/-- A value has objects with increasing keys, at most 127 arrays and objects inside one another, and integers below
`2^53` for its finite numbers. Its JSON text reads back as the normal form, the normal form has the same text, and a
value that is plain everywhere reads back as itself. -/
theorem ofJsonText?_jsonText (v : Value) (sorted : ∀ entries, Within (.object entries) v → Entries.Sorted entries)
    (shallow : v.depth ≤ 127) (integral : ∀ x : Binary64, Within (.number x) v → x.isFinite = true →
      x.isIntegral = true ∧ x.natAbs < Nat.pow 2 53) :
    ofJsonText? v.jsonText = some v.normal ∧ v.normal.jsonText = v.jsonText ∧
      ((∀ w, Within w v → w.isPlain = true) → ofJsonText? v.jsonText = some v) := by
  have hread : ofJsonText? v.jsonText = some v.normal := by
    rw [ofJsonText?, jsonText, Json.ofString?_compact (readable_toJson sorted shallow integral)]
    exact congrArg some (ofJson_toJson integral)
  refine ⟨hread, congrArg Json.compact (toJson_normal v), fun hplain => ?_⟩
  rw [hread, normal_of_plain hplain]

/-- An object with a list under an escaped key: a negative integer and the negative zero are read as integers, what is
no finite number as null, and a large integer, a symbol and a function as their texts. -/
theorem ofJsonText?_jsonText_nested :
    ofJsonText? (jsonText (.object [
      ("\n\x01é", .array [.number (.ofInt (-5)), .number (.zero true), .number .nan, .undefined, .bool true]),
      ("n", .bigint 100000000000000000000),
      ("s", .array [.symbol (some "a\"b"), .function ⟨0, none, .count⟩])])) =
    some (.object [
      ("\n\x01é", .array [.number (.ofInt (-5)), .number (.zero false), .null, .null, .bool true]),
      ("n", .string "100000000000000000000"),
      ("s", .array [.string "Symbol(a\"b)", .string "[Function (anonymous)]"])]) := by
  refine (ofJsonText?_jsonText _ ?_ ?_ ?_).1.trans ?_
  · intro entries h
    obtain rfl : entries = _ := by simpa [within_iff_eq] using h
    decide
  · simp [depth]
  · intro x h
    obtain rfl | rfl | rfl : x = .ofInt (-5) ∨ x = .zero true ∨ x = .nan := by simpa [within_iff_eq] using h
    · decide
    · simp
    · nofun
  · have hfive : (Binary64.ofInt (-5)).isFinite = true ∧ Binary64.ofInt (-5) ≠ .zero true := by decide
    have hrepr : Int.repr 100000000000000000000 = "100000000000000000000" := by decide
    simp [normal, text, chars, Function.text, hfive.1, Binary64.withoutSignedZero_of_ne hfive.2, hrepr]
    exact ⟨rfl, rfl⟩

end Value

end CallContract
