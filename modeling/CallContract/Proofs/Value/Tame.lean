import CallContract.Proofs.Binary64.Rounding
import CallContract.Proofs.Entries
import CallContract.Proofs.Value.Equality

/-!
# Values that are read from JSON

A numeral stands for a finite number or for none (`Json.Numeral.isFinite_of_value?`): the significand fits 64 bits, a
division by a power of ten does not lead out of the range, and an infinite product is refused. So the conversion of a
number that was read never falls back to not-a-number, and by induction on the nesting everything inside a value that
was read has a form that JSON has (`Value.tame_of_ofJsonText?`).
-/

namespace CallContract

/-! ## Numerals -/

namespace Json.Numeral

variable {numeral : Numeral} {significand : Nat} {digits : List Nat}

theorem absorb_lt (h : significand < Nat.pow 2 64) : (absorb significand digits).1 < Nat.pow 2 64 := by
  fun_induction absorb significand digits with
  | case1 => exact h
  | case2 significand d ds hroom ih => exact ih hroom
  | case3 => exact h

/-- Scaling a finite number gives a finite number, or none. -/
theorem isFinite_of_scale? {x y : Binary64} {exponent : Int} (hx : x.isFinite = true)
    (h : scale? x exponent = some y) : y.isFinite = true := by
  fun_induction scale? x exponent with
  | case1 => exact Option.some.inj h ▸ hx
  | case2 x exponent power _ _ ih =>
    have hdiv : ∀ n ≤ 308, (x.divPos (power n)).isFinite = true := fun n => Binary64.isFinite_divPos hx
    exact ih (hdiv 308 (Nat.le_refl _)) h
  | case3 => exact Option.some.inj h ▸ Binary64.isFinite_divPos hx (by omega)
  | case4 x exponent power _ _ _ _ hfinite => exact Option.some.inj h ▸ hfinite
  | case5 => exact nomatch h
  | case6 => exact Option.some.inj h ▸ hx
  | case7 => exact nomatch h

theorem isFinite_of_float? {exponent : Option Exponent} {shift : Int} {y : Binary64} (hs : significand < Nat.pow 2 64)
    (h : float? significand shift exponent = some y) : y.isFinite = true := by
  have hx : (Binary64.ofInt significand).isFinite = true := Binary64.isFinite_ofInt hs.le
  unfold float? at h
  split at h
  · exact isFinite_of_scale? hx h
  · simp only at h
    split at h
    · split at h
      · exact nomatch h
      · exact Option.some.inj h ▸ rfl
    · exact isFinite_of_scale? hx h

/-- **A numeral stands for a finite number**, or for none. -/
theorem isFinite_of_value? {n : Number} (h : numeral.value? = some n) : n.toBinary64.isFinite = true := by
  have habsorb : (absorb 0 numeral.whole).1 < Nat.pow 2 64 := absorb_lt (Nat.two_pow_pos 64)
  have hinteger : ∀ i : Int, i.natAbs = (absorb 0 numeral.whole).1 → (Binary64.ofInt i).isFinite = true :=
    fun i hi => Binary64.isFinite_ofInt (hi.trans_le habsorb.le)
  have hsigned : ∀ x : Binary64, x.isFinite = true → (if numeral.negative then x.neg else x).isFinite = true := by
    intro x hx
    split
    · rwa [Binary64.isFinite_neg]
    · exact hx
  simp only [value?] at h
  split at h
  -- a whole number whose digits all found room, and then any other numeral
  · split at h
    · exact Option.some.inj h ▸ hinteger _ (Int.natAbs_natCast _)
    · split at h
      · exact Option.some.inj h ▸ hsigned _ (hinteger _ (Int.natAbs_natCast _))
      · exact Option.some.inj h ▸ hinteger _ (by rw [Int.natAbs_neg, Int.natAbs_natCast])
  · obtain ⟨x, hx, rfl⟩ := Option.map_eq_some_iff.1 h
    exact hsigned x (isFinite_of_float? (absorb_lt habsorb) hx)

theorem toBinary64?_of_value? {n : Number} (h : numeral.value? = some n) : n.toBinary64? = some n.toBinary64 :=
  if_pos (isFinite_of_value? h)

end Json.Numeral

/-! ## Tame values -/

namespace Value

/-- A value of a form that JSON has, its items and entries aside; a number has to be finite. -/
def hasJsonForm : Value → Bool
  | .null | .bool _ | .string _ | .array _ | .object _ => true
  | .number x => x.isFinite
  | .undefined | .bigint _ | .symbol _ | .function _ => false

/-- Everything inside the value has a form that JSON has. -/
def Tame (v : Value) : Prop :=
  ∀ w, Within w v → w.hasJsonForm = true

variable {v : Value}

theorem tame_of_items {items : List Value} (h : ∀ v ∈ items, v.Tame) : (array items).Tame := by
  intro w hw
  rcases within_array.1 hw with rfl | ⟨v, hv, hw⟩
  · rfl
  · exact h v hv w hw

theorem tame_of_entries {entries : List (String × Value)} (h : ∀ e ∈ entries, e.2.Tame) : (object entries).Tame := by
  intro w hw
  rcases within_object.1 hw with rfl | ⟨e, he, hw⟩
  · rfl
  · exact h e he w hw

theorem tame_of_leaf (harray : ∀ items, v ≠ .array items) (hobject : ∀ entries, v ≠ .object entries)
    (h : v.hasJsonForm = true) : v.Tame := by
  intro w hw
  rwa [(within_iff_eq harray hobject).1 hw]

theorem tame_null : Value.null.Tame :=
  tame_of_leaf nofun nofun rfl

theorem tame_bool (b : Bool) : (Value.bool b).Tame :=
  tame_of_leaf nofun nofun rfl

theorem tame_number {x : Binary64} (h : x.isFinite = true) : (Value.number x).Tame :=
  tame_of_leaf nofun nofun h

theorem tame_string (s : String) : (Value.string s).Tame :=
  tame_of_leaf nofun nofun rfl

/-- A tame value has no not-a-number inside it. -/
theorem Tame.numeric (h : v.Tame) : v.Numeric := by
  rintro x hx rfl
  exact nomatch h _ hx

theorem Tame.kind_mem (h : v.Tame) : v.kind ∈ [Kind.object, .string, .number, .boolean] := by
  have hform := h v .self
  cases v with
  | undefined | bigint | symbol | function => exact nomatch hform
  | _ => simp [kind]

end Value

/-! ## Trees -/

namespace Json.Raw

variable {depth : Nat} {raw : Raw} {j : Json}

/-- The items of an array are read one level below. -/
theorem exists_items_of_toJson? {items : List Raw} (h : (array items).toJson? depth = some j) :
    ∃ d js, depth = d + 1 ∧ j = .array js ∧ ∀ i ∈ js, ∃ item ∈ items, item.toJson? d = some i := by
  cases depth with
  | zero => simp [toJson?] at h
  | succ d =>
    rw [toJson?] at h
    obtain ⟨js, hjs, rfl⟩ := Option.map_eq_some_iff.1 h
    refine ⟨d, js, rfl, rfl, ?_⟩
    intro i hi
    obtain ⟨item, hitem, hread⟩ := Traversal.exists_of_mem_right (Traversal.mapM_eq_some_iff.1 hjs) hi
    exact ⟨item, hitem, hread⟩

/-- Of the members of an object some may be dropped for a repeated key; the values of the others are read one level
below. -/
theorem exists_members_of_toJson? {members : List (List StringUnit × Raw)}
    (h : (object members).toJson? depth = some j) : ∃ d ms, depth = d + 1 ∧ j = .object ms ∧
      ∀ m ∈ ms, ∃ member ∈ members, member.2.toJson? d = some m.2 := by
  cases depth with
  | zero => simp [toJson?] at h
  | succ d =>
    rw [toJson?] at h
    obtain ⟨ms, hms, rfl⟩ := Option.map_eq_some_iff.1 h
    refine ⟨d, Entries.ofList ms, rfl, rfl, ?_⟩
    intro m hm
    obtain ⟨member, hmember, hread⟩ :=
      Traversal.exists_of_mem_right (Traversal.mapM_eq_some_iff.1 hms) (Entries.ofList_subset ms hm)
    obtain ⟨key, -, hvalue⟩ := Option.bind_eq_some_iff.1 hread
    obtain ⟨i, hi, rfl⟩ := Option.map_eq_some_iff.1 hvalue
    exact ⟨member, hmember, hi⟩

/-- What is read from a tree becomes a tame value, by induction on the nesting that is allowed. -/
theorem tame_of_toJson? (h : raw.toJson? depth = some j) : (Value.ofJson j).Tame := by
  induction depth using Nat.strongRecOn generalizing raw j with
  | ind depth ih =>
    cases raw with
    | null =>
      rw [toJson?] at h
      obtain rfl := Option.some.inj h
      rw [Value.ofJson]
      exact Value.tame_null
    | bool b =>
      rw [toJson?] at h
      obtain rfl := Option.some.inj h
      rw [Value.ofJson]
      exact Value.tame_bool b
    | number numeral =>
      rw [toJson?] at h
      obtain ⟨n, hn, rfl⟩ := Option.map_eq_some_iff.1 h
      rw [Value.ofJson, Numeral.toBinary64?_of_value? hn]
      exact Value.tame_number (Numeral.isFinite_of_value? hn)
    | string units =>
      rw [toJson?] at h
      obtain ⟨s, -, rfl⟩ := Option.map_eq_some_iff.1 h
      rw [Value.ofJson]
      exact Value.tame_string s
    | array items =>
      obtain ⟨d, js, rfl, rfl, hitems⟩ := exists_items_of_toJson? h
      rw [Value.ofJson]
      refine Value.tame_of_items ?_
      intro v hv
      obtain ⟨i, hi, rfl⟩ := List.mem_map.1 hv
      obtain ⟨item, -, hitem⟩ := hitems i hi
      exact ih d (Nat.lt_succ_self d) hitem
    | object members =>
      obtain ⟨d, ms, rfl, rfl, hmembers⟩ := exists_members_of_toJson? h
      rw [Value.ofJson]
      refine Value.tame_of_entries ?_
      intro e he
      obtain ⟨m, hm, rfl⟩ := List.mem_map.1 he
      obtain ⟨member, -, hmember⟩ := hmembers m hm
      exact ih d (Nat.lt_succ_self d) hmember

end Json.Raw

/-- **What is read from a JSON text is tame.** -/
theorem Value.tame_of_ofJsonText? {text : String} {v : Value} (h : ofJsonText? text = some v) : v.Tame := by
  obtain ⟨j, hj, rfl⟩ := Option.map_eq_some_iff.1 h
  obtain ⟨raw, -, hraw⟩ := Option.bind_eq_some_iff.1 hj
  exact Json.Raw.tame_of_toJson? hraw

end CallContract
