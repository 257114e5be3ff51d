import CallContract.Proofs.Binary64.Rounding
import CallContract.Proofs.Json.Numeral
import CallContract.Proofs.Value.Equality
import Mathlib.Data.Nat.Cast.Field
import Std.Data.String.ToInt

/-!
# Whole numbers as text

A finite number stands for one rational number (`Binary64.value?`), and up to the sign of zero no other number stands
for the same one (`ieeeEq_of_value?`). A number that stands for an integer is written as that integer with all its
digits, as text below `10^21` and as JSON below `2^53`, where 64 bits hold it; a larger one has a point or an exponent
in JSON. So the text of an integral number below `10^21` says which number it is (`integral_texts`).
-/

namespace CallContract

namespace Binary64

/-! ## The rational number of a number -/

/-- The number that is stood for, exactly. -/
def value? : Binary64 → Option ℚ
  | .finite negative m q _ => some (if negative then -(m * 2 ^ q) else m * 2 ^ q)
  | .nan | .infinity _ => none

section Magnitudes

variable {m m' : Nat} {q q' : Int}

theorem mul_two_zpow_of_nonneg (hq : 0 ≤ q) : (m : ℚ) * 2 ^ q = (m * Nat.pow 2 q.toNat : Nat) := by
  rw [Nat.cast_mul, cast_two_pow, Int.toNat_of_nonneg hq]

theorem mul_two_zpow_of_neg (hq : ¬0 ≤ q) : (m : ℚ) * 2 ^ q = m / (Nat.pow 2 (-q).toNat : Nat) := by
  rw [cast_two_pow, Int.toNat_of_nonneg (by omega), zpow_neg, div_inv_eq_mul]

theorem cast_floorMagnitude (whole : wholeMagnitude m q = true) : (floorMagnitude m q : ℚ) = m * 2 ^ q := by
  by_cases hq : 0 ≤ q
  · rw [floorMagnitude, if_pos hq, mul_two_zpow_of_nonneg hq]
  · have hdvd : Nat.pow 2 (-q).toNat ∣ m := by
      refine Nat.dvd_of_mod_eq_zero ?_
      simpa [wholeMagnitude, hq] using whole
    rw [floorMagnitude, if_neg hq, mul_two_zpow_of_neg hq, Nat.cast_div hdvd (cast_two_pow_pos _).ne']

theorem wholeMagnitude_of_eq {n : Nat} (h : (n : ℚ) = m * 2 ^ q) : wholeMagnitude m q = true := by
  by_cases hq : 0 ≤ q
  · simp [wholeMagnitude, hq]
  · have hm : n * Nat.pow 2 (-q).toNat = m := by
      rw [mul_two_zpow_of_neg hq, eq_div_iff (cast_two_pow_pos _).ne'] at h
      exact_mod_cast h
    rw [wholeMagnitude, ← hm]
    simp

theorem Canonical.exponent_le (h : Canonical m q) (h' : Canonical m' q') (heq : (m : ℚ) * 2 ^ q = m' * 2 ^ q') :
    q' ≤ q := by
  by_contra hlt
  -- above the least exponent the significand has 53 bits, one more than the other has room for
  have hfull : Nat.pow 2 52 ≤ m' := h'.2.2.2.resolve_right (by have := h.2.1; omega)
  have hle : ((Nat.pow 2 53 : Nat) : ℚ) * 2 ^ q ≤ m * 2 ^ q := by
    calc ((Nat.pow 2 53 : Nat) : ℚ) * 2 ^ q = 2 ^ (53 + q) := cast_two_pow_mul 53 q
      _ ≤ 2 ^ (52 + q') := zpow_le_zpow_right₀ one_le_two (by omega)
      _ = (Nat.pow 2 52 : Nat) * 2 ^ q' := (cast_two_pow_mul 52 q').symm
      _ ≤ m' * 2 ^ q' := mul_le_mul_of_nonneg_right (Nat.cast_le.2 hfull) (two_zpow_pos q').le
      _ = m * 2 ^ q := heq.symm
  exact (Nat.cast_le.1 (le_of_mul_le_mul_right hle (two_zpow_pos q))).not_gt h.1

/-- A magnitude has one canonical writing. -/
theorem Canonical.unique (h : Canonical m q) (h' : Canonical m' q') (heq : (m : ℚ) * 2 ^ q = m' * 2 ^ q') :
    m = m' ∧ q = q' := by
  obtain rfl : q = q' := le_antisymm (h'.exponent_le h heq.symm) (h.exponent_le h' heq)
  exact ⟨Nat.cast_injective (mul_right_cancel₀ (two_zpow_pos q).ne' heq), rfl⟩

end Magnitudes

section Values

variable {x y : Binary64} {n : Int} {r : ℚ}

theorem exists_of_value? (h : x.value? = some r) :
    ∃ negative m q canonical, x = .finite negative m q canonical ∧ |r| = m * 2 ^ q := by
  cases x with
  | nan => exact nomatch h
  | infinity negative => exact nomatch h
  | finite negative m q canonical =>
    obtain rfl := Option.some.inj h
    refine ⟨negative, m, q, canonical, rfl, ?_⟩
    have hpos : (0 : ℚ) ≤ m * 2 ^ q := mul_nonneg (Nat.cast_nonneg m) (two_zpow_pos q).le
    cases negative with
    | true => rw [if_pos rfl, abs_neg, abs_of_nonneg hpos]
    | false => exact abs_of_nonneg hpos

theorem isFinite_of_value? (h : x.value? = some r) : x.isFinite = true := by
  obtain ⟨negative, m, q, canonical, rfl, -⟩ := exists_of_value? h
  rfl

theorem value?_of_isIntegral (h : x.isIntegral = true) : x.value? = some (x.toInt : ℚ) := by
  cases x with
  | nan => exact nomatch h
  | infinity negative => exact nomatch h
  | finite negative m q canonical =>
    rw [value?, ← cast_floorMagnitude h]
    cases negative <;> simp [toInt, isNegative, natAbs]

/-- **Integral numbers are those that stand for an integer.** -/
theorem value?_eq_some_intCast_iff : x.value? = some (n : ℚ) ↔ x.isIntegral = true ∧ x.toInt = n := by
  constructor
  · intro h
    obtain ⟨negative, m, q, canonical, rfl, habs⟩ := exists_of_value? h
    have hwhole : wholeMagnitude m q = true := by
      refine wholeMagnitude_of_eq (n := n.natAbs) ?_
      rw [← habs, Nat.cast_natAbs, Int.cast_abs]
    have hvalue := (value?_of_isIntegral (x := .finite negative m q canonical) hwhole).symm.trans h
    exact ⟨hwhole, Int.cast_injective (Option.some.inj hvalue)⟩
  · rintro ⟨hwhole, rfl⟩
    exact value?_of_isIntegral hwhole

/-- Numbers that stand for the same are equal: they differ in the sign of zero at most. -/
theorem ieeeEq_of_value? (hx : x.value? = some r) (hy : y.value? = some r) : x.ieeeEq y = true := by
  obtain ⟨negative, m, q, canonical, rfl, habs⟩ := exists_of_value? hx
  obtain ⟨negative', m', q', canonical', rfl, habs'⟩ := exists_of_value? hy
  obtain ⟨rfl, rfl⟩ := canonical.unique canonical' (habs.symm.trans habs')
  by_cases hsign : negative = negative'
  · subst hsign
    simp [ieeeEq]
  · -- a magnitude that is its own negative is zero
    have hopposite : (m : ℚ) * 2 ^ q = -(m * 2 ^ q) := by
      rw [value?, Option.some.injEq] at hx hy
      cases negative <;> cases negative' <;> simp_all
    have hm : m = 0 := by
      rcases mul_eq_zero.1 (self_eq_neg.1 hopposite) with hm | hq
      · exact Nat.cast_eq_zero.1 hm
      · exact absurd hq (two_zpow_pos q).ne'
    simp [ieeeEq, isZero, hm]

theorem natAbs_of_value? (h : x.value? = some (n : ℚ)) : x.natAbs = n.natAbs := by
  rw [← (value?_eq_some_intCast_iff.1 h).2, natAbs_toInt]

/-- In 64 bits nothing is rounded on an integer that is small enough. -/
theorem toInt64_of_value? (h : x.value? = some (n : ℚ)) (small : n.natAbs < 2 ^ 53) : x.toInt64.toInt = n := by
  rw [toInt_toInt64 (isFinite_of_value? h) ((natAbs_of_value? h).trans_lt small)]
  exact (value?_eq_some_intCast_iff.1 h).2

end Values

end Binary64

/-! ## Points and exponents -/

namespace Decimal

/-- Whole numbers that keep a point show it, or have an exponent. -/
theorem Layout.mem_chars {layout : Layout} (h : layout.keepsPoint = true) (d : Shortest) :
    '.' ∈ layout.chars d ∨ 'e' ∈ layout.chars d := by
  simp only [Layout.chars]
  split
  · left
    rw [h, positionalChars]
    split
    · simp
    · simp only
      split <;> simp
  · right
    simp [exponentChars]

theorem Layout.mem_numberChars {layout : Layout} (h : layout.keepsPoint = true) (negative : Bool) (m : Nat) (q : Int) :
    '.' ∈ layout.numberChars negative m q ∨ 'e' ∈ layout.numberChars negative m q := by
  simp only [Layout.numberChars, List.mem_append]
  exact (layout.mem_chars h _).imp Or.inr Or.inr

end Decimal

theorem Json.isDigit_of_mem_integer {n : Int} {c : Char} (h : c ∈ (Number.integer n).chars) :
    c = '-' ∨ c.isDigit = true := by
  rw [Numeral.chars_integer, List.mem_append] at h
  refine h.imp (fun hsign => ?_) Numeral.isDigit_of_mem_toDigits
  split at hsign
  · exact List.mem_singleton.1 hsign
  · exact nomatch hsign

/-! ## Texts -/

namespace Value

section Texts

variable {x y : Binary64} {n k : Int}

/-- Below `10^21` a number is written as the integer it stands for, with all digits. -/
theorem text_of_value? (h : x.value? = some (n : ℚ)) (small : n.natAbs < 10 ^ 21) : (number x).text = toString n := by
  obtain ⟨hwhole, rfl⟩ := Binary64.value?_eq_some_intCast_iff.1 h
  have hchars : x.chars = (toString x.toInt).toList :=
    Binary64.chars_of_integral hwhole ((Binary64.natAbs_of_value? h).trans_lt small)
  rw [text, chars, hchars, String.ofList_toList]

/-- Below `2^53` it is that integer in JSON, too. -/
theorem jsonText_of_value? (h : x.value? = some (n : ℚ)) (small : n.natAbs < 2 ^ 53) :
    (number x).jsonText = toString n := by
  obtain ⟨hwhole, hn⟩ := Binary64.value?_eq_some_intCast_iff.1 h
  have hsmall : x.natAbs < Nat.pow 2 53 := (Binary64.natAbs_of_value? h).trans_lt small
  have hjson := toJson_of_integral (Binary64.isFinite_of_value? h) ⟨hwhole, hsmall⟩
  rw [hn] at hjson
  rw [jsonText, toJson, hjson, Json.compact, Json.compactChars, Json.Number.chars, String.ofList_toList]

/-- From `2^53` on it is no integer in JSON. -/
theorem mem_jsonText_of_value? (h : x.value? = some (n : ℚ)) (large : 2 ^ 53 ≤ n.natAbs) :
    '.' ∈ (number x).jsonText.toList ∨ 'e' ∈ (number x).jsonText.toList := by
  have habs := Binary64.natAbs_of_value? h
  obtain ⟨negative, m, q, canonical, rfl, -⟩ := Binary64.exists_of_value? h
  have hjson : (Binary64.finite negative m q canonical).toJson = .number (.float (.finite negative m q canonical)) := by
    have hlarge : ¬(Binary64.finite negative m q canonical).natAbs < Nat.pow 2 53 := by
      rw [habs]
      exact Nat.not_lt.2 large
    simp [Binary64.toJson, Binary64.isFinite, hlarge]
  rw [jsonText, toJson, hjson, Json.compact, Json.compactChars, Json.Number.chars, String.toList_ofList]
  exact Json.floatLayout.mem_numberChars rfl negative m q

theorem jsonText_ne_toString (h : x.value? = some (n : ℚ)) (large : 2 ^ 53 ≤ n.natAbs) (k : Int) :
    (number x).jsonText ≠ toString k := by
  intro heq
  have hchars : (Json.Number.integer k).chars = (number x).jsonText.toList := heq ▸ rfl
  rcases mem_jsonText_of_value? h large with hmem | hmem
  all_goals exact absurd (Json.isDigit_of_mem_integer (hchars ▸ hmem)) (by decide)

/-- The text of an integral number below `10^21` says which number it is, up to the sign of zero. -/
theorem text_eq_text_iff (hx : x.value? = some (n : ℚ)) (hy : y.value? = some (k : ℚ)) (hn : n.natAbs < 10 ^ 21)
    (hk : k.natAbs < 10 ^ 21) : (number x).text = (number y).text ↔ x.ieeeEq y = true := by
  constructor
  · intro h
    rw [text_of_value? hx hn, text_of_value? hy hk, Int.toString_eq_repr, Int.toString_eq_repr, Int.repr_inj] at h
    exact Binary64.ieeeEq_of_value? hx (h ▸ hy)
  · intro h
    rw [text, text, chars, chars, Binary64.congr_of_ieeeEq Binary64.chars_withoutSignedZero h]

end Texts

/-- How a number that stands for an integer is written. -/
structure IntegralTexts (x : Binary64) (n : Int) : Prop where
  isIntegral : x.isIntegral = true ∧ x.toInt = n
  small : n.natAbs < 2 ^ 53 →
    (number x).text = toString n ∧ (number x).jsonText = toString n ∧ x.toInt64.toInt = n
  large : 2 ^ 53 ≤ n.natAbs → n.natAbs < 10 ^ 21 → (number x).text = toString n ∧
    ('.' ∈ (number x).jsonText.toList ∨ 'e' ∈ (number x).jsonText.toList) ∧ ∀ k : Int, (number x).jsonText ≠ toString k
  injective : n.natAbs < 10 ^ 21 → ∀ (y : Binary64) (k : Int), y.value? = some (k : ℚ) → k.natAbs < 10 ^ 21 →
    ((number x).text = (number y).text ↔ x.ieeeEq y = true)

/-- **Integral numbers are written exactly.** -/
theorem integral_texts (x : Binary64) (n : Int) (h : x.value? = some (n : ℚ)) : IntegralTexts x n where
  isIntegral := Binary64.value?_eq_some_intCast_iff.1 h
  small hn :=
    ⟨text_of_value? h (hn.trans (by decide)), jsonText_of_value? h hn, Binary64.toInt64_of_value? h hn⟩
  large hlarge hn := ⟨text_of_value? h hn, mem_jsonText_of_value? h hlarge, jsonText_ne_toString h hlarge⟩
  injective hn y k hy hk := text_eq_text_iff h hy hn hk

/-- A number of 21 digits, of which 17 would tell it from its neighbours, and the negative zero. -/
theorem integral_texts_large :
    let x : Binary64 := .finite true 7535204407491802 14 (by decide)
    (number x).text = "-123456789012345683968" ∧ (∀ k : Int, (number x).jsonText ≠ toString k) ∧
      (number (.zero true)).text = "0" ∧ (number (.zero true)).jsonText = "0" := by
  intro x
  have hx : x.value? = some ((-123456789012345683968 : Int) : ℚ) := by
    simp only [x, Binary64.value?, if_true]
    norm_num
  have hzero : (Binary64.zero true).value? = some ((0 : Int) : ℚ) := by
    simp [Binary64.value?, Binary64.zero]
  obtain ⟨htext, -, hjson⟩ := (integral_texts x _ hx).large (by decide) (by decide)
  obtain ⟨htext0, hjson0, -⟩ := (integral_texts _ _ hzero).small (by decide)
  exact ⟨htext, hjson, htext0, hjson0⟩

end Value

end CallContract
