import CallContract.Binary64.Rounding

/-!
# Integers as binary64 numbers

An integral number below `2^53` is an integer whose binary digits, filled up to 53, are the significand
(`exists_shift`). Rounding that integer gives the number back, up to the sign of zero (`ofInt_toInt`), and every
integer below `2^53` is kept by rounding (`toInt_ofInt`).
-/

namespace CallContract.Binary64

/-! ## Zero -/

theorem floorMagnitude_zero (q : Int) : floorMagnitude 0 q = 0 := by
  rw [floorMagnitude, Nat.zero_mul, Nat.zero_div, ite_self]

theorem wholeMagnitude_zero (q : Int) : wholeMagnitude 0 q = true := by
  rw [wholeMagnitude, Nat.zero_mod]
  simp

@[simp] theorem isIntegral_zero (negative : Bool) : (zero negative).isIntegral = true :=
  wholeMagnitude_zero _

@[simp] theorem natAbs_zero (negative : Bool) : (zero negative).natAbs = 0 :=
  floorMagnitude_zero _

@[simp] theorem toInt_zero (negative : Bool) : (zero negative).toInt = 0 := by
  simp [toInt]

/-- The number, the negative zero replaced by the other one. -/
def withoutSignedZero (x : Binary64) : Binary64 :=
  if x.isZero then zero false else x

theorem withoutSignedZero_of_ne {x : Binary64} (h : x ≠ zero true) : x.withoutSignedZero = x := by
  rw [withoutSignedZero]
  split
  case isFalse => rfl
  case isTrue hz =>
    obtain ⟨negative, rfl⟩ := exists_eq_zero hz
    cases negative
    · rfl
    · exact absurd rfl h

/-! ## Magnitudes -/

theorem roundDivEven_one (n : Nat) : roundDivEven n 1 = n := by
  simp [roundDivEven, Nat.mod_one]

theorem binaryExponent_one {n : Nat} (h : n ≠ 0) : binaryExponent n 1 = n.log2 := by
  have h1 : (n.log2 : Int) - (Nat.log2 1 : Int) = n.log2 := by
    rw [show Nat.log2 1 = 0 by decide]
    omega
  have h2 : 2 ^ n.log2 ≤ n := Nat.log2_self_le h
  simp only [binaryExponent, h1, Int.toNat_natCast, Nat.one_mul]
  exact if_pos (Nat.le_trans h2 (Nat.le_mul_of_pos_right n (Nat.two_pow_pos _)))

/-- A number whose digits fill 53 places after `k` zeros are added has `53 - k` digits. -/
theorem log2_eq_of_shift {n k : Nat} (hk : k ≤ 52) (lower : Nat.pow 2 52 ≤ n * Nat.pow 2 k)
    (upper : n * Nat.pow 2 k < Nat.pow 2 53) : n.log2 = 52 - k := by
  have h52 : Nat.pow 2 52 = Nat.pow 2 (52 - k) * Nat.pow 2 k := (Nat.pow_sub_mul_pow 2 hk).symm
  have h53 : Nat.pow 2 53 = Nat.pow 2 (52 - k + 1) * Nat.pow 2 k := by
    rw [show 52 - k + 1 = 53 - k by omega]
    exact (Nat.pow_sub_mul_pow 2 (by omega)).symm
  rw [h52] at lower
  rw [h53] at upper
  have hn : Nat.pow 2 (52 - k) ≤ n := Nat.le_of_mul_le_mul_right lower (Nat.two_pow_pos k)
  have hn0 : n ≠ 0 := Nat.ne_of_gt (Nat.lt_of_lt_of_le (Nat.two_pow_pos _) hn)
  exact (Nat.log2_eq_iff hn0).2 ⟨hn, Nat.lt_of_mul_lt_mul_right upper⟩

theorem ofScaled_of_canonical {m : Nat} {q : Int} (negative : Bool) (canonical : Canonical m q) :
    ofScaled negative m q = .finite negative m q canonical := by
  rw [ofScaled, if_pos canonical.1]
  exact dif_pos canonical

/-- A whole magnitude below `2^53` is an integer shifted to the left until its 53 binary digits are full. -/
theorem exists_shift {m : Nat} {q : Int} (canonical : Canonical m q) (positive : m ≠ 0)
    (whole : wholeMagnitude m q = true) (small : floorMagnitude m q < Nat.pow 2 53) :
    ∃ k : Nat, k ≤ 52 ∧ q = -(k : Int) ∧ m = floorMagnitude m q * Nat.pow 2 k ∧ Nat.pow 2 52 ≤ m := by
  obtain ⟨h53, -, -, hfull⟩ := canonical
  by_cases hq : 0 ≤ q
  · have hm : Nat.pow 2 52 ≤ m := hfull.resolve_right (by omega)
    rw [floorMagnitude, if_pos hq] at small ⊢
    -- one more factor of two would lead out of the range
    have hq0 : q.toNat = 0 := by
      refine Nat.eq_zero_of_not_pos fun hpos => ?_
      have h2 : 2 ^ 1 ≤ Nat.pow 2 q.toNat := Nat.pow_le_pow_right (by decide) hpos
      have h3 : m * 2 ^ 1 ≤ m * Nat.pow 2 q.toNat := Nat.mul_le_mul_left m h2
      have h4 : Nat.pow 2 53 = Nat.pow 2 52 * 2 := rfl
      omega
    refine ⟨0, by omega, by omega, ?_, hm⟩
    rw [hq0]
    simp
  · obtain ⟨k, rfl⟩ : ∃ k : Nat, q = -(k : Int) := ⟨q.natAbs, by omega⟩
    have hk : (- -(k : Int)).toNat = k := by omega
    have hdvd : Nat.pow 2 k ∣ m := by
      rw [wholeMagnitude, hk] at whole
      simp only [hq, decide_false, Bool.false_or, beq_iff_eq] at whole
      exact Nat.dvd_of_mod_eq_zero whole
    have hk52 : k < 53 :=
      (Nat.pow_lt_pow_iff_right (by decide)).1 (Nat.lt_of_le_of_lt (Nat.le_of_dvd (by omega) hdvd) h53)
    rw [floorMagnitude, if_neg hq, hk]
    exact ⟨k, by omega, rfl, (Nat.div_mul_cancel hdvd).symm, hfull.resolve_right (by omega)⟩

/-- The integer of a whole magnitude below `2^53` rounds to that magnitude. -/
theorem ofFraction_floorMagnitude {m : Nat} {q : Int} (negative : Bool) (canonical : Canonical m q) (positive : m ≠ 0)
    (whole : wholeMagnitude m q = true) (small : floorMagnitude m q < Nat.pow 2 53) :
    ofFraction negative (floorMagnitude m q) 1 = .finite negative m q canonical := by
  obtain ⟨k, hk, rfl, hm, h52⟩ := exists_shift canonical positive whole small
  generalize hn : floorMagnitude m (-(k : Int)) = n at hm
  have hn0 : n ≠ 0 := by
    rintro rfl
    simp at hm
    exact positive hm
  have hlog : n.log2 = 52 - k := by
    rw [hm] at h52
    exact log2_eq_of_shift hk h52 (hm ▸ canonical.1)
  have hq : max (binaryExponent n 1 - 52) (-1074) = -(k : Int) := by
    rw [binaryExponent_one hn0]
    omega
  have hk1 : (- -(k : Int)).toNat = k := by omega
  have hk2 : (-(k : Int)).toNat = 0 := by omega
  have hr : roundDivEven (n * Nat.pow 2 k) (1 * Nat.pow 2 0) = m := hm ▸ roundDivEven_one _
  rw [ofFraction, if_neg hn0, hq]
  simp only [hk1, hk2, hr]
  exact ofScaled_of_canonical negative canonical

/-- A magnitude below `2^53`, filled up to 53 binary digits, is a canonical writing of itself. -/
theorem exists_canonical {n : Nat} (hn : n ≠ 0) (small : n < Nat.pow 2 53) :
    ∃ m q, Canonical m q ∧ m ≠ 0 ∧ wholeMagnitude m q = true ∧ floorMagnitude m q = n := by
  have hlog : n.log2 ≤ 52 := Nat.le_of_lt_succ ((Nat.log2_lt hn).2 small)
  obtain ⟨k, hk⟩ : ∃ k, 52 = n.log2 + k := ⟨52 - n.log2, by omega⟩
  have h2k : 0 < Nat.pow 2 k := Nat.two_pow_pos k
  have hlower : Nat.pow 2 52 ≤ n * Nat.pow 2 k := by
    rw [hk]
    exact Nat.le_trans (Nat.le_of_eq (Nat.pow_add 2 n.log2 k)) (Nat.mul_le_mul_right _ (Nat.log2_self_le hn))
  have hupper : n * Nat.pow 2 k < Nat.pow 2 53 := by
    rw [show 53 = n.log2 + 1 + k by omega]
    exact Nat.lt_of_lt_of_eq (Nat.mul_lt_mul_of_pos_right Nat.lt_log2_self h2k) (Nat.pow_add 2 (n.log2 + 1) k).symm
  have hk1 : (- -(k : Int)).toNat = k := by omega
  refine ⟨n * Nat.pow 2 k, -(k : Int), ⟨hupper, by omega, by omega, Or.inl hlower⟩, ?_, ?_, ?_⟩
  · exact Nat.mul_ne_zero hn (Nat.ne_of_gt h2k)
  · simp [wholeMagnitude]
  · rw [floorMagnitude]
    split
    case isTrue hk0 =>
      obtain rfl : k = 0 := by omega
      simp
    case isFalse =>
      rw [hk1]
      exact Nat.mul_div_cancel n h2k

/-! ## Numbers -/

theorem toInt_eq_natAbs {x : Binary64} (h : 0 ≤ x.toInt) : x.toInt = x.natAbs := by
  by_cases hneg : x.isNegative = true
  · simp only [toInt, hneg, if_true] at h ⊢
    omega
  · simp only [toInt, hneg, Bool.false_eq_true, if_false]

theorem natAbs_toInt (x : Binary64) : x.toInt.natAbs = x.natAbs := by
  rw [toInt]
  split <;> simp

/-- **The cast to 64 bits is exact** below `2^53`. -/
theorem toInt_toInt64 {x : Binary64} (finite : x.isFinite = true) (small : x.natAbs < Nat.pow 2 53) :
    x.toInt64.toInt = x.toInt := by
  have habs := x.natAbs_toInt
  have h53 : Nat.pow 2 53 = 2 ^ 53 := rfl
  have hmin : Int64.minValue.toInt = -2 ^ 63 := by decide
  have hmax : Int64.maxValue.toInt = 2 ^ 63 - 1 := by decide
  have hlower : Int64.minValue.toInt ≤ x.toInt := by omega
  have hupper : x.toInt ≤ Int64.maxValue.toInt := by omega
  cases x with
  | nan => exact nomatch finite
  | infinity negative => exact nomatch finite
  | finite negative m q canonical => exact Int64.toInt_ofIntClamp hlower hupper

/-- An integer below `2^53` rounds to itself. -/
theorem toInt_ofInt {n : Int} (small : n.natAbs < Nat.pow 2 53) :
    (ofInt n).isIntegral = true ∧ (ofInt n).toInt = n := by
  by_cases hn : n.natAbs = 0
  · obtain rfl : n = 0 := Int.natAbs_eq_zero.1 hn
    exact ⟨isIntegral_zero false, toInt_zero false⟩
  · obtain ⟨m, q, canonical, positive, whole, hfloor⟩ := exists_canonical hn small
    have hround : ofInt n = .finite (decide (n < 0)) m q canonical := by
      have hfraction := ofFraction_floorMagnitude (decide (n < 0)) canonical positive whole (hfloor ▸ small)
      rw [hfloor] at hfraction
      exact hfraction
    rw [hround]
    refine ⟨whole, ?_⟩
    have hsign : (if n < 0 then -(n.natAbs : Int) else n.natAbs) = n := by omega
    simpa only [toInt, isNegative, natAbs, hfloor, decide_eq_true_eq] using hsign

/-- The integer that a number is rounds to the number. -/
theorem ofInt_toInt {x : Binary64} (whole : x.isIntegral = true) (small : x.natAbs < Nat.pow 2 53) :
    ofInt x.toInt = x.withoutSignedZero := by
  rw [withoutSignedZero]
  split
  case isTrue hz =>
    obtain ⟨negative, rfl⟩ := exists_eq_zero hz
    rw [toInt_zero]
    rfl
  case isFalse hz =>
    cases x with
    | nan => exact nomatch whole
    | infinity negative => exact nomatch whole
    | finite negative m q canonical =>
      have hm : m ≠ 0 := by simpa [isZero] using hz
      obtain ⟨k, -, -, hk, -⟩ := exists_shift canonical hm whole small
      have hn : floorMagnitude m q ≠ 0 := by
        intro h0
        rw [h0, Nat.zero_mul] at hk
        exact hm hk
      have hsign : decide ((finite negative m q canonical).toInt < 0) = negative := by
        cases negative
        · simp [toInt, isNegative, natAbs]
        · simp [toInt, isNegative, natAbs]
          omega
      have habs : (finite negative m q canonical).toInt.natAbs = floorMagnitude m q := by
        cases negative <;> simp [toInt, isNegative, natAbs]
      rw [ofInt, hsign, habs]
      exact ofFraction_floorMagnitude negative canonical hm whole small

end CallContract.Binary64
