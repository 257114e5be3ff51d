import CallContract.Proofs.Binary64
import Mathlib.Data.Int.Log
import Mathlib.Data.Rat.Floor
import Mathlib.Tactic.NormNum

/-!
# The range of rounding

A fraction that is no larger than the largest finite number rounds to a finite number (`isFinite_ofFraction`). The
proof reads the two integers of a rounding as a rational number: the exponent is its binary logarithm
(`binaryExponent_eq_log`), the rounded significand lies between the integers that the scaled fraction lies between,
and a carry into the 54th bit ends below the largest exponent since the largest number is a multiple of every unit
below it.
-/

namespace CallContract

/-! ## Rounding to an integer -/

section RoundDivEven

variable {num den n : Nat}

theorem roundDivEven_le (hden : 0 < den) (h : num ≤ den * n) : roundDivEven num den ≤ n := by
  have hdiv : num / den ≤ n := Nat.div_le_of_le_mul h
  simp only [roundDivEven]
  rcases Nat.lt_or_eq_of_le hdiv with hlt | heq
  · split <;> omega
  · have hmod : num % den = 0 := by
      have hsplit := Nat.div_add_mod num den
      rw [heq] at hsplit
      omega
    rw [hmod, heq, if_neg]
    simp [hden.ne]

theorem le_roundDivEven (hden : 0 < den) (h : den * n ≤ num) : n ≤ roundDivEven num den := by
  have hdiv : n ≤ num / den := (Nat.le_div_iff_mul_le hden).2 (by rwa [Nat.mul_comm])
  simp only [roundDivEven]
  split
  · exact Nat.le_succ_of_le hdiv
  · exact hdiv

end RoundDivEven

namespace Binary64

/-! ## Powers of two -/

section Scaling

variable {a b : Nat} {e : Int}

theorem cast_two_pow (k : Nat) : ((Nat.pow 2 k : Nat) : ℚ) = 2 ^ (k : Int) := by
  rw [Nat.pow_eq, Nat.cast_pow, Nat.cast_ofNat, zpow_natCast]

theorem two_zpow_eq (e : Int) : (2 : ℚ) ^ e = (Nat.pow 2 e.toNat : Nat) / (Nat.pow 2 (-e).toNat : Nat) := by
  have he : e = (e.toNat : Int) - ((-e).toNat : Int) := by omega
  conv_lhs => rw [he, zpow_sub₀ two_ne_zero]
  rw [cast_two_pow, cast_two_pow]

theorem two_zpow_pos (e : Int) : (0 : ℚ) < 2 ^ e :=
  zpow_pos two_pos e

theorem cast_two_pow_mul (k : Nat) (e : Int) : ((Nat.pow 2 k : Nat) : ℚ) * 2 ^ e = 2 ^ ((k : Int) + e) := by
  rw [cast_two_pow, zpow_add₀ two_ne_zero]

theorem cast_two_pow_pos (k : Nat) : (0 : ℚ) < (Nat.pow 2 k : Nat) :=
  Nat.cast_pos.2 (Nat.two_pow_pos k)

theorem mul_two_pow_le_iff : a * Nat.pow 2 e.toNat ≤ b * Nat.pow 2 (-e).toNat ↔ (a : ℚ) * 2 ^ e ≤ b := by
  rw [two_zpow_eq, mul_div_assoc', div_le_iff₀ (cast_two_pow_pos _)]
  exact_mod_cast Iff.rfl

theorem le_mul_two_pow_iff : a * Nat.pow 2 (-e).toNat ≤ b * Nat.pow 2 e.toNat ↔ (a : ℚ) ≤ b * 2 ^ e := by
  rw [two_zpow_eq, mul_div_assoc', le_div_iff₀ (cast_two_pow_pos _)]
  exact_mod_cast Iff.rfl

end Scaling

/-! ## The exponent -/

section Exponent

variable {num den : Nat}

theorem two_zpow_log2_le {n : Nat} (h : n ≠ 0) : (2 : ℚ) ^ (n.log2 : Int) ≤ n := by
  rw [zpow_natCast]
  exact_mod_cast Nat.log2_self_le h

theorem lt_two_zpow_log2_succ (n : Nat) : (n : ℚ) < 2 ^ ((n.log2 : Int) + 1) := by
  rw [← Nat.cast_succ, zpow_natCast]
  exact_mod_cast Nat.lt_log2_self

/-- The exponent of a fraction is its binary logarithm. -/
theorem binaryExponent_eq_log (hnum : num ≠ 0) (hden : den ≠ 0) :
    binaryExponent num den = Int.log 2 ((num : ℚ) / den) := by
  have hn : (0 : ℚ) < num := Nat.cast_pos.2 (Nat.pos_of_ne_zero hnum)
  have hd : (0 : ℚ) < den := Nat.cast_pos.2 (Nat.pos_of_ne_zero hden)
  have hx : (0 : ℚ) < num / den := div_pos hn hd
  obtain ⟨e, he⟩ : ∃ e : Int, e = (num.log2 : Int) - den.log2 := ⟨_, rfl⟩
  -- the estimate is the logarithm or one more
  have hupper : (num : ℚ) / den < 2 ^ (e + 1) := by
    rw [div_lt_iff₀ hd]
    calc (num : ℚ) < 2 ^ ((num.log2 : Int) + 1) := lt_two_zpow_log2_succ num
      _ = 2 ^ (e + 1) * 2 ^ (den.log2 : Int) := by rw [← zpow_add₀ two_ne_zero]; congr 1; omega
      _ ≤ 2 ^ (e + 1) * den := mul_le_mul_of_nonneg_left (two_zpow_log2_le hden) (two_zpow_pos _).le
  have hlower : (2 : ℚ) ^ (e - 1) ≤ num / den := by
    rw [le_div_iff₀ hd]
    calc (2 : ℚ) ^ (e - 1) * den ≤ 2 ^ (e - 1) * 2 ^ ((den.log2 : Int) + 1) :=
          mul_le_mul_of_nonneg_left (lt_two_zpow_log2_succ den).le (two_zpow_pos _).le
      _ = 2 ^ (num.log2 : Int) := by rw [← zpow_add₀ two_ne_zero]; congr 1; omega
      _ ≤ num := two_zpow_log2_le hnum
  have hlog : e - 1 ≤ Int.log 2 ((num : ℚ) / den) := (Int.zpow_le_iff_le_log Nat.one_lt_two hx).1 hlower
  have hlog' : Int.log 2 ((num : ℚ) / den) < e + 1 := (Int.lt_zpow_iff_log_lt Nat.one_lt_two hx).1 hupper
  have htest : den * Nat.pow 2 e.toNat ≤ num * Nat.pow 2 (-e).toNat ↔ e ≤ Int.log 2 ((num : ℚ) / den) := by
    rw [mul_two_pow_le_iff, ← Int.zpow_le_iff_le_log Nat.one_lt_two hx, le_div_iff₀ hd, mul_comm]
    rfl
  rw [binaryExponent, ← he]
  simp only [htest]
  split <;> omega

end Exponent

/-! ## The largest number -/

/-- The largest finite number. -/
def largest : Nat :=
  (Nat.pow 2 53 - 1) * Nat.pow 2 971

theorem largest_eq : (largest : ℚ) = (Nat.pow 2 53 - 1 : Nat) * 2 ^ (971 : Int) := by
  obtain ⟨k, hk⟩ : ∃ k : Nat, 971 = k := ⟨_, rfl⟩
  rw [largest, hk, Nat.cast_mul, cast_two_pow, ← hk, Nat.cast_ofNat]

theorem largest_lt : (largest : ℚ) < 2 ^ (1024 : Int) := by
  have h : ((Nat.pow 2 53 - 1 : Nat) : ℚ) < 2 ^ (53 : Int) := by norm_num
  calc (largest : ℚ) < 2 ^ (53 : Int) * 2 ^ (971 : Int) :=
        largest_eq ▸ mul_lt_mul_of_pos_right h (two_zpow_pos _)
    _ = 2 ^ (1024 : Int) := (zpow_add₀ two_ne_zero 53 971).symm

/-- A power of two above the exponents is larger than the largest number. -/
theorem lt_of_two_zpow_le_largest {e : Int} (h : (2 : ℚ) ^ e ≤ largest) : e < 1024 :=
  (zpow_lt_zpow_iff_right₀ one_lt_two).1 (h.trans_lt largest_lt)

/-- The largest number is a multiple of every unit. -/
theorem exists_largest_eq {q : Int} (h : q ≤ 971) : ∃ n : Nat, (largest : ℚ) = n * 2 ^ q := by
  obtain ⟨k, hk⟩ : ∃ k : Nat, (971 : Int) = k + q := ⟨(971 - q).toNat, by omega⟩
  refine ⟨(Nat.pow 2 53 - 1) * Nat.pow 2 k, ?_⟩
  rw [largest_eq, Nat.cast_mul, mul_assoc, cast_two_pow_mul, hk]

/-! ## Rounding -/

/-- A number in the range is finite, also after a carry. -/
theorem exists_ofScaled {m : Nat} {q : Int} (negative : Bool) (hm : m ≤ Nat.pow 2 53) (hq : -1074 ≤ q)
    (hfull : Nat.pow 2 52 ≤ m ∨ q = -1074) (hle : (m : ℚ) * 2 ^ q ≤ largest) :
    ∃ m' q' canonical, ofScaled negative m q = .finite negative m' q' canonical ∧ (m' : ℚ) * 2 ^ q' = m * 2 ^ q := by
  -- a significand of so many bits leaves room for so large an exponent
  have hroom : ∀ k : Nat, Nat.pow 2 k ≤ m → (k : Int) + q < 1024 := by
    intro k hk
    refine lt_of_two_zpow_le_largest (le_trans ?_ hle)
    rw [← cast_two_pow_mul]
    exact mul_le_mul_of_nonneg_right (Nat.cast_le.2 hk) (two_zpow_pos q).le
  rcases Nat.lt_or_eq_of_le hm with hlt | rfl
  · have hq971 : q ≤ 971 := by
      rcases hfull with h52 | rfl
      · have := hroom 52 h52
        omega
      · decide
    have canonical : Canonical m q := ⟨hlt, hq, hq971, hfull⟩
    exact ⟨m, q, canonical, ofScaled_of_canonical negative canonical, rfl⟩
  · have hq971 := hroom 53 (Nat.le_refl _)
    have canonical : Canonical (Nat.pow 2 52) (q + 1) := ⟨by decide, by omega, by omega, Or.inl (Nat.le_refl _)⟩
    refine ⟨_, _, canonical, ?_, ?_⟩
    · rw [ofScaled, if_neg (Nat.lt_irrefl _)]
      exact dif_pos canonical
    · have hcarry : ((52 : Nat) : Int) + (q + 1) = (53 : Nat) + q := by omega
      rw [cast_two_pow_mul, cast_two_pow_mul, hcarry]

section Fraction

variable {num den n : Nat} {p q : Int}

/-- The significand of a fraction in units of `2^q`. -/
def roundAt (num den : Nat) (q : Int) : Nat :=
  roundDivEven (num * Nat.pow 2 (-q).toNat) (den * Nat.pow 2 q.toNat)

theorem roundAt_le (hden : den ≠ 0) (h : (num : ℚ) ≤ den * (n * 2 ^ q)) : roundAt num den q ≤ n := by
  refine roundDivEven_le (Nat.mul_pos (Nat.pos_of_ne_zero hden) (Nat.two_pow_pos _)) ?_
  rw [Nat.mul_right_comm, le_mul_two_pow_iff, Nat.cast_mul, mul_assoc]
  exact h

theorem le_roundAt (hden : den ≠ 0) (h : den * (n * 2 ^ q) ≤ (num : ℚ)) : n ≤ roundAt num den q := by
  refine le_roundDivEven (Nat.mul_pos (Nat.pos_of_ne_zero hden) (Nat.two_pow_pos _)) ?_
  rw [Nat.mul_right_comm, mul_two_pow_le_iff, Nat.cast_mul, mul_assoc]
  exact h

/-- A significand has 53 bits, or is the carry into the 54th. -/
theorem roundAt_le_two_pow (hden : den ≠ 0) (h : (num : ℚ) ≤ den * 2 ^ (p + 1)) (hp : p ≤ q + 52) :
    roundAt num den q ≤ Nat.pow 2 53 := by
  refine roundAt_le hden (h.trans (mul_le_mul_of_nonneg_left ?_ (Nat.cast_nonneg den)))
  rw [cast_two_pow_mul]
  exact zpow_le_zpow_right₀ one_le_two (by omega)

/-- Above the least exponent it has no fewer. -/
theorem two_pow_le_roundAt (hden : den ≠ 0) (h : den * (2 : ℚ) ^ p ≤ num) (hp : p = q + 52) :
    Nat.pow 2 52 ≤ roundAt num den q := by
  have hp52 : ((52 : Nat) : Int) + q = p := by omega
  refine le_roundAt hden ?_
  rwa [cast_two_pow_mul, hp52]

theorem roundAt_mul_le_largest (hden : den ≠ 0) (h : (num : ℚ) ≤ den * largest) (hq : q ≤ 971) :
    (roundAt num den q : ℚ) * 2 ^ q ≤ largest := by
  obtain ⟨n, hn⟩ := exists_largest_eq hq
  rw [hn] at h ⊢
  exact mul_le_mul_of_nonneg_right (Nat.cast_le.2 (roundAt_le hden h)) (two_zpow_pos q).le

theorem log_bounds (hnum : num ≠ 0) (hden : den ≠ 0) : ∃ p, binaryExponent num den = p ∧
    den * (2 : ℚ) ^ p ≤ num ∧ (num : ℚ) < den * 2 ^ (p + 1) := by
  have hd : (0 : ℚ) < den := Nat.cast_pos.2 (Nat.pos_of_ne_zero hden)
  have hx : (0 : ℚ) < num / den := div_pos (Nat.cast_pos.2 (Nat.pos_of_ne_zero hnum)) hd
  refine ⟨_, binaryExponent_eq_log hnum hden, ?_, ?_⟩
  · rw [mul_comm, ← le_div_iff₀ hd]
    exact Int.zpow_log_le_self Nat.one_lt_two hx
  · rw [mul_comm, ← div_lt_iff₀ hd]
    exact Int.lt_zpow_succ_log_self Nat.one_lt_two _

/-- A fraction that is no larger than the largest finite number rounds to a finite number, and one that is no less than
one to a number no less than one. -/
theorem exists_ofFraction (negative : Bool) (hnum : num ≠ 0) (hden : den ≠ 0) (h : num ≤ den * largest) :
    ∃ m q canonical, ofFraction negative num den = .finite negative m q canonical ∧
      (den ≤ num → (1 : ℚ) ≤ m * 2 ^ q) := by
  have hd : (0 : ℚ) < den := Nat.cast_pos.2 (Nat.pos_of_ne_zero hden)
  have hlargest : (num : ℚ) ≤ den * largest := by exact_mod_cast h
  obtain ⟨p, hp, hlower, hupper⟩ := log_bounds hnum hden
  have hp1024 : p < 1024 := lt_of_two_zpow_le_largest (le_of_mul_le_mul_left (hlower.trans hlargest) hd)
  obtain ⟨q, hq⟩ : ∃ q, q = max (p - 52) (-1074) := ⟨_, rfl⟩
  have hround : ofFraction negative num den = ofScaled negative (roundAt num den q) q := by
    rw [ofFraction, if_neg hnum, hp, ← hq]
    rfl
  have hfull : Nat.pow 2 52 ≤ roundAt num den q ∨ q = -1074 := by
    rcases (by omega : p = q + 52 ∨ q = -1074) with hp52 | hleast
    · exact Or.inl (two_pow_le_roundAt hden hlower hp52)
    · exact Or.inr hleast
  obtain ⟨m', q', canonical, hscaled, hmagnitude⟩ := exists_ofScaled negative
    (roundAt_le_two_pow hden hupper.le (by omega)) (by omega) hfull (roundAt_mul_le_largest hden hlargest (by omega))
  refine ⟨m', q', canonical, hround.trans hscaled, fun hone => ?_⟩
  have hp0 : 0 < p + 1 := by
    refine (zpow_lt_zpow_iff_right₀ (one_lt_two (α := ℚ))).1 (lt_of_mul_lt_mul_left ?_ hd.le)
    rw [zpow_zero, mul_one]
    exact (Nat.cast_le.2 hone).trans_lt hupper
  have hp52 : ((52 : Nat) : Int) + q = p := by omega
  calc (1 : ℚ) ≤ 2 ^ p := one_le_zpow₀ one_le_two (by omega)
    _ = (Nat.pow 2 52 : Nat) * 2 ^ q := by rw [cast_two_pow_mul, hp52]
    _ ≤ roundAt num den q * 2 ^ q :=
      mul_le_mul_of_nonneg_right (Nat.cast_le.2 (two_pow_le_roundAt hden hlower (by omega))) (two_zpow_pos q).le
    _ = m' * 2 ^ q' := hmagnitude.symm

end Fraction

/-! ## Finite results -/

section Finite

variable {num den n : Nat} {x : Binary64}

theorem isFinite_ofFraction (negative : Bool) (hden : den ≠ 0) (h : num ≤ den * largest) :
    (ofFraction negative num den).isFinite = true := by
  by_cases hnum : num = 0
  · rw [ofFraction, if_pos hnum]
    rfl
  · obtain ⟨m, q, canonical, hround, -⟩ := exists_ofFraction negative hnum hden h
    rw [hround]
    rfl

theorem isFinite_neg (x : Binary64) : x.neg.isFinite = x.isFinite := by
  cases x <;> rfl

/-- An integer of 64 bits rounds to a finite number. -/
theorem isFinite_ofInt {n : Int} (h : n.natAbs ≤ Nat.pow 2 64) : (ofInt n).isFinite = true := by
  have hle : Nat.pow 2 64 ≤ 1 * largest := by decide +kernel
  exact isFinite_ofFraction _ Nat.one_ne_zero (h.trans hle)

/-! A finite number as a fraction. -/

theorem fraction_snd_pos (m : Nat) (q : Int) : 0 < (fraction m q).2 :=
  Nat.two_pow_pos _

theorem fraction_le_largest {m : Nat} {q : Int} (canonical : Canonical m q) :
    (fraction m q).1 ≤ (fraction m q).2 * largest := by
  have hm : (m : ℚ) ≤ (Nat.pow 2 53 - 1 : Nat) := Nat.cast_le.2 (Nat.le_sub_one_of_lt canonical.1)
  have hq : (2 : ℚ) ^ q ≤ 2 ^ (971 : Int) := zpow_le_zpow_right₀ one_le_two canonical.2.2.1
  rw [fraction, Nat.mul_comm _ largest, mul_two_pow_le_iff, largest_eq]
  exact mul_le_mul hm hq (two_zpow_pos q).le (Nat.cast_nonneg _)

theorem fraction_snd_le {m : Nat} {q : Int} (h : (1 : ℚ) ≤ m * 2 ^ q) : (fraction m q).2 ≤ (fraction m q).1 := by
  have hle : 1 * Nat.pow 2 (-q).toNat ≤ m * Nat.pow 2 q.toNat := le_mul_two_pow_iff.2 (Nat.cast_one.trans_le h)
  rwa [Nat.one_mul] at hle

/-- A power of ten in the range is a finite number that is no less than one. -/
theorem exists_ofFraction_ten_pow (h : n ≤ 308) : ∃ m q canonical,
    ofFraction false (Nat.pow 10 n) 1 = .finite false m q canonical ∧ (1 : ℚ) ≤ m * 2 ^ q := by
  have hpos : 0 < Nat.pow 10 n := Nat.pow_pos (by decide)
  have hle : ∀ k ≤ 308, Nat.pow 10 k ≤ 1 * largest := by decide +kernel
  obtain ⟨m, q, canonical, hround, hone⟩ := exists_ofFraction false hpos.ne' Nat.one_ne_zero (hle n h)
  exact ⟨m, q, canonical, hround, hone hpos⟩

/-- Dividing by a power of ten does not lead out of the range. -/
theorem isFinite_divPos (hx : x.isFinite = true) (h : n ≤ 308) :
    (x.divPos (ofFraction false (Nat.pow 10 n) 1)).isFinite = true := by
  obtain ⟨m', q', canonical', hpower, hone⟩ := exists_ofFraction_ten_pow h
  have hone' := fraction_snd_le hone
  rw [hpower]
  cases x with
  | nan => exact nomatch hx
  | infinity negative => exact nomatch hx
  | finite negative m q canonical =>
    refine isFinite_ofFraction negative (Nat.mul_ne_zero (fraction_snd_pos m q).ne' ?_) ?_
    · exact ((fraction_snd_pos m' q').trans_le hone').ne'
    · calc (fraction m q).1 * (fraction m' q').2
        _ ≤ (fraction m q).2 * largest * (fraction m' q').1 := Nat.mul_le_mul (fraction_le_largest canonical) hone'
        _ = (fraction m q).2 * (fraction m' q').1 * largest := Nat.mul_right_comm _ _ _

end Finite

end Binary64

end CallContract
