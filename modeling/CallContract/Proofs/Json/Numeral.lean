import CallContract.Json.Numeral
import CallContract.Json.Printer
import Mathlib.Data.List.TakeWhile

/-!
# Numerals of integers

An integer is printed as a numeral without fraction and exponent (`Numeral.ofChars?_integer`), and one that fits 64
bits is what its numeral stands for (`Numeral.value?_ofInt`).
-/

namespace CallContract.Json.Numeral

/-! ## Decimal digits -/

/-- The decimal digits of a number, as numbers. -/
def digits (n : Nat) : List Nat :=
  (Nat.toDigits 10 n).map Text.decimalDigit

theorem isDigit_of_mem_toDigits {n : Nat} {c : Char} (h : c ∈ Nat.toDigits 10 n) : c.isDigit = true :=
  Nat.isDigit_of_mem_toDigits (by decide) (by decide) h

/-- Only zero starts with the digit zero. -/
theorem exists_toDigits_eq_cons {n : Nat} (h : 0 < n) : ∃ d ds, Nat.toDigits 10 n = d :: ds ∧ d ≠ '0' := by
  induction n using Nat.strongRecOn with
  | _ n ih =>
    rw [Nat.toDigits_eq_if (by decide)]
    split
    · exact ⟨_, [], rfl, fun hd => by rw [Nat.digitChar_eq_zero] at hd; omega⟩
    · obtain ⟨d, ds, hds, hd⟩ := ih (n / 10) (by omega) (by omega)
      rw [hds]
      exact ⟨d, _, rfl, hd⟩

theorem decimalDigit_eq_zero {c : Char} (hc : c.isDigit = true) (h : Text.decimalDigit c = 0) : c = '0' := by
  have h1 : '0'.toNat ≤ c.toNat := by
    simp only [Char.isDigit, Bool.and_eq_true, decide_eq_true_eq] at hc
    exact hc.1
  have h2 : c.toNat ≤ '0'.toNat := Nat.sub_eq_zero_iff_le.1 h
  exact Char.toNat_inj.1 (by omega)

theorem digitsValue_digits (n : Nat) : digitsValue (digits n) = n := by
  have h := Nat.ofDigitChars_ten_toDigits (n := n)
  rw [Nat.ofDigitChars_eq_foldl] at h
  rw [digitsValue, digits, List.foldl_map]
  exact h

/-! ## Grammar -/

/-- Digits, one at least. -/
def IsDigits (ds : List Char) : Prop :=
  ds ≠ [] ∧ ∀ c ∈ ds, c.isDigit = true

/-- Digits that start with a zero only if there is nothing else. -/
structure IsWhole (ds : List Char) : Prop where
  digits : IsDigits ds
  noZero : ds = ['0'] ∨ ds.head? ≠ some '0'

theorem isDigits_toDigits (n : Nat) : IsDigits (Nat.toDigits 10 n) :=
  ⟨Nat.toDigits_ne_nil, fun _ => isDigit_of_mem_toDigits⟩

theorem head?_toDigits {n : Nat} (h : 0 < n) : (Nat.toDigits 10 n).head? ≠ some '0' := by
  obtain ⟨c, cs, hc, hne⟩ := exists_toDigits_eq_cons h
  rw [hc]
  exact fun hhead => hne (Option.some.inj hhead)

theorem isWhole_toDigits (n : Nat) : IsWhole (Nat.toDigits 10 n) := by
  refine ⟨isDigits_toDigits n, ?_⟩
  rcases Nat.eq_zero_or_pos n with rfl | hn
  · exact .inl rfl
  · exact .inr (head?_toDigits hn)

section Runs

variable {ds rest : List Char}

/-- A run of digits goes as far as no digit follows. -/
theorem takeDigits_append (h : ∀ c ∈ ds, c.isDigit = true) (hrest : ∀ c, rest.head? = some c → c.isDigit = false) :
    takeDigits (ds ++ rest) = (ds.map Text.decimalDigit, rest) := by
  have hstop : rest.takeWhile Char.isDigit = [] ∧ rest.dropWhile Char.isDigit = rest := by
    cases rest with
    | nil => exact ⟨rfl, rfl⟩
    | cons c cs =>
      have hc : ¬c.isDigit = true := by simp [hrest c rfl]
      exact ⟨List.takeWhile_cons_of_neg hc, List.dropWhile_cons_of_neg hc⟩
  rw [takeDigits, List.takeWhile_append_of_pos h, List.dropWhile_append_of_pos h, hstop.1, hstop.2, List.append_nil]

theorem takeDigits1?_append (h : IsDigits ds) (hrest : ∀ c, rest.head? = some c → c.isDigit = false) :
    takeDigits1? (ds ++ rest) = some (ds.map Text.decimalDigit, rest) := by
  obtain ⟨c, cs, rfl⟩ := List.exists_cons_of_ne_nil h.1
  rw [takeDigits1?, takeDigits_append h.2 hrest]
  rfl

theorem takeWhole?_append (h : IsWhole ds) (hrest : ∀ c, rest.head? = some c → c.isDigit = false) :
    takeWhole? (ds ++ rest) = some (ds.map Text.decimalDigit, rest) := by
  rw [takeWhole?, takeDigits1?_append h.digits hrest]
  rcases h.noZero with rfl | hzero
  · rfl
  · obtain ⟨c, cs, rfl⟩ := List.exists_cons_of_ne_nil h.digits.1
    have hc : Text.decimalDigit c ≠ 0 := by
      intro hc
      exact hzero (congrArg some (decimalDigit_eq_zero (h.digits.2 c List.mem_cons_self) hc))
    rw [List.map_cons]
    split
    · simp_all
    · rfl

end Runs

/-- The digits of a number up to the end of the text are its whole part: no zero stands in front of another digit. -/
theorem takeWhole?_toDigits (n : Nat) : takeWhole? (Nat.toDigits 10 n) = some (digits n, []) := by
  have h : takeWhole? (Nat.toDigits 10 n ++ []) = some (digits n, []) := takeWhole?_append (isWhole_toDigits n) nofun
  rwa [List.append_nil] at h

/-- The numeral of an integer. -/
def ofInt (n : Int) : Numeral where
  negative := decide (n < 0)
  whole := digits n.natAbs
  fraction := none
  exponent := none

/-- An integer is printed as its digits behind a minus where it is negative. -/
theorem chars_integer (n : Int) :
    (Number.integer n).chars = (if n < 0 then ['-'] else []) ++ Nat.toDigits 10 n.natAbs := by
  show (toString n).toList = _
  rw [Int.toString_eq_repr, Int.repr_eq_if]
  split
  case isTrue hn =>
    have h0 : n.toNat = n.natAbs := by omega
    rw [if_neg (by omega), h0, Nat.repr_eq_ofList_toDigits]
    simp
  case isFalse hn =>
    have h0 : (-n).toNat = n.natAbs := by omega
    rw [if_pos (by omega), h0, Nat.repr_eq_ofList_toDigits]
    simp

theorem ofChars?_integer (n : Int) : ofChars? (Number.integer n).chars = some (ofInt n) := by
  rw [chars_integer]
  split
  case isTrue hn =>
    simp only [List.cons_append, List.nil_append]
    rw [ofChars?]
    simp [takeWhole?_toDigits, takeFraction?, takeExponent?, ofInt, hn]
  case isFalse hn =>
    obtain ⟨c, cs, hc⟩ := List.exists_cons_of_ne_nil (Nat.toDigits_ne_nil (b := 10) (n := n.natAbs))
    have hm : c ≠ '-' := by
      rintro rfl
      exact absurd (isDigit_of_mem_toDigits (hc ▸ List.mem_cons_self)) (by decide)
    rw [List.nil_append, ofChars?]
    · simp [takeWhole?_toDigits, takeFraction?, takeExponent?, ofInt, hn]
    · simp [hc, hm]

/-! ## Value -/

theorem le_foldl_digits (digits : List Nat) (s : Nat) : s ≤ digits.foldl (10 * · + ·) s := by
  induction digits generalizing s with
  | nil => exact Nat.le_refl s
  | cons d ds ih => exact Nat.le_trans (by omega) (ih (10 * s + d))

/-- Digits of a number below `2^64` all find room in the significand. -/
theorem absorb_of_lt {digits : List Nat} {s : Nat} (h : digits.foldl (10 * · + ·) s < Nat.pow 2 64) :
    absorb s digits = (digits.foldl (10 * · + ·) s, []) := by
  induction digits generalizing s with
  | nil => rfl
  | cons d ds ih =>
    have hs : s * 10 + d = 10 * s + d := by omega
    have hd : 10 * s + d < Nat.pow 2 64 := Nat.lt_of_le_of_lt (le_foldl_digits ds _) h
    rw [absorb, hs, if_pos hd, ih h]
    rfl

/-- An integer of 64 bits, signed or not, is the value of its numeral. -/
theorem value?_ofInt {n : Int} (lower : -0x8000000000000000 ≤ n) (upper : n < 0x10000000000000000) :
    (ofInt n).value? = some (.integer n) := by
  have hd : (digits n.natAbs).foldl (10 * · + ·) 0 = n.natAbs := digitsValue_digits n.natAbs
  have ha : absorb 0 (ofInt n).whole = (n.natAbs, []) := by
    have h64 : (digits n.natAbs).foldl (10 * · + ·) 0 < Nat.pow 2 64 := by
      rw [hd]
      change _ < 0x10000000000000000
      omega
    rw [ofInt, absorb_of_lt h64, hd]
  rw [value?, ha]
  by_cases hn : n < 0
  · have h0 : n.natAbs ≠ 0 := by omega
    have h63 : ¬ Nat.pow 2 63 < n.natAbs := by change ¬ 0x8000000000000000 < _; omega
    have hm : -(n.natAbs : Int) = n := by omega
    simp only [ofInt, hn, h0, h63, hm, decide_true, decide_false, Bool.not_true, Bool.or_false, Bool.false_eq_true,
      if_false]
  · have hm : (n.natAbs : Int) = n := by omega
    simp only [ofInt, hn, hm, decide_false, Bool.not_false, if_true]

end CallContract.Json.Numeral
