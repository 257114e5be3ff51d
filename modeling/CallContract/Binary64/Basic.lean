/-!
# Binary64 numbers

A finite number is `±m · 2^q` with one canonical pair `(m, q)`, so that equality of representations is equality of
bit patterns and every question about a number is a question about two integers.

- `Binary64.isIntegral`, `Binary64.natAbs` read a number as an integer, `Binary64.toInt64` as one of 64 bits;
- `Binary64.ieeeEq` is the comparison of the arithmetic standard: not-a-number differs from itself, both zeros agree;
- `Binary64.toBits` is the interchange pattern of 64 bits.
-/

namespace CallContract

/-- `m · 2^q` is the canonical writing of a magnitude: 53 bits at most, and 53 bits exactly above the least exponent. -/
def Binary64.Canonical (m : Nat) (q : Int) : Prop :=
  m < Nat.pow 2 53 ∧ -1074 ≤ q ∧ q ≤ 971 ∧ (Nat.pow 2 52 ≤ m ∨ q = -1074)

instance (m : Nat) (q : Int) : Decidable (Binary64.Canonical m q) :=
  inferInstanceAs (Decidable (_ ∧ _))

/-- A number of the binary interchange format of 64 bits; all patterns that are not a number count as one. -/
inductive Binary64 where
  | nan
  | infinity (negative : Bool)
  | finite (negative : Bool) (significand : Nat) (exponent : Int)
      (canonical : Binary64.Canonical significand exponent)
  deriving DecidableEq

namespace Binary64

/-- Zero with a sign. -/
def zero (negative : Bool) : Binary64 :=
  .finite negative 0 (-1074) (by decide)

instance : Inhabited Binary64 := ⟨zero false⟩

/-! ## Reading a number -/

/-- Neither infinite nor not-a-number. -/
def isFinite : Binary64 → Bool
  | .finite .. => true
  | _ => false

/-- The sign bit. -/
def isNegative : Binary64 → Bool
  | .nan => false
  | .infinity negative => negative
  | .finite negative .. => negative

/-- Zero of either sign. -/
def isZero : Binary64 → Bool
  | .finite _ m _ _ => m == 0
  | _ => false

theorem exists_eq_zero {x : Binary64} (h : x.isZero = true) : ∃ negative, x = zero negative := by
  cases x with
  | nan => exact nomatch h
  | infinity negative => exact nomatch h
  | finite negative m q canonical =>
    obtain rfl : m = 0 := by simpa [isZero] using h
    obtain rfl : q = -1074 := by
      obtain ⟨-, -, -, h52 | hq⟩ := canonical
      · exact absurd h52 (by decide)
      · exact hq
    exact ⟨negative, rfl⟩

/-- `m · 2^q` has no fractional part. -/
def wholeMagnitude (m : Nat) (q : Int) : Bool :=
  decide (0 ≤ q) || m % Nat.pow 2 (-q).toNat == 0

/-- `m · 2^q` rounded down. -/
def floorMagnitude (m : Nat) (q : Int) : Nat :=
  if 0 ≤ q then m * Nat.pow 2 q.toNat else m / Nat.pow 2 (-q).toNat

/-- A finite number without a fractional part. -/
def isIntegral : Binary64 → Bool
  | .finite _ m q _ => wholeMagnitude m q
  | _ => false

/-- The magnitude rounded down to an integer; zero when the number is not finite. -/
def natAbs : Binary64 → Nat
  | .finite _ m q _ => floorMagnitude m q
  | _ => 0

/-- The number rounded toward zero to an integer. -/
def toInt (x : Binary64) : Int :=
  if x.isNegative then -(x.natAbs : Int) else x.natAbs

/-- The number as an integer of 64 bits: rounded toward zero, and to the nearest bound outside the range. -/
def toInt64 : Binary64 → Int64
  | .nan => 0
  | .infinity negative => if negative then Int64.minValue else Int64.maxValue
  | x@(.finite ..) => Int64.ofIntClamp x.toInt

/-! ## Comparison and bit pattern -/

/-- Equality of the arithmetic standard: not-a-number equals nothing and the two zeros are equal. -/
def ieeeEq (x y : Binary64) : Bool :=
  match x with
  | .nan => false
  | _ => decide (x = y) || (x.isZero && y.isZero)

/-- The interchange pattern: sign, eleven bits of biased exponent, 52 bits of fraction. -/
def toBits : Binary64 → Nat
  | .nan => 0x7ff8000000000000
  | .infinity negative => signBit negative + 2047 * Nat.pow 2 52
  | .finite negative m q _ =>
    signBit negative + if m < Nat.pow 2 52 then m else (q + 1075).toNat * Nat.pow 2 52 + (m - Nat.pow 2 52)
where
  signBit (negative : Bool) : Nat := if negative then Nat.pow 2 63 else 0

/-- The number with the opposite sign. -/
def neg : Binary64 → Binary64
  | .nan => .nan
  | .infinity negative => .infinity !negative
  | .finite negative m q h => .finite (!negative) m q h

end Binary64

end CallContract
