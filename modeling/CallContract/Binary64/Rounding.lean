import CallContract.Binary64.Basic

/-!
# Rounding to binary64

Every number that is read from a text is an exact fraction rounded once, to the nearest binary64 number and to the
even significand on a tie (`Binary64.ofFraction`). Integers, decimals and the product or quotient of two numbers are
such fractions.
-/

namespace CallContract

/-- `num / den` rounded to the nearest integer, a tie to the even one. -/
def roundDivEven (num den : Nat) : Nat :=
  let quotient := num / den
  let twice := 2 * (num % den)
  if den < twice || (twice == den && quotient % 2 == 1) then quotient + 1 else quotient

namespace Binary64

/-- The number `±m · 2^q` when the pair is canonical up to a carry into a 54th bit; infinity above the range. -/
def ofScaled (negative : Bool) (m : Nat) (q : Int) : Binary64 :=
  let (m, q) := if m < Nat.pow 2 53 then (m, q) else (m / 2, q + 1)
  if h : Canonical m q then .finite negative m q h else .infinity negative

/-- The exponent `p` with `2^p ≤ num / den < 2^(p+1)`, for positive arguments. -/
def binaryExponent (num den : Nat) : Int :=
  let estimate : Int := (num.log2 : Int) - den.log2
  if den * Nat.pow 2 estimate.toNat ≤ num * Nat.pow 2 (-estimate).toNat then estimate else estimate - 1

/-- The number nearest to `±num / den`. -/
def ofFraction (negative : Bool) (num den : Nat) : Binary64 :=
  if num = 0 then zero negative
  else
    let q := max (binaryExponent num den - 52) (-1074)
    ofScaled negative (roundDivEven (num * Nat.pow 2 (-q).toNat) (den * Nat.pow 2 q.toNat)) q

/-- The number nearest to an integer. -/
def ofInt (n : Int) : Binary64 :=
  ofFraction (decide (n < 0)) n.natAbs 1

/-- The number nearest to `±digits · 10^exponent`. Exponents far outside the range are answered without computing
the power. -/
def ofDecimal (negative : Bool) (digits : Nat) (exponent : Int) : Binary64 :=
  let magnitude : Int := ((Nat.toDigits 10 digits).length : Int) + exponent
  if digits = 0 || magnitude < -400 then zero negative
  else if 400 < magnitude then .infinity negative
  else ofFraction negative (digits * Nat.pow 10 exponent.toNat) (Nat.pow 10 (-exponent).toNat)

/-! ## Multiplying and dividing by positive numbers -/

/-- The magnitude of a finite number as a fraction. -/
def fraction (m : Nat) (q : Int) : Nat × Nat :=
  (m * Nat.pow 2 q.toNat, Nat.pow 2 (-q).toNat)

/-- The product rounded once; the second factor is a positive finite number. -/
def mulPos : Binary64 → Binary64 → Binary64
  | .finite negative m q _, .finite _ m' q' _ =>
    let (num, den) := fraction m q
    let (num', den') := fraction m' q'
    ofFraction negative (num * num') (den * den')
  | x, _ => x

/-- The quotient rounded once; the divisor is a positive finite number. -/
def divPos : Binary64 → Binary64 → Binary64
  | .finite negative m q _, .finite _ m' q' _ =>
    let (num, den) := fraction m q
    let (num', den') := fraction m' q'
    ofFraction negative (num * den') (den * num')
  | x, _ => x

end Binary64

end CallContract
