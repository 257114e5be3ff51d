import CallContract.Decimal.Shortest

/-!
# Laying out a decimal

`Layout.text` writes a decimal either positionally or with an exponent. Which exponents are positional, whether a
whole number keeps a fraction `.0` and how ties between shortest decimals are settled are fields of a `Layout`.
-/

namespace CallContract.Decimal

/-- The choices of a decimal format. -/
structure Layout where
  /-- How a tie between two shortest decimals is settled. -/
  tie : Tie
  /-- Whether a number whose first digit stands at `10^e` is written without an exponent. -/
  positional : Int → Bool
  /-- Whether a whole number written positionally ends in `.0`. -/
  keepsPoint : Bool

/-- The decimal digits of a number. -/
def digitChars (n : Nat) : List Char :=
  Nat.toDigits 10 n

/-- Digits with the point at its place: `digits · 10^exponent` without an exponent part. -/
def positionalChars (keepsPoint : Bool) (digits : List Char) (exponent : Int) : List Char :=
  if 0 ≤ exponent then
    digits ++ List.replicate exponent.toNat '0' ++ if keepsPoint then ['.', '0'] else []
  else
    let places := (-exponent).toNat
    if places < digits.length then
      digits.take (digits.length - places) ++ '.' :: digits.drop (digits.length - places)
    else
      '0' :: '.' :: List.replicate (places - digits.length) '0' ++ digits

/-- One digit before the point, the others after it, and a signed exponent. -/
def exponentChars (digits : List Char) (leading : Int) : List Char :=
  let fraction := if digits.length ≤ 1 then [] else '.' :: digits.drop 1
  let sign := if leading < 0 then '-' else '+'
  digits.take 1 ++ fraction ++ 'e' :: sign :: digitChars leading.natAbs

namespace Layout

/-- The text of a positive decimal. -/
def chars (layout : Layout) (d : Shortest) : List Char :=
  let digits := digitChars d.digits
  let leading := (digits.length : Int) - 1 + d.exponent
  if layout.positional leading then positionalChars layout.keepsPoint digits d.exponent
  else exponentChars digits leading

/-- The text of a finite number: its sign, then its shortest decimal; zero is laid out as the digit zero. -/
def numberChars (layout : Layout) (negative : Bool) (m : Nat) (q : Int) : List Char :=
  let sign := if negative then ['-'] else []
  sign ++ layout.chars (if m = 0 then ⟨0, 0⟩ else shortest layout.tie m q)

end Layout

end CallContract.Decimal
