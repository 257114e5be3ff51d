import CallContract.Json.Basic
import CallContract.Text.Digit

/-!
# JSON numerals

`Numeral.ofChars?` accepts exactly the numerals of JSON: an optional minus, a whole part without a superfluous zero,
an optional fraction and an optional exponent. `Numeral.value?` gives the number it stands for:

- an integer that fits 64 bits is kept exactly, except that `-0` is the negative zero;
- any other numeral is read as a significand of 64 bits times a power of ten, in two roundings: the significand is
  rounded to binary64, then its product with the power or its quotient by it; digits beyond the significand only
  scale it (before the point) or are dropped (after it). An infinite result is refused.
-/

namespace CallContract.Json

/-- The exponent part of a numeral. -/
structure Numeral.Exponent where
  negative : Bool
  digits : List Nat

/-- A number as it is written, digit by digit. -/
structure Numeral where
  negative : Bool
  whole : List Nat
  fraction : Option (List Nat)
  exponent : Option Numeral.Exponent

namespace Numeral

/-! ## Grammar -/

/-- The longest run of digits in front of a text, and what follows it. -/
def takeDigits (cs : List Char) : List Nat × List Char :=
  ((cs.takeWhile Char.isDigit).map Text.decimalDigit, cs.dropWhile Char.isDigit)

/-- A run of at least one digit in front of a text. -/
def takeDigits1? (cs : List Char) : Option (List Nat × List Char) :=
  match takeDigits cs with
  | ([], _) => none
  | found => some found

/-- The whole part: a single zero, or digits that do not start with one. -/
def takeWhole? (cs : List Char) : Option (List Nat × List Char) :=
  match takeDigits1? cs with
  | some (0 :: _ :: _, _) => none
  | found => found

/-- An optional fraction: a point and at least one digit. -/
def takeFraction? : List Char → Option (Option (List Nat) × List Char)
  | '.' :: cs => (takeDigits1? cs).map fun (digits, rest) => (some digits, rest)
  | cs => some (none, cs)

/-- The digits of an exponent after its sign. -/
def takeExponentDigits? (negative : Bool) (cs : List Char) : Option (Option Exponent × List Char) :=
  (takeDigits1? cs).map fun (digits, rest) => (some ⟨negative, digits⟩, rest)

/-- An optional exponent: a letter, an optional sign and at least one digit. -/
def takeExponent? : List Char → Option (Option Exponent × List Char)
  | [] => some (none, [])
  | c :: cs =>
    if c = 'e' ∨ c = 'E' then
      match cs with
      | '-' :: cs => takeExponentDigits? true cs
      | '+' :: cs => takeExponentDigits? false cs
      | cs => takeExponentDigits? false cs
    else some (none, c :: cs)

/-- The numeral that is the whole text. -/
def ofChars? (cs : List Char) : Option Numeral := do
  let (negative, cs) := match cs with
    | '-' :: cs => (true, cs)
    | cs => (false, cs)
  let (whole, cs) ← takeWhole? cs
  let (fraction, cs) ← takeFraction? cs
  let (exponent, cs) ← takeExponent? cs
  if cs.isEmpty then some ⟨negative, whole, fraction, exponent⟩ else none

/-! ## Value -/

/-- Appends digits to a significand as long as it stays below `2^64`; the digits that found no room are returned. -/
def absorb (significand : Nat) : List Nat → Nat × List Nat
  | [] => (significand, [])
  | d :: ds => if significand * 10 + d < Nat.pow 2 64 then absorb (significand * 10 + d) ds else (significand, d :: ds)

/-- `x · 10^exponent` for a number that is not negative: powers beyond `10^308` are taken in steps, and an infinite
result is refused. -/
def scale? (x : Binary64) (exponent : Int) : Option Binary64 :=
  let power (n : Nat) := Binary64.ofFraction false (Nat.pow 10 n) 1
  if exponent < -308 then
    if x.isZero then some x else scale? (x.divPos (power 308)) (exponent + 308)
  else if exponent < 0 then some (x.divPos (power exponent.natAbs))
  else if exponent ≤ 308 then
    let y := x.mulPos (power exponent.natAbs)
    if y.isFinite then some y else none
  else if x.isZero then some x else none
termination_by (-exponent).toNat

/-- The number of a list of digits. -/
def digitsValue (digits : List Nat) : Nat :=
  digits.foldl (10 * · + ·) 0

/-- The number of a numeral with a fraction, an exponent or too many digits: `significand · 10^shift`, further
scaled by the written exponent. Exponents past 31 bits overflow, or vanish when nothing is scaled up. -/
def float? (significand : Nat) (shift : Int) : Option Exponent → Option Binary64
  | none => scale? (Binary64.ofInt significand) shift
  | some e =>
    let n := digitsValue e.digits
    if Nat.pow 2 31 ≤ n then
      if significand ≠ 0 && !e.negative then none else some (Binary64.zero false)
    else scale? (Binary64.ofInt significand) (if e.negative then shift - n else shift + n)

/-- The number a numeral stands for; none when it is too large. -/
def value? (numeral : Numeral) : Option Number :=
  let (significand, surplus) := absorb 0 numeral.whole
  let signed (x : Binary64) := Number.float (if numeral.negative then x.neg else x)
  match numeral.fraction, numeral.exponent, surplus with
  | none, none, [] =>
    if !numeral.negative then some (.integer significand)
    else if significand = 0 || Nat.pow 2 63 < significand then some (signed (Binary64.ofInt significand))
    else some (.integer (-significand))
  | fraction, exponent, surplus =>
    let digits := fraction.getD []
    let (significand, unread) := absorb significand digits
    let shift : Int := (surplus.length : Int) - (digits.length - unread.length : Nat)
    (float? significand shift exponent).map signed

end Numeral

end CallContract.Json
