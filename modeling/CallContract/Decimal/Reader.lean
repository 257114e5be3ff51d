import CallContract.Binary64.Rounding
import CallContract.Text.Digit

/-!
# Reading a decimal

`Binary64.ofDecimalText?` reads an optional sign, digits with at most one point among or around them, and an optional
exponent. The number is the nearest one to the decimal, so that a large exponent gives an infinity or a zero.
-/

namespace CallContract

namespace Decimal

/-- A sign in front of a text, and what follows it. -/
def takeSign : List Char → Bool × List Char
  | '-' :: cs => (true, cs)
  | '+' :: cs => (false, cs)
  | cs => (false, cs)

/-- The exponent that is the whole text: nothing, or a letter, an optional sign and at least one digit. -/
def readExponent? : List Char → Option Int
  | [] => some 0
  | c :: cs =>
    let (negative, digits) := takeSign cs
    if (c = 'e' ∨ c = 'E') ∧ !digits.isEmpty ∧ digits.all Char.isDigit then
      some (if negative then -Text.decimal digits else Text.decimal digits)
    else none

/-- The digits in front of a text before and after an optional point, and what follows them. -/
def takePoint (cs : List Char) : List Char × List Char × List Char :=
  let whole := cs.takeWhile Char.isDigit
  match cs.drop whole.length with
  | '.' :: rest =>
    let fraction := rest.takeWhile Char.isDigit
    (whole, fraction, rest.drop fraction.length)
  | rest => (whole, [], rest)

end Decimal

/-- The number nearest to the decimal that is the whole text. -/
def Binary64.ofDecimalText? (text : List Char) : Option Binary64 :=
  let (negative, rest) := Decimal.takeSign text
  let (whole, fraction, rest) := Decimal.takePoint rest
  if whole.isEmpty && fraction.isEmpty then none
  else (Decimal.readExponent? rest).map fun exponent =>
    .ofDecimal negative (Text.decimal (whole ++ fraction)) (exponent - fraction.length)

end CallContract
