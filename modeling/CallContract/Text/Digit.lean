/-!
# Digits

Reading digits as numbers. `Text.digit?` and `Text.natural?` serve every base up to sixteen; `Text.decimal` reads a
text that is known to hold decimal digits only.
-/

namespace CallContract.Text

/-- The value of a decimal digit. -/
def decimalDigit (c : Char) : Nat :=
  c.toNat - '0'.toNat

/-- The number that decimal digits write; no digits write zero. -/
def decimal (digits : List Char) : Nat :=
  digits.foldl (fun n c => 10 * n + decimalDigit c) 0

/-- The value of a digit of any base up to sixteen, letters of either case standing for ten and above. -/
def anyDigit? (c : Char) : Option Nat :=
  if c.isDigit then some (decimalDigit c)
  else if 'a' ≤ c ∧ c ≤ 'f' then some (c.toNat - 'a'.toNat + 10)
  else if 'A' ≤ c ∧ c ≤ 'F' then some (c.toNat - 'A'.toNat + 10)
  else none

/-- The value of a digit in a base of at most sixteen. -/
def digit? (base : Nat) (c : Char) : Option Nat :=
  (anyDigit? c).filter (· < base)

/-- The number that a text writes in a base; the empty text writes none. -/
def natural? (base : Nat) (cs : List Char) : Option Nat :=
  if cs.isEmpty then none else cs.foldlM (fun n c => (digit? base c).map (base * n + ·)) 0

end CallContract.Text
