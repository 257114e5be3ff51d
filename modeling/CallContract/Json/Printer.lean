import CallContract.Decimal.Layout
import CallContract.Json.Basic

/-!
# Printing JSON

`Json.compact` writes no blanks; `Json.pretty` puts each item and member on a line of its own, two spaces deeper
than its container, and writes an empty container in one piece. Strings escape what must be escaped and nothing
else.
-/

namespace CallContract.Json

/-! ## Strings and numbers -/

/-- The four digits of a code below `2^16`, in lower case. -/
def hexDigits4 (n : Nat) : List Char :=
  [n / 4096, n / 256, n / 16, n].map fun d => Nat.digitChar (d % 16)

/-- A character of a string as it is written between quotes. -/
def escapeChar (c : Char) : List Char :=
  if c = '"' then ['\\', '"']
  else if c = '\\' then ['\\', '\\']
  else if c = '\x08' then ['\\', 'b']
  else if c = '\x0c' then ['\\', 'f']
  else if c = '\n' then ['\\', 'n']
  else if c = '\r' then ['\\', 'r']
  else if c = '\t' then ['\\', 't']
  else if c.toNat < 0x20 then '\\' :: 'u' :: hexDigits4 c.toNat
  else [c]

/-- A string in quotes. -/
def quoted (s : String) : List Char :=
  '"' :: s.toList.flatMap escapeChar ++ ['"']

/-- Positional from `10^-5` to `10^15` and with a point, an exponent outside; a tie goes to the even digit. -/
def floatLayout : Decimal.Layout where
  tie := .toEven
  positional e := -5 ≤ e && e ≤ 15
  keepsPoint := true

/-- A number: an integer by its digits, a finite binary64 number by its shortest decimal. -/
def Number.chars : Number → List Char
  | .integer n => (toString n).toList
  | .float (.finite negative m q _) => floatLayout.numberChars negative m q
  | .float _ => "null".toList

/-! ## Values -/

/-- A container: its parts between the brackets, separated by commas. -/
def bracket (opening closing : Char) (parts : List (List Char)) : List Char :=
  opening :: [','].intercalate parts ++ [closing]

/-- The text without blanks. -/
def compactChars : Json → List Char
  | .null => "null".toList
  | .bool b => (if b then "true" else "false").toList
  | .number n => n.chars
  | .string s => quoted s
  | .array items => bracket '[' ']' (items.map fun j => compactChars j)
  | .object members => bracket '\x7b' '\x7d' (members.map fun m => quoted m.1 ++ ':' :: compactChars m.2)
termination_by j => j
decreasing_by
  · have := List.sizeOf_lt_of_mem ‹_›
    simp; omega
  · have := Entries.sizeOf_snd_lt ‹_›
    simp; omega

/-- The text without blanks. -/
def compact (j : Json) : String :=
  String.ofList j.compactChars

/-- A container over several lines; an empty one stays in one piece. -/
def bracketLines (opening closing : Char) (depth : Nat) (parts : List (List Char)) : List Char :=
  if parts.isEmpty then [opening, closing]
  else
    let lineStart (d : Nat) := '\n' :: List.replicate (2 * d) ' '
    opening :: [','].intercalate (parts.map (lineStart (depth + 1) ++ ·)) ++ lineStart depth ++ [closing]

/-- The text with one item or member a line, inside containers of the given depth. -/
def prettyChars (depth : Nat) : Json → List Char
  | .null => "null".toList
  | .bool b => (if b then "true" else "false").toList
  | .number n => n.chars
  | .string s => quoted s
  | .array items => bracketLines '[' ']' depth (items.map fun j => prettyChars (depth + 1) j)
  | .object members => bracketLines '\x7b' '\x7d' depth
      (members.map fun m => quoted m.1 ++ ':' :: ' ' :: prettyChars (depth + 1) m.2)
termination_by j => j
decreasing_by
  · have := List.sizeOf_lt_of_mem ‹_›
    simp; omega
  · have := Entries.sizeOf_snd_lt ‹_›
    simp; omega

/-- The text with one item or member a line. -/
def pretty (j : Json) : String :=
  String.ofList (prettyChars 0 j)

end CallContract.Json
