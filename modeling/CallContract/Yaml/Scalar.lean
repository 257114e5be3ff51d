import CallContract.Decimal.Reader
import CallContract.Json.Basic

/-!
# Values of scalars

A plain scalar without a tag is null, a truth value, an integer, a decimal, or else the string it is
(`Scalar.plainJson?`). Digits with a superfluous leading zero are a string. A tag of the core vocabulary demands its
type; any other but a local one makes the scalar a string.
-/

namespace CallContract.Yaml.Scalar

/-! ## Types of plain scalars -/

/-- The spellings of null, the empty text left aside. -/
def isNull (text : String) : Bool :=
  ["null", "Null", "NULL", "~"].contains text

/-- A truth value. -/
def bool? (text : String) : Option Bool :=
  if ["true", "True", "TRUE"].contains text then some true
  else if ["false", "False", "FALSE"].contains text then some false
  else none

/-- At least two digits of which the first is a zero, behind an optional sign. -/
def hasLeadingZero (cs : List Char) : Bool :=
  let digits := match cs with
    | '+' :: rest => rest
    | '-' :: rest => rest
    | rest => rest
  decide (1 < digits.length) && digits.head? == some '0' && digits.all Char.isDigit

/-- The magnitude of an integer: in base sixteen, eight or two behind `0x`, `0o`, `0b`, or in base ten. -/
def magnitude? : List Char → Option Nat
  | '0' :: 'x' :: cs => Text.natural? 16 cs
  | '0' :: 'o' :: cs => Text.natural? 8 cs
  | '0' :: 'b' :: cs => Text.natural? 2 cs
  | cs => Text.natural? 10 cs

/-- An integer of any size. -/
def integer? (cs : List Char) : Option Int :=
  if hasLeadingZero cs then none
  else match cs with
    | '+' :: rest => (magnitude? rest).map Int.ofNat
    | '-' :: rest => (magnitude? rest).map fun n => -(n : Int)
    | _ => (magnitude? cs).map Int.ofNat

/-- The integer fits the 64 bits of a number that is kept exactly. -/
def fits64 (n : Int) : Bool :=
  -(Nat.pow 2 63 : Int) ≤ n && n < Nat.pow 2 64

/-- The integer fits 128 bits, as a signed one when it is negative. -/
def fits128 (n : Int) : Bool :=
  -(Nat.pow 2 127 : Int) ≤ n && n < Nat.pow 2 128

/-- The integer as JSON; one of more than 64 but at most 128 bits is refused, a larger one is none. -/
def integerJson? (cs : List Char) : Option (Option Json) :=
  match integer? cs with
  | some n => if fits64 n then some (some (.number (.integer n))) else if fits128 n then none else some none
  | none => some none

/-- A decimal: an infinity, not-a-number, or a text of a decimal that is finite. -/
def decimal? (cs : List Char) : Option Binary64 :=
  let unsigned := match cs with
    | '+' :: rest => rest
    | rest => rest
  if [".inf", ".Inf", ".INF"].contains (String.ofList unsigned) then some (.infinity false)
  else if ["-.inf", "-.Inf", "-.INF"].contains (String.ofList cs) then some (.infinity true)
  else if [".nan", ".NaN", ".NAN"].contains (String.ofList cs) then some .nan
  else if unsigned.head? == some '+' || (cs.head? == some '+' && unsigned.head? == some '-') then none
  else (Binary64.ofDecimalText? unsigned).filter Binary64.isFinite

/-- A decimal as JSON, which has no infinity and no not-a-number. -/
def decimalJson (x : Binary64) : Json :=
  if x.isFinite then .number (.float x) else .null

/-- The value of a plain scalar; refused when it is an integer that cannot be kept. -/
def plainJson? (text : String) : Option Json :=
  let cs := text.toList
  if text.isEmpty || isNull text then some .null
  else match bool? text with
    | some b => some (.bool b)
    | none => (integerJson? cs).map fun integer =>
      match integer with
      | some j => j
      | none =>
        match if hasLeadingZero cs then none else decimal? cs with
        | some x => decimalJson x
        | none => .string text

/-- Whether the text would be read as something else than a string if it were plain. -/
def isAmbiguous (text : String) : Bool :=
  hasLeadingZero text.toList ||
    match plainJson? text with
    | some (.string _) => false
    | _ => true

/-! ## Tags -/

/-- What the tags of the core vocabulary start with. -/
def coreStart : String := "tag:yaml.org,2002:"

/-- A tag that belongs to the text's own vocabulary. -/
def isLocalTag (tag : String) : Bool :=
  tag.toList.head? == some '!'

/-- The value of a scalar. -/
def toJson? (tag : Option String) (plain : Bool) (text : String) : Option Json :=
  match tag with
  | none => if plain then plainJson? text else some (.string text)
  | some tag =>
    if isLocalTag tag then none
    else if tag = coreStart ++ "bool" then (bool? text).map .bool
    else if tag = coreStart ++ "int" then (integerJson? text.toList).bind id
    else if tag = coreStart ++ "float" then (decimal? text.toList).map decimalJson
    else if tag = coreStart ++ "null" then if isNull text then some .null else none
    else some (.string text)

end CallContract.Yaml.Scalar
