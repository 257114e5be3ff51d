import CallContract.Decimal.Layout
import CallContract.Value.Basic

/-!
# The text of a value

The text in which a value is quoted in messages. An array is the comma-joined text of its items, where null and
undefined items leave their place empty, so that nested arrays flatten.
-/

namespace CallContract

/-- Positional at every size, no point on whole numbers; a tie between two shortest decimals goes up. -/
def Value.numberLayout : Decimal.Layout where
  tie := .up
  positional _ := true
  keepsPoint := false

/-- The text of a number: an integer below `10^21` by all its digits, any other by its shortest decimal. -/
def Binary64.chars (x : Binary64) : List Char :=
  match x with
  | .nan => "NaN".toList
  | .infinity negative => (if negative then "-Infinity" else "Infinity").toList
  | .finite negative m q _ =>
    if x.isIntegral && x.natAbs < Nat.pow 10 21 then (toString x.toInt).toList
    else Value.numberLayout.numberChars negative m q

/-- The text of a function names it or calls it anonymous. -/
def Function.text (f : Function) : String :=
  match f.name with
  | some name => "[Function: " ++ name ++ "]"
  | none => "[Function (anonymous)]"

namespace Value

/-- Null and undefined leave their place in a joined array empty. -/
def isNil : Value → Bool
  | .undefined | .null => true
  | _ => false

/-- The text of a value. -/
def chars : Value → List Char
  | .undefined => "undefined".toList
  | .null => "null".toList
  | .bool b => (if b then "true" else "false").toList
  | .number x => x.chars
  | .bigint n => (toString n).toList
  | .string s => s.toList
  | .symbol description => "Symbol(".toList ++ (description.getD "").toList ++ [')']
  | .array items => [','].intercalate (items.map fun v => if v.isNil then [] else chars v)
  | .object _ => "[object Object]".toList
  | .function f => f.text.toList

/-- The text of a value. -/
def text (v : Value) : String :=
  String.ofList v.chars

end Value

end CallContract
