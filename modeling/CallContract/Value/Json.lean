import CallContract.Json.Printer
import CallContract.Json.Raw
import CallContract.Value.Text

/-!
# Values as JSON

`Value.toJson` writes every value: what JSON lacks becomes null (undefined, numbers that are not finite) or a string
(large integers, symbols, functions). An integral number below `2^53` becomes an integer. `Value.ofJson` reads a JSON
value back.
-/

namespace CallContract

/-- A finite number as JSON: an integer when it is integral and below `2^53`. -/
def Binary64.toJson (x : Binary64) : Json :=
  if !x.isFinite then .null
  else if x.isIntegral && x.natAbs < Nat.pow 2 53 then .number (.integer x.toInt64.toInt)
  else .number (.float x)

namespace Value

/-- The value as JSON. -/
def toJson : Value → Json
  | .undefined | .null => .null
  | .bool b => .bool b
  | .number x => x.toJson
  | .bigint n => .string (toString n)
  | .string s => .string s
  | .symbol d => .string (text (.symbol d))
  | .array items => .array (items.map fun v => toJson v)
  | .object entries => .object (entries.map fun e => (e.1, toJson e.2))
  | .function f => .string f.text
termination_by v => v
decreasing_by
  · have := List.sizeOf_lt_of_mem ‹_›
    simp; omega
  · have := Entries.sizeOf_snd_lt ‹_›
    simp; omega

/-- The value of a JSON value; a number that cannot be converted is not-a-number. -/
def ofJson : Json → Value
  | .null => .null
  | .bool b => .bool b
  | .number n => .number (n.toBinary64?.getD .nan)
  | .string s => .string s
  | .array items => .array (items.map fun j => ofJson j)
  | .object members => .object (members.map fun m => (m.1, ofJson m.2))
termination_by j => j
decreasing_by
  · have := List.sizeOf_lt_of_mem ‹_›
    simp; omega
  · have := Entries.sizeOf_snd_lt ‹_›
    simp; omega

/-- The JSON text of a value. -/
def jsonText (v : Value) : String :=
  v.toJson.compact

/-- The value of a JSON text. -/
def ofJsonText? (text : String) : Option Value :=
  (Json.ofString? text).map ofJson

end Value

end CallContract
