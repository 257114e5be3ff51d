/-!
# Kinds of values

Every value has one of eight kinds, and expectations speak of kinds only.
-/

namespace CallContract

/-- The kind of a value. -/
inductive Kind where
  | object
  | function
  | string
  | number
  | boolean
  | undefined
  | symbol
  | bigint
  deriving DecidableEq, Inhabited

namespace Kind

/-- All kinds. -/
def all : List Kind :=
  [.object, .function, .string, .number, .boolean, .undefined, .symbol, .bigint]

/-- The name of a kind as it appears in messages and reports. -/
def name : Kind → String
  | .object => "object"
  | .function => "function"
  | .string => "string"
  | .number => "number"
  | .boolean => "boolean"
  | .undefined => "undefined"
  | .symbol => "symbol"
  | .bigint => "bigint"

/-- The kind with a name. -/
def ofName? (name : String) : Option Kind :=
  all.find? (·.name == name)

theorem mem_all (k : Kind) : k ∈ all := by
  cases k <;> decide

end Kind

end CallContract
