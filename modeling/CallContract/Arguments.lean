import CallContract.Value.Basic

/-!
# Arguments

The arguments of a call in order. `Arguments.toObject` encodes them as an object with a `length` and one entry for
each position, `Arguments.ofObject?` decodes any object of this shape. An entry that is missing below the length is
undefined, and entries under other keys do not count.
-/

namespace CallContract

/-- The arguments of a call, in order. -/
structure Arguments where
  values : Array Value
  deriving Inhabited

namespace Arguments

/-- The most arguments that are read from an object. -/
def maxRead : Nat := 65535

/-- The largest length that an object can declare. -/
def maxDeclared : Nat := 4294967295

/-- Arguments from a list. -/
def ofList (values : List Value) : Arguments :=
  ⟨values.toArray⟩

/-- The arguments as a list. -/
def toList (a : Arguments) : List Value :=
  a.values.toList

/-- The number of arguments. -/
def size (a : Arguments) : Nat :=
  a.values.size

/-- The argument at an index. -/
def get? (a : Arguments) (index : Nat) : Option Value :=
  a.values[index]?

/-- The length that an object declares: an integral number in range under `length`. -/
def declaredLength? (v : Value) : Option Nat := do
  let x ← (← v.get? "length").number?
  if x.isIntegral && 0 ≤ x.toInt && x.toInt ≤ maxDeclared then some x.natAbs else none

/-- The entries of an object at the positions below a length. -/
def readEntries (entries : List (String × Value)) (length : Nat) : Arguments :=
  let table := Entries.index entries
  ⟨(Array.range length).map fun i => table[toString i]?.getD .undefined⟩

/-- The arguments that an object encodes, if it declares no more than can be read. -/
def ofObject? (v : Value) : Option Arguments := do
  let length ← declaredLength? v
  if maxRead < length then none
  else match v with
    | .object entries => some (readEntries entries length)
    | _ => none

/-- The object that encodes the arguments. -/
def toObject (a : Arguments) : Value :=
  .ofEntries (a.toList.zipIdx.map (fun (v, i) => (toString i, v)) ++ [("length", .ofNat a.size)])

/-- The same arguments, position by position. -/
def isSame (a b : Arguments) : Bool :=
  Value.isSameItems a.toList b.toList

end Arguments

end CallContract
