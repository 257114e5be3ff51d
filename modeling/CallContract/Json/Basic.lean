import CallContract.Binary64.Rounding
import CallContract.Entries

/-!
# JSON values

A number is kept as an integer where it was written as one that fits 64 bits, and as a binary64 number otherwise.
The members of an object are a list, so that a printer decides their order; `Json.ofMembers` gives the order that
reading gives: increasing keys, the last of several equal ones.
-/

namespace CallContract

/-- A JSON number. -/
inductive Json.Number where
  | integer (n : Int)
  | float (x : Binary64)
  deriving DecidableEq, Inhabited

/-- A JSON value. -/
inductive Json where
  | null
  | bool (b : Bool)
  | number (n : Json.Number)
  | string (s : String)
  | array (items : List Json)
  | object (members : List (String × Json))
  deriving Inhabited

namespace Json

/-- The number as a binary64 number. -/
def Number.toBinary64 : Number → Binary64
  | .integer n => Binary64.ofInt n
  | .float x => x

/-- The number as a finite binary64 number, if it is one. -/
def Number.toBinary64? (n : Number) : Option Binary64 :=
  if n.toBinary64.isFinite then some n.toBinary64 else none

/-- An object with increasing keys, the last of several equal ones. -/
def ofMembers (members : List (String × Json)) : Json :=
  .object (Entries.ofList members)

/-- An array of strings. -/
def strings (items : List String) : Json :=
  .array (items.map .string)

/-- The name of a case among several: a string, or an object with the name as its only key and null under it. -/
def caseName? : Json → Option String
  | .string s => some s
  | .object [(name, .null)] => some name
  | _ => none

/-- Induction on a JSON value: an array through its items, an object through the values of its members. -/
@[induction_eliminator]
theorem induction {motive : Json → Prop} (null : motive .null) (bool : ∀ b, motive (.bool b))
    (number : ∀ n, motive (.number n)) (string : ∀ s, motive (.string s))
    (array : ∀ items, (∀ j ∈ items, motive j) → motive (.array items))
    (object : ∀ members, (∀ m ∈ members, motive m.2) → motive (.object members)) (j : Json) : motive j :=
  Json.rec (motive_1 := motive) (motive_2 := fun items => ∀ j ∈ items, motive j)
    (motive_3 := fun members => ∀ m ∈ members, motive m.2) (motive_4 := fun m => motive m.2)
    null bool number string array object
    (by simp) (fun _ _ h hs => List.forall_mem_cons.2 ⟨h, hs⟩)
    (by simp) (fun _ _ h hs => List.forall_mem_cons.2 ⟨h, hs⟩) (fun _ _ h => h) j

end Json

end CallContract
