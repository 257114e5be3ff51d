import CallContract.Binary64.Rounding
import CallContract.Entries
import CallContract.Value.Kind

/-!
# Runtime values

A `Value` is what a call passes: one of ten forms, of eight kinds. Null and arrays are of kind object. The entries of
an object increase by key; `Value.ofEntries` makes such an object from any list. A function is known by its identity
and by what it answers.

- `Value.kind`, `Value.truthy`, `Value.get?` are the questions a validation asks; `Value.Falsy` lists the values that
  are not truthy;
- `Value.isSame` is equality: numbers compare by the arithmetic standard, functions by identity.
-/

namespace CallContract

/-- What a function answers to a call. -/
inductive Function.Body where
  /-- The number of arguments. -/
  | count
  /-- The first argument. -/
  | first
  /-- An array of the arguments. -/
  | list
  /-- Nothing, whatever it is given. -/
  | nothing
  deriving DecidableEq, Inhabited

/-- A function value: copies share the identity, two functions made apart never do. -/
structure Function where
  identity : Nat
  name : Option String
  body : Function.Body
  deriving DecidableEq, Inhabited

/-- A runtime value. -/
inductive Value where
  | undefined
  | null
  | bool (b : Bool)
  | number (x : Binary64)
  | bigint (n : Int)
  | string (s : String)
  | symbol (description : Option String)
  | array (items : List Value)
  | object (entries : List (String × Value))
  | function (f : Function)
  deriving Inhabited

namespace Value

/-- Induction on a value: an array through its items, an object through the values of its entries. -/
@[induction_eliminator]
theorem induction {motive : Value → Prop} (undefined : motive .undefined) (null : motive .null)
    (bool : ∀ b, motive (.bool b)) (number : ∀ x, motive (.number x)) (bigint : ∀ n, motive (.bigint n))
    (string : ∀ s, motive (.string s)) (symbol : ∀ d, motive (.symbol d))
    (array : ∀ items, (∀ v ∈ items, motive v) → motive (.array items))
    (object : ∀ entries, (∀ e ∈ entries, motive e.2) → motive (.object entries))
    (function : ∀ f, motive (.function f)) (v : Value) : motive v :=
  Value.rec (motive_1 := motive) (motive_2 := fun items => ∀ v ∈ items, motive v)
    (motive_3 := fun entries => ∀ e ∈ entries, motive e.2) (motive_4 := fun e => motive e.2)
    undefined null bool number bigint string symbol array object function
    (by simp) (fun _ _ h hs => List.forall_mem_cons.2 ⟨h, hs⟩)
    (by simp) (fun _ _ h hs => List.forall_mem_cons.2 ⟨h, hs⟩) (fun _ _ h => h) v

/-! ## Questions -/

/-- The kind of a value. -/
def kind : Value → Kind
  | .undefined => .undefined
  | .null | .array _ | .object _ => .object
  | .bool _ => .boolean
  | .number _ => .number
  | .bigint _ => .bigint
  | .string _ => .string
  | .symbol _ => .symbol
  | .function _ => .function

/-- Whether a value counts as given where an optional one is asked for. -/
def truthy : Value → Bool
  | .undefined | .null => false
  | .bool b => b
  | .number x => x != .nan && !x.isZero
  | .bigint n => n != 0
  | .string s => s != ""
  | .symbol _ | .array _ | .object _ | .function _ => true

/-- The values that do not count as given. -/
inductive Falsy : Value → Prop where
  | undefined : Falsy .undefined
  | null : Falsy .null
  | bool : Falsy (.bool false)
  | nan : Falsy (.number .nan)
  | zero (negative : Bool) : Falsy (.number (.zero negative))
  | bigint : Falsy (.bigint 0)
  | string : Falsy (.string "")

theorem truthy_eq_false_iff {v : Value} : v.truthy = false ↔ v.Falsy := by
  constructor
  · intro h
    cases v with
    | undefined => exact .undefined
    | null => exact .null
    | bool b =>
      obtain rfl : b = false := h
      exact .bool
    | number x =>
      by_cases hnan : x = .nan
      · exact hnan ▸ .nan
      · have hzero : x.isZero = true := by simpa [truthy, hnan] using h
        obtain ⟨negative, rfl⟩ := Binary64.exists_eq_zero hzero
        exact .zero negative
    | bigint n =>
      obtain rfl : n = 0 := by simpa [truthy] using h
      exact .bigint
    | string s =>
      obtain rfl : s = "" := by simpa [truthy] using h
      exact .string
    | symbol d => exact nomatch h
    | array items => exact nomatch h
    | object entries => exact nomatch h
    | function f => exact nomatch h
  · rintro (_ | _ | _ | _ | _ | _ | _) <;> rfl

theorem truthy_eq_true_iff {v : Value} : v.truthy = true ↔ ¬v.Falsy := by
  rw [← truthy_eq_false_iff, Bool.not_eq_false]

/-- The number, if the value is one. -/
def number? : Value → Option Binary64
  | .number x => some x
  | _ => none

/-- The value of an object under a key. -/
def get? (v : Value) (key : String) : Option Value :=
  match v with
  | .object entries => Entries.find? entries key
  | _ => none

/-! ## Making values -/

/-- An object with increasing keys, the last of several equal ones. -/
def ofEntries (entries : List (String × Value)) : Value :=
  .object (Entries.ofList entries)

/-- A natural number. -/
def ofNat (n : Nat) : Value :=
  .number (Binary64.ofInt n)

/-- An array of strings. -/
def strings (items : List String) : Value :=
  .array (items.map .string)

/-! ## Equality -/

mutual

/-- Equality of values. Not-a-number equals nothing, the zeros are equal, functions are equal by identity. -/
def isSame : Value → Value → Bool
  | .undefined, .undefined => true
  | .null, .null => true
  | .bool a, .bool b => a == b
  | .number x, .number y => x.ieeeEq y
  | .bigint m, .bigint n => m == n
  | .string s, .string t => s == t
  | .symbol d, .symbol e => d == e
  | .array xs, .array ys => isSameItems xs ys
  | .object es, .object fs => isSameEntries es fs
  | .function f, .function g => f.identity == g.identity
  | _, _ => false

/-- Item by item. -/
def isSameItems : List Value → List Value → Bool
  | [], [] => true
  | x :: xs, y :: ys => isSame x y && isSameItems xs ys
  | _, _ => false

/-- Entry by entry, keys and values. -/
def isSameEntries : List (String × Value) → List (String × Value) → Bool
  | [], [] => true
  | (k, x) :: es, (l, y) :: fs => k == l && isSame x y && isSameEntries es fs
  | _, _ => false

end

end Value

/-- What a function answers to the arguments of a call. -/
def Function.call (f : Function) (arguments : List Value) : Value :=
  match f.body with
  | .count => .ofNat arguments.length
  | .first => arguments.headD .undefined
  | .list => .array arguments
  | .nothing => .undefined

end CallContract
