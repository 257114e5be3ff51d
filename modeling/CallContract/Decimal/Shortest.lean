import CallContract.Binary64.Basic

/-!
# The shortest decimal that reads back

The reals that round to a positive binary64 number `m · 2^q` form an interval whose ends lie half-way to the two
neighbours and belong to it when `m` is even. The shortest decimal of the number is a point of the coarsest grid
`10^k · ℕ` that meets this interval; of two such points it is the nearer one, and a tie is settled by a `Tie`.

All comparisons are between integers: `Interval` holds the number and both ends over one denominator.
-/

namespace CallContract.Decimal

/-- How a number exactly between two grid points is settled. -/
inductive Tie where
  | toEven
  | up
  deriving DecidableEq

/-- A positive decimal `digits · 10^exponent`. -/
structure Shortest where
  digits : Nat
  exponent : Int
  deriving DecidableEq

/-- The reals that round to one number: lower end, the number and upper end as numerators over `denominator`. -/
structure Interval where
  lower : Nat
  value : Nat
  upper : Nat
  denominator : Nat
  closed : Bool

namespace Interval

/-- The interval of `m · 2^q`, in quarters of a unit. Below a power of two the neighbour is only half as far. -/
def ofMagnitude (m : Nat) (q : Int) : Interval :=
  let unit := Nat.pow 2 (q - 2).toNat
  let below := if m = Nat.pow 2 52 ∧ q ≠ -1074 then 1 else 2
  { lower := (4 * m - below) * unit
    value := 4 * m * unit
    upper := (4 * m + 2) * unit
    denominator := Nat.pow 2 (2 - q).toNat
    closed := m % 2 == 0 }

/-- The interval in steps of `10^k`: numerators and denominator of its quotients by the step. -/
def inSteps (i : Interval) (k : Int) : Interval :=
  let scale := Nat.pow 10 (-k).toNat
  { i with
    lower := i.lower * scale
    value := i.value * scale
    upper := i.upper * scale
    denominator := i.denominator * Nat.pow 10 k.toNat }

/-- The integer `n` lies in the interval. -/
def contains (i : Interval) (n : Nat) : Bool :=
  let p := n * i.denominator
  if i.closed then i.lower ≤ p && p ≤ i.upper else i.lower < p && p < i.upper

/-- The integer of the interval that is nearest to its number, if there is one. -/
def nearest? (tie : Tie) (i : Interval) : Option Nat :=
  let low := i.value / i.denominator
  let twice := 2 * (i.value % i.denominator)
  let roundsUp := i.denominator < twice ||
    (twice == i.denominator && (tie == .up || low % 2 == 1))
  match i.contains low, i.contains (low + 1) with
  | true, true => some (if roundsUp then low + 1 else low)
  | true, false => some low
  | false, true => some (low + 1)
  | false, false => none

end Interval

/-- An exponent whose grid is too coarse for `m · 2^q` with `m` of at most 53 bits: `30103 / 100000` stands for the
decimal logarithm of two. -/
def coarsest (q : Int) : Int :=
  (53 + q) * 30103 / 100000 + 1

/-- The shortest decimal in the interval of `m · 2^q`, for positive `m`. Seventeen digits always suffice, so forty
grids below the coarsest reach a point. -/
def shortest (tie : Tie) (m : Nat) (q : Int) : Shortest :=
  let i := Interval.ofMagnitude m q
  let found := (List.range 40).findSome? fun (steps : Nat) =>
    let k := coarsest q - steps
    (i.inSteps k).nearest? tie |>.map (⟨·, k⟩)
  found.getD ⟨m, q⟩

end CallContract.Decimal
