import RowFilter.Binary64.Basic

/-! A finite number stands for all reals that round to it, an interval around its exact value.
`shortest` takes the coarsest decimal grid with a point in that interval and, of the points there,
the one nearest to the exact value. No decimal with fewer digits reads back as the same number. -/

namespace RowFilter.Binary64

/-- Which of two equally near points of a grid is taken. -/
inductive Tie
  | upward
  | even
  deriving DecidableEq, Repr

/-- `coefficient * 10 ^ exponent`. -/
structure Decimal where
  coefficient : Nat
  exponent : Int
  deriving DecidableEq, Repr

/-- The reals that round to a number, as multiples of `2 ^ unit`. -/
structure Interval where
  low : Nat
  exact : Nat
  high : Nat
  unit : Int
  closed : Bool

/-- Below a power of two the neighbour is twice as near as above. -/
def interval (x : Binary64) : Interval :=
  let m := x.significand
  { low := if m == hidden && 1 < x.exponentField then 4 * m - 1 else 4 * m - 2
    exact := 4 * m
    high := 4 * m + 2
    unit := x.scale - 2
    closed := m % 2 == 0 }

/-- The quotients `a * 2 ^ unit / 10 ^ p` with one common denominator. -/
def onGrid (unit p : Int) (a : Nat) : Nat × Nat :=
  ((a <<< unit.toNat) * Nat.pow 10 (-p).toNat, (1 <<< (-unit).toNat) * Nat.pow 10 p.toNat)

/-- Whether `k * 10 ^ p` lies in the interval. -/
def Interval.contains (i : Interval) (p : Int) (k : Nat) : Bool :=
  let (low, den) := onGrid i.unit p i.low
  let (high, _) := onGrid i.unit p i.high
  if i.closed then low ≤ k * den && k * den ≤ high else low < k * den && k * den < high

/-- The point of the grid `10 ^ p` that stands for the interval, if it holds one. -/
def Interval.gridPoint (i : Interval) (tie : Tie) (p : Int) : Option Nat :=
  let (num, den) := onGrid i.unit p i.exact
  let below := num / den
  let rest := num % den
  let upper := den < 2 * rest || (2 * rest == den && (tie == .upward || below % 2 == 1))
  match i.contains p below, i.contains p (below + 1) with
  | true, true => some (if upper then below + 1 else below)
  | true, false => some below
  | false, true => some (below + 1)
  | false, false => none

/-- The first of `fuel` grids, from the coarsest down, that holds a point of the interval. -/
def Interval.search (i : Interval) (tie : Tie) : Nat → Int → Decimal
  | 0, p => ⟨(onGrid i.unit p i.exact).1 / (onGrid i.unit p i.exact).2, p⟩
  | fuel + 1, p =>
    match i.gridPoint tie p with
    | some k => ⟨k, p⟩
    | none => i.search tie fuel (p - 1)

/-- Drops the trailing zeros of at most `fuel` digits. -/
def Decimal.trim : Nat → Decimal → Decimal
  | 0, d => d
  | fuel + 1, d =>
    if d.coefficient != 0 && d.coefficient % 10 == 0
    then Decimal.trim fuel ⟨d.coefficient / 10, d.exponent + 1⟩
    else d

/-- A power of ten above the number: three tenths and a little bound the logarithm of two. -/
def coarsest (x : Binary64) : Int :=
  (x.scale + x.significand.log2 + 1) * 30103 / 100000 + 1

/-- The decimal with the fewest digits that reads back as `x`, finite and not zero.
Seventeen digits always do, and the search starts at most three grids above the first. -/
def shortest (tie : Tie) (x : Binary64) : Decimal :=
  Decimal.trim 20 (x.interval.search tie 22 x.coarsest)

example : shortest .even ⟨1⟩ = ⟨5, -324⟩ := by decide +kernel
example : shortest .even ⟨0x3fb999999999999a⟩ = ⟨1, -1⟩ := by decide +kernel
example : shortest .even ⟨0x7fefffffffffffff⟩ = ⟨17976931348623157, 292⟩ := by decide +kernel
example : shortest .even ⟨0x3e60000000000000⟩ = ⟨29802322387695312, -24⟩ := by decide +kernel
example : shortest .upward ⟨0x3e60000000000000⟩ = ⟨29802322387695313, -24⟩ := by decide +kernel

end RowFilter.Binary64
