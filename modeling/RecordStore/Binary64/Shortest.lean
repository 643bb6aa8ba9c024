import RecordStore.Binary64.Basic

/-!
# Shortest decimals

The reals that round to a binary64 number form an interval around it. The shortest decimal of the
number is the one with the fewest digits in that interval, the nearest to the number when there
are two, and the one with the even last digit when both are equally near.
-/

namespace RecordStore

/-- The decimal number `digits * 10 ^ exponent`. -/
structure Decimal where
  digits : Nat
  exponent : Int
deriving DecidableEq

namespace Decimal

/-- The same number without zeros at the end of its digits, given a bound on their count. -/
def stripZeros : Nat → Decimal → Decimal
  | 0, d => d
  | bound + 1, d =>
    if d.digits ≠ 0 ∧ d.digits % 10 = 0 then stripZeros bound ⟨d.digits / 10, d.exponent + 1⟩
    else d

/-- How `a * 10 ^ exponent` compares with `b` quarters of `2 ^ -1074`. -/
def compareQuarters (a : Nat) (exponent : Int) (b : Nat) : Ordering :=
  compare (a * Nat.pow 10 exponent.toNat * Nat.pow 2 1076) (b * Nat.pow 10 (-exponent).toNat)

end Decimal

namespace Binary64

/-- Whether a decimal lies among the reals that round to the magnitude of a number. The interval
reaches halfway to each neighbour, has its ends when the significand is even, and is half as wide
below a power of two. -/
def covers (x : Binary64) (d : Decimal) : Bool :=
  let gap := Nat.pow 2 x.scale
  let below := if x.significand = Nat.pow 2 52 ∧ x.scale ≠ 0 then gap else 2 * gap
  let low := Decimal.compareQuarters d.digits d.exponent (4 * x.units - below)
  let high := Decimal.compareQuarters d.digits d.exponent (4 * x.units + 2 * gap)
  let closed := x.significand % 2 = 0
  (low = .gt || (closed && low = .eq)) && (high = .lt || (closed && high = .eq))

/-- The exponent of ten of the leading digit of a magnitude that is not zero. -/
def leadingExponent (x : Binary64) : Int :=
  (Nat.toDigits 10 (x.units * Nat.pow 10 324 / Nat.pow 2 1074)).length - 1 - 324

/-- The decimal on the grid of the given exponent that a number covers, if it covers one of the two
neighbours of its magnitude on that grid: the nearer of two, and the even one when both are equally
near. -/
def onGrid? (x : Binary64) (exponent : Int) : Option Decimal :=
  let numerator := x.units * Nat.pow 10 (-exponent).toNat
  let denominator := Nat.pow 2 1074 * Nat.pow 10 exponent.toNat
  let low : Decimal := ⟨numerator / denominator, exponent⟩
  let high : Decimal := ⟨numerator / denominator + 1, exponent⟩
  let near : Decimal := ⟨roundQuotient numerator denominator, exponent⟩
  if x.covers near then some near
  else if x.covers low then some low
  else if x.covers high then some high
  else none

/-- The shortest decimal that the magnitude of a number covers. Seventeen digits always suffice; the
exact value stands in where they would not. -/
def shortest (x : Binary64) : Decimal :=
  if x.isZero then ⟨0, 0⟩
  else
    let leading := x.leadingExponent
    let found := (List.range 17).findSome? fun (count : Nat) ↦ x.onGrid? (leading - (count : Int))
    (found.getD ⟨x.units * Nat.pow 5 1074, -1074⟩).stripZeros 1100

end Binary64

end RecordStore
