/-!
# Finite binary64 numbers

A finite binary64 number is a whole multiple of the smallest positive one, `2 ^ -1074`, and is
held here as its sign, its significand and the power of two that scales the significand in that
unit. Each number has one representation, so equality of representations tells apart everything
that the format tells apart, the two zeros included.
-/

namespace RecordStore

/-- A finite binary64 number of magnitude `significand * 2 ^ scale` in units of `2 ^ -1074`. -/
structure Binary64 where
  /-- The sign bit, which zero has too. -/
  negative : Bool
  /-- The significand, with its leading bit unless the number is subnormal. -/
  significand : Nat
  /-- The power of two by which the significand is scaled. -/
  scale : Nat
  significand_lt : significand < Nat.pow 2 53
  scale_le : scale ≤ 2045
  normal : scale = 0 ∨ Nat.pow 2 52 ≤ significand
deriving DecidableEq

namespace Binary64

/-- The magnitude in units of `2 ^ -1074`. -/
def units (x : Binary64) : Nat := x.significand * Nat.pow 2 x.scale

/-- Whether a number is one of the two zeros. -/
def isZero (x : Binary64) : Bool := x.significand = 0

/-- Zero with the given sign. -/
def zero (negative : Bool) : Binary64 :=
  ⟨negative, 0, 0, by decide, by decide, .inl rfl⟩

/-- Whether two numbers have the same value, which the two zeros have. -/
def sameValue (x y : Binary64) : Bool := x = y || (x.isZero && y.isZero)

/-- The number with a given significand and scale, a significand of `2 ^ 53` being carried into
the scale; none when there is no such number. -/
def ofParts? (negative : Bool) (significand scale : Nat) : Option Binary64 :=
  let (m, s) :=
    if significand = Nat.pow 2 53 then (Nat.pow 2 52, scale + 1) else (significand, scale)
  if h : m < Nat.pow 2 53 ∧ s ≤ 2045 ∧ (s = 0 ∨ Nat.pow 2 52 ≤ m) then
    some ⟨negative, m, s, h.1, h.2.1, h.2.2⟩
  else none

/-- The quotient of two numbers rounded to the nearest integer, a tie to the even one. -/
def roundQuotient (numerator denominator : Nat) : Nat :=
  let quotient := numerator / denominator
  let remainder := numerator % denominator
  if 2 * remainder < denominator then quotient
  else if denominator < 2 * remainder then quotient + 1
  else if quotient % 2 = 0 then quotient
  else quotient + 1

/-- The number nearest to a magnitude given as a quotient in units of `2 ^ -1074`; none when it
lies beyond the largest finite number. -/
def nearest? (negative : Bool) (numerator denominator : Nat) : Option Binary64 :=
  let scale := (numerator / denominator).log2 + 1 - 53
  ofParts? negative (roundQuotient numerator (denominator * Nat.pow 2 scale)) scale

/-- The largest finite number with the given sign. -/
def largest (negative : Bool) : Binary64 :=
  ⟨negative, Nat.pow 2 53 - 1, 2045, by decide, by decide, .inr (by decide)⟩

/-- The finite number nearest to an integer. -/
def ofInt (n : Int) : Binary64 :=
  (nearest? (n < 0) (n.natAbs * Nat.pow 2 1074) 1).getD (largest (n < 0))

end Binary64

end RecordStore
