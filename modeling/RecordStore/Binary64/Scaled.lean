import RecordStore.Binary64.Basic

/-!
# Scaling by powers of ten

A number is scaled by a power of ten in steps that are each rounded to the nearest number: one
multiplication upwards, and downwards divisions by `10 ^ 308` until a power of ten that the format
holds is left. A decimal whose digits or whose power of ten are not exact is therefore not always
the number nearest to it.
-/

namespace RecordStore

namespace Binary64

/-- The product of two numbers, rounded; none beyond the largest number. -/
def mul? (x y : Binary64) : Option Binary64 :=
  nearest? (x.negative != y.negative) (x.units * y.units) (Nat.pow 2 1074)

/-- The quotient of two numbers, rounded; none beyond the largest number and for a divisor that is
zero. -/
def div? (x y : Binary64) : Option Binary64 :=
  if y.isZero then none
  else nearest? (x.negative != y.negative) (x.units * Nat.pow 2 1074) y.units

/-- The greatest exponent of ten that the format holds. -/
def greatestExponent : Nat := 308

/-- The number nearest to a power of ten that the format holds. -/
def powerOfTen (exponent : Nat) : Binary64 := ofInt (Nat.pow 10 exponent)

/-- A number divided by the greatest power of ten so many times, or until it is zero. -/
def loweredBy? (x : Binary64) : Nat → Option Binary64
  | 0 => some x
  | steps + 1 =>
    if x.isZero then some x
    else (x.div? (powerOfTen greatestExponent)).bind fun lower ↦ lower.loweredBy? steps

/-- A number scaled by a power of ten; none beyond the largest number. -/
def scaled? (x : Binary64) (exponent : Int) : Option Binary64 :=
  if x.isZero then some x
  else if greatestExponent < exponent then none
  else if 0 ≤ exponent then x.mul? (powerOfTen exponent.toNat)
  else
    let down := (-exponent).toNat
    let steps := (down - 1) / greatestExponent
    (x.loweredBy? steps).bind fun lower ↦
      lower.div? (powerOfTen (down - greatestExponent * steps))

/-- The number that digits and an exponent of ten are read as: the digits rounded to a number and
scaled; none beyond the largest number. -/
def ofDigits? (negative : Bool) (digits : Nat) (exponent : Int) : Option Binary64 :=
  (nearest? negative (digits * Nat.pow 2 1074) 1).bind fun x ↦ x.scaled? exponent

end Binary64

end RecordStore
