import RecordStore.Binary64.Shortest
import RecordStore.Integer.Text

/-!
# JSON numbers

A JSON number is an integer or a real, and the two kinds stay apart: `1` and `1.0` are different
numbers. A real is written with the fewest digits that it is the nearest number to, positionally
while its leading digit stands for at least `10 ^ -5` and less than `10 ^ 16`, and otherwise with a
signed exponent.
-/

namespace RecordStore

/-- A JSON number. -/
inductive Number where
  /-- An integer from `-2 ^ 63` up to `2 ^ 64 - 1`; a literal outside that range is a real. -/
  | integer (n : Int)
  /-- A finite real. -/
  | real (x : Binary64)
deriving DecidableEq

namespace Number

/-- Whether two numbers are of one kind and have the same value. -/
def sameValue : Number → Number → Bool
  | .integer a, .integer b => a = b
  | .real x, .real y => x.sameValue y
  | _, _ => false

/-- Whether a number of either kind is zero. -/
def isZero : Number → Bool
  | .integer n => n = 0
  | .real x => x.isZero

/-- The signed 64-bit integer that a number is; none for a real, even an integral one. -/
def toInt64? : Number → Option Int64
  | .integer n => RecordStore.toInt64? n
  | .real _ => none

/-- The real nearest to a number. -/
def toReal : Number → Binary64
  | .integer n => .ofInt n
  | .real x => x

/-- Digits with the point after `whole` of them, and a zero on either side that has no digit. -/
def positional (digits : List Char) (whole : Int) : List Char :=
  if digits.length ≤ whole then
    digits ++ List.replicate (whole - digits.length).toNat '0' ++ ['.', '0']
  else if 0 < whole then digits.take whole.toNat ++ '.' :: digits.drop whole.toNat
  else '0' :: '.' :: (List.replicate (-whole).toNat '0' ++ digits)

/-- Digits with the point after the first, when more follow, and the exponent of the first. -/
def scientific (digits : List Char) (leading : Int) : List Char :=
  let mantissa :=
    match digits with
    | first :: second :: rest => first :: '.' :: second :: rest
    | short => short
  mantissa ++ 'e' :: (if leading < 0 then '-' else '+') :: decimalDigits leading.natAbs

/-- The characters of a real. -/
def realChars (x : Binary64) : List Char :=
  let decimal := x.shortest
  let digits := decimalDigits decimal.digits
  let leading := decimal.exponent + digits.length - 1
  let magnitude :=
    if -5 ≤ leading ∧ leading < 16 then positional digits (leading + 1)
    else scientific digits leading
  if x.negative then '-' :: magnitude else magnitude

/-- The characters of a number as JSON text. -/
def chars : Number → List Char
  | .integer n => integerChars n
  | .real x => realChars x

end Number

end RecordStore
