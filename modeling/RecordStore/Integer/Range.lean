/-!
# Integers that fit a word

Which integers are signed 64-bit or unsigned 32-bit numbers, and the product of two 64-bit
numbers that stops at the ends of the range instead of leaving it.
-/

namespace RecordStore

/-- The smallest signed 64-bit integer, `-2 ^ 63`. -/
def int64Min : Int := -9223372036854775808

/-- The largest signed 64-bit integer, `2 ^ 63 - 1`. -/
def int64Max : Int := 9223372036854775807

/-- The largest unsigned 64-bit integer, `2 ^ 64 - 1`. -/
def uint64Max : Int := 18446744073709551615

/-- The signed 64-bit number equal to an integer, when there is one. -/
def toInt64? (n : Int) : Option Int64 :=
  if int64Min ≤ n ∧ n ≤ int64Max then some (Int64.ofInt n) else none

/-- The unsigned 32-bit number equal to an integer, when there is one. -/
def toUInt32? (n : Int) : Option UInt32 :=
  if 0 ≤ n ∧ n < 4294967296 then some (UInt32.ofNat n.toNat) else none

/-- The product of two numbers, or the end of the 64-bit range that it passes. -/
def saturatingProduct (a b : Int64) : Int64 :=
  Int64.ofInt (max int64Min (min int64Max (a.toInt * b.toInt)))

/-- An integer of the 64-bit range is the value of its 64-bit number. -/
theorem toInt_ofInt_of_mem {n : Int} (h : int64Min ≤ n ∧ n ≤ int64Max) :
    (Int64.ofInt n).toInt = n := by
  rw [Int64.toInt_ofInt]
  simp only [int64Min, int64Max] at h
  exact Int.bmod_eq_of_le (by simp only [Int64.size]; omega) (by simp only [Int64.size]; omega)

/-- The larger of two numbers has the larger of their values. -/
theorem toInt_max (a b : Int64) : (max a b).toInt = max a.toInt b.toInt := by
  change (if a ≤ b then b else a).toInt = _
  split
  · next h =>
    rw [Int64.le_iff_toInt_le] at h
    omega
  · next h =>
    rw [Int64.le_iff_toInt_le] at h
    omega

/-- The smaller of two numbers has the smaller of their values. -/
theorem toInt_min (a b : Int64) : (min a b).toInt = min a.toInt b.toInt := by
  change (if a ≤ b then a else b).toInt = _
  split
  · next h =>
    rw [Int64.le_iff_toInt_le] at h
    omega
  · next h =>
    rw [Int64.le_iff_toInt_le] at h
    omega

/-- Narrowing succeeds exactly at the value of a 64-bit number. -/
theorem toInt64?_eq_some_iff {n : Int} {w : Int64} : toInt64? n = some w ↔ w.toInt = n := by
  have hlow : int64Min ≤ w.toInt := Int64.minValue_le_toInt w
  have hhigh : w.toInt ≤ int64Max := Int64.toInt_le w
  unfold toInt64?
  split
  · rename_i h
    rw [Option.some_inj]
    constructor
    · rintro rfl
      exact toInt_ofInt_of_mem h
    · rintro rfl
      exact Int64.ofInt_toInt w
  · rename_i h
    constructor
    · simp
    · rintro rfl
      exact absurd ⟨hlow, hhigh⟩ h

/-- Narrowing succeeds exactly at the value of an unsigned 32-bit number. -/
theorem toUInt32?_eq_some_iff {n : Int} {w : UInt32} :
    toUInt32? n = some w ↔ (w.toNat : Int) = n := by
  have hlt : w.toNat < 4294967296 := w.toNat_lt
  unfold toUInt32?
  split
  · next h =>
    have hvalue : (UInt32.ofNat n.toNat).toNat = n.toNat :=
      UInt32.toNat_ofNat_of_lt' (by simp only [UInt32.size]; omega)
    rw [Option.some_inj, ← UInt32.toNat_inj, hvalue]
    omega
  · constructor
    · simp
    · intro hn
      omega

/-- The value of a saturating product is the exact product held to the range. -/
theorem toInt_saturatingProduct (a b : Int64) :
    (saturatingProduct a b).toInt = max int64Min (min int64Max (a.toInt * b.toInt)) := by
  apply toInt_ofInt_of_mem
  simp only [int64Min, int64Max]
  omega

end RecordStore
