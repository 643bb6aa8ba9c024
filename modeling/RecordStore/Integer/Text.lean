import RecordStore.Integer.Range

/-!
# Decimal integers as text

An integer is written in decimal with `-` in front when it is negative. It is read as an optional
sign and one or more ASCII digits; leading zeros are allowed, and nothing else is.
-/

namespace RecordStore

/-- The decimal digits of a number, the highest first. -/
def decimalDigits (n : Nat) : List Char := Nat.toDigits 10 n

/-- The characters of an integer in decimal. -/
def integerChars : Int → List Char
  | .ofNat n => decimalDigits n
  | .negSucc n => '-' :: decimalDigits (n + 1)

/-- The decimal text of an integer. -/
def integerText (n : Int) : String := String.ofList (integerChars n)

/-- The number that one or more decimal digits stand for. -/
def readDigits (cs : List Char) : Option Nat :=
  if cs.isEmpty || !cs.all Char.isDigit then none else some (Nat.ofDigitChars 10 cs 0)

/-- The integer that an optional sign and one or more digits stand for. -/
def readInteger : List Char → Option Int
  | '-' :: digits => (readDigits digits).map fun n ↦ -(n : Int)
  | '+' :: digits => (readDigits digits).map Int.ofNat
  | digits => (readDigits digits).map Int.ofNat

/-- Reads a signed 64-bit integer. -/
def readInt64 (cs : List Char) : Option Int64 := (readInteger cs).bind toInt64?

/-- Reads an unsigned 32-bit integer, which has no minus sign even at zero. -/
def readUInt32 : List Char → Option UInt32
  | '-' :: _ => none
  | cs => (readInteger cs).bind toUInt32?

/-- A number is written with digits only. -/
theorem isDigit_decimalDigits (n : Nat) : ∀ c ∈ decimalDigits n, c.isDigit = true :=
  fun _ hc ↦ Nat.isDigit_of_mem_toDigits (by decide) (by decide) hc

/-- One or more decimal digits and the number that they stand for. -/
def IsDigits (cs : List Char) (n : Nat) : Prop :=
  cs ≠ [] ∧ (∀ c ∈ cs, c.isDigit = true) ∧ Nat.ofDigitChars 10 cs 0 = n

/-- A text of digits, with a sign in front or none, and the integer that it stands for. -/
inductive IsNumeral : List Char → Int → Prop
  | unsigned {digits : List Char} {n : Nat} (h : IsDigits digits n) : IsNumeral digits n
  | positive {digits : List Char} {n : Nat} (h : IsDigits digits n) : IsNumeral ('+' :: digits) n
  | negative {digits : List Char} {n : Nat} (h : IsDigits digits n) :
    IsNumeral ('-' :: digits) (-n)

/-- Digits are read exactly as the number that they stand for. -/
theorem readDigits_eq_some_iff {cs : List Char} {n : Nat} :
    readDigits cs = some n ↔ IsDigits cs n := by
  simp [readDigits, IsDigits, and_assoc]

-- A sign is no digit.
private theorem readInteger_of_isDigits {cs : List Char} {n : Nat} (h : IsDigits cs n) :
    readInteger cs = some (n : Int) := by
  have hread := readDigits_eq_some_iff.2 h
  obtain ⟨-, hdigits, -⟩ := h
  unfold readInteger
  split
  · exact absurd (hdigits '-' (by simp)) (by decide)
  · exact absurd (hdigits '+' (by simp)) (by decide)
  · rw [hread]
    rfl

/-- Numerals are read exactly as the integer that they stand for. -/
theorem readInteger_eq_some_iff {cs : List Char} {z : Int} :
    readInteger cs = some z ↔ IsNumeral cs z := by
  constructor
  · intro h
    unfold readInteger at h
    split at h
    · next digits =>
      obtain ⟨n, hread, rfl⟩ : ∃ n : Nat, readDigits digits = some n ∧ -(n : Int) = z := by
        simpa [Option.bind_eq_some_iff] using h
      exact .negative (readDigits_eq_some_iff.1 hread)
    · obtain ⟨n, hread, rfl⟩ := Option.map_eq_some_iff.1 h
      exact .positive (readDigits_eq_some_iff.1 hread)
    · obtain ⟨n, hread, rfl⟩ := Option.map_eq_some_iff.1 h
      exact .unsigned (readDigits_eq_some_iff.1 hread)
  · intro h
    cases h with
    | unsigned h => exact readInteger_of_isDigits h
    | positive h => rw [readInteger, readDigits_eq_some_iff.2 h]; rfl
    | negative h => rw [readInteger, readDigits_eq_some_iff.2 h]; rfl

/-- A signed 64-bit integer is read exactly from the numerals that stand for it. -/
theorem readInt64_eq_some_iff {cs : List Char} {w : Int64} :
    readInt64 cs = some w ↔ IsNumeral cs w.toInt := by
  rw [readInt64, Option.bind_eq_some_iff]
  constructor
  · rintro ⟨z, hread, hw⟩
    rw [toInt64?_eq_some_iff.1 hw]
    exact readInteger_eq_some_iff.1 hread
  · intro h
    exact ⟨w.toInt, readInteger_eq_some_iff.2 h, toInt64?_eq_some_iff.2 rfl⟩

/-- An unsigned 32-bit integer is read exactly from the numerals without a minus sign that stand for
it. -/
theorem readUInt32_eq_some_iff {cs : List Char} {w : UInt32} :
    readUInt32 cs = some w ↔ IsNumeral cs w.toNat ∧ cs.head? ≠ some '-' := by
  unfold readUInt32
  split
  · simp
  · next hsign =>
    have hhead : cs.head? ≠ some '-' := by
      intro h
      obtain ⟨rest, hcs⟩ := List.head?_eq_some_iff.1 h
      exact hsign rest hcs
    rw [Option.bind_eq_some_iff]
    constructor
    · rintro ⟨z, hread, hw⟩
      rw [toUInt32?_eq_some_iff.1 hw]
      exact ⟨readInteger_eq_some_iff.1 hread, hhead⟩
    · rintro ⟨hnumeral, -⟩
      exact ⟨w.toNat, readInteger_eq_some_iff.2 hnumeral, toUInt32?_eq_some_iff.2 rfl⟩

end RecordStore
