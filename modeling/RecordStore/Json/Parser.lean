import RecordStore.Binary64.Scaled
import RecordStore.Json.Fields

/-!
# Reading JSON text

Reads one value from a text and nothing after it but blanks. A number with a point or an exponent
is a real; so are an integer outside `-2 ^ 63 … 2 ^ 64 - 1` and minus zero. A real is read from the
digits that fit an unsigned 64-bit number, which are rounded and then scaled, so of many digits the
last may count otherwise than in the nearest real. Of several entries with one name the last
counts. Every reading step takes characters off the text, so the length of the text bounds the
depth of the reading.
-/

namespace RecordStore

namespace JsonText

/-- The text after the blanks that JSON allows between its tokens. -/
def skipBlanks (cs : List Char) : List Char :=
  cs.dropWhile fun c ↦ c = ' ' || c = '\t' || c = '\n' || c = '\r'

/-- The value of a hexadecimal digit. -/
def hexDigit? (c : Char) : Option Nat :=
  if c.isDigit then some (c.toNat - '0'.toNat)
  else if 'a' ≤ c ∧ c ≤ 'f' then some (c.toNat - 'a'.toNat + 10)
  else if 'A' ≤ c ∧ c ≤ 'F' then some (c.toNat - 'A'.toNat + 10)
  else none

/-- The number that four hexadecimal digits stand for. -/
def codeUnit? (a b c d : Char) : Option Nat := do
  return (((← hexDigit? a) * 16 + (← hexDigit? b)) * 16 + (← hexDigit? c)) * 16 + (← hexDigit? d)

/-- The character that a backslash and a letter stand for. -/
def escape? : Char → Option Char
  | '"' => some '"'
  | '\\' => some '\\'
  | '/' => some '/'
  | 'b' => some '\x08'
  | 'f' => some '\x0c'
  | 'n' => some '\n'
  | 'r' => some '\r'
  | 't' => some '\t'
  | _ => none

/-- Reads the rest of a text whose opening quote has been taken. Two code units that form a pair
stand for one character, and half a pair is refused. -/
def textBody : List Char → Option (List Char × List Char)
  | [] => none
  | '"' :: rest => some ([], rest)
  | '\\' :: 'u' :: a :: b :: c :: d :: '\\' :: 'u' :: e :: f :: g :: h :: rest =>
    match codeUnit? a b c d, codeUnit? e f g h with
    | some high, some low =>
      if 0xD800 ≤ high ∧ high < 0xDC00 then
        if 0xDC00 ≤ low ∧ low < 0xE000 then
          (textBody rest).map fun read ↦
            (Char.ofNat (0x10000 + (high - 0xD800) * 0x400 + (low - 0xDC00)) :: read.1, read.2)
        else none
      else if 0xDC00 ≤ high ∧ high < 0xE000 then none
      else
        (textBody ('\\' :: 'u' :: e :: f :: g :: h :: rest)).map fun read ↦
          (Char.ofNat high :: read.1, read.2)
    | _, _ => none
  | '\\' :: 'u' :: a :: b :: c :: d :: rest =>
    match codeUnit? a b c d with
    | some unit =>
      if 0xD800 ≤ unit ∧ unit < 0xE000 then none
      else (textBody rest).map fun read ↦ (Char.ofNat unit :: read.1, read.2)
    | none => none
  | '\\' :: letter :: rest =>
    match escape? letter with
    | some c => (textBody rest).map fun read ↦ (c :: read.1, read.2)
    | none => none
  | c :: rest =>
    if c.toNat < 0x20 then none else (textBody rest).map fun read ↦ (c :: read.1, read.2)

/-- Reads the digits after a point, when there is a point. -/
def fractionPart : List Char → Option (Option (List Char) × List Char)
  | '.' :: rest =>
    match rest.takeWhile Char.isDigit with
    | [] => none
    | digits => some (some digits, rest.dropWhile Char.isDigit)
  | rest => some (none, rest)

/-- Reads the exponent of ten, when there is one. -/
def exponentPart : List Char → Option (Option Int × List Char)
  | [] => some (none, [])
  | c :: rest =>
    if c = 'e' ∨ c = 'E' then
      let (negative, digits) :=
        match rest with
        | '-' :: digits => (true, digits)
        | '+' :: digits => (false, digits)
        | digits => (false, digits)
      (readDigits (digits.takeWhile Char.isDigit)).map fun n ↦
        (some (if negative then -(n : Int) else n), digits.dropWhile Char.isDigit)
    else some (none, c :: rest)

/-- Takes digits into a significand as long as it stays an unsigned 64-bit number: the significand
and how many digits it took. -/
def takeDigits (significand : Nat) : List Char → Nat × Nat
  | [] => (significand, 0)
  | c :: rest =>
    let longer := 10 * significand + (c.toNat - '0'.toNat)
    if (longer : Int) ≤ uint64Max then
      let (all, taken) := takeDigits longer rest
      (all, taken + 1)
    else (significand, 0)

/-- The real that digits and an exponent of ten are read as. -/
def real? (negative : Bool) (digits : Nat) (exponent : Int) : Option Number :=
  (Binary64.ofDigits? negative digits exponent).map .real

/-- The number of a literal without point and exponent whose digits all fit. -/
def wholeNumber? (negative : Bool) (magnitude : Nat) : Option Number :=
  let n : Int := if negative then -(magnitude : Int) else magnitude
  if (negative ∧ magnitude = 0) ∨ n < int64Min then real? negative magnitude 0
  else some (.integer n)

/-- Reads a number. Digits before the point that do not fit count for the exponent alone, and those
after it not at all. -/
def number (cs : List Char) : Option (Number × List Char) := do
  let (negative, cs) :=
    match cs with
    | '-' :: rest => (true, rest)
    | rest => (false, rest)
  let whole := cs.takeWhile Char.isDigit
  if whole.isEmpty ∨ (whole.length ≠ 1 ∧ whole.head? = some '0') then none
  let (fraction, cs) ← fractionPart (cs.dropWhile Char.isDigit)
  let (exponent, cs) ← exponentPart cs
  let (leading, taken) := takeDigits 0 whole
  let left := whole.length - taken
  match fraction, exponent, left with
  | none, none, 0 => return (← wholeNumber? negative leading, cs)
  | _, _, _ =>
    let (digits, places) := takeDigits leading (fraction.getD [])
    return (← real? negative digits ((left : Int) - places + exponent.getD 0), cs)

mutual

/-- Reads a value that starts at the first character. -/
def value : Nat → List Char → Option (Json × List Char)
  | 0, _ => none
  | depth + 1, cs =>
    match cs with
    | 'n' :: 'u' :: 'l' :: 'l' :: rest => some (.null, rest)
    | 't' :: 'r' :: 'u' :: 'e' :: rest => some (.bool true, rest)
    | 'f' :: 'a' :: 'l' :: 's' :: 'e' :: rest => some (.bool false, rest)
    | '"' :: rest => (textBody rest).map fun read ↦ (.string (.ofList read.1), read.2)
    | '[' :: rest =>
      match skipBlanks rest with
      | ']' :: rest => some (.array [], rest)
      | rest => (items depth rest).map fun read ↦ (.array read.1, read.2)
    | '{' :: rest =>
      match skipBlanks rest with
      | '}' :: rest => some (.object [], rest)
      | rest => (entries depth rest).map fun read ↦ ((Fields.ofList read.1).toJson, read.2)
    | cs => (number cs).map fun read ↦ (.number read.1, read.2)

/-- Reads the items of an array and its closing bracket. -/
def items : Nat → List Char → Option (List Json × List Char)
  | 0, _ => none
  | depth + 1, cs => do
    let (item, rest) ← value depth cs
    match skipBlanks rest with
    | ']' :: rest => return ([item], rest)
    | ',' :: rest =>
      let (more, rest) ← items depth (skipBlanks rest)
      return (item :: more, rest)
    | _ => none

/-- Reads the entries of an object and its closing brace. -/
def entries : Nat → List Char → Option (List (String × Json) × List Char)
  | 0, _ => none
  | depth + 1, cs => do
    let '"' :: rest := cs | none
    let (name, rest) ← textBody rest
    let ':' :: rest := skipBlanks rest | none
    let (held, rest) ← value depth (skipBlanks rest)
    let entry := (String.ofList name, held)
    match skipBlanks rest with
    | '}' :: rest => return ([entry], rest)
    | ',' :: rest =>
      let (more, rest) ← entries depth (skipBlanks rest)
      return (entry :: more, rest)
    | _ => none

end

end JsonText

/-- The value that a text holds, when the text is JSON. -/
def Json.ofText? (text : String) : Option Json := do
  let cs := text.toList
  let (held, rest) ← JsonText.value (cs.length + 1) (JsonText.skipBlanks cs)
  if (JsonText.skipBlanks rest).isEmpty then some held else none

end RecordStore
