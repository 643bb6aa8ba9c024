import RecordStore.Json.Basic

/-!
# JSON text

The compact text of a value: no blanks, entries in their order. Within a text only the quote, the
backslash and the control characters below U+0020 are escaped, the control characters by their
letter where JSON has one and by four lower-case hexadecimal digits otherwise.
-/

namespace RecordStore

namespace Json

/-- One character of a text as it stands between the quotes. -/
def escapedChar (c : Char) : List Char :=
  if c = '"' then ['\\', '"']
  else if c = '\\' then ['\\', '\\']
  else if c = '\x08' then ['\\', 'b']
  else if c = '\t' then ['\\', 't']
  else if c = '\n' then ['\\', 'n']
  else if c = '\x0c' then ['\\', 'f']
  else if c = '\r' then ['\\', 'r']
  else if c.toNat < 0x20 then
    ['\\', 'u', '0', '0', Nat.digitChar (c.toNat / 16), Nat.digitChar (c.toNat % 16)]
  else [c]

/-- A text in quotes. -/
def quotedChars (s : String) : List Char := '"' :: (s.toList.flatMap escapedChar ++ ['"'])

mutual

/-- The characters of the compact text of a value. -/
def chars : Json → List Char
  | .null => ['n', 'u', 'l', 'l']
  | .bool true => ['t', 'r', 'u', 'e']
  | .bool false => ['f', 'a', 'l', 's', 'e']
  | .number n => n.chars
  | .string s => quotedChars s
  | .array items => '[' :: (itemChars items ++ [']'])
  | .object entries => '{' :: (entryChars entries ++ ['}'])

/-- The texts of values with commas between them. -/
def itemChars : List Json → List Char
  | [] => []
  | [item] => item.chars
  | item :: next :: rest => item.chars ++ ',' :: itemChars (next :: rest)

/-- The texts of entries with commas between them. -/
def entryChars : List (String × Json) → List Char
  | [] => []
  | [(name, value)] => quotedChars name ++ ':' :: value.chars
  | (name, value) :: next :: rest =>
    quotedChars name ++ ':' :: (value.chars ++ ',' :: entryChars (next :: rest))

end

/-- The compact JSON text of a value. -/
def text (v : Json) : String := String.ofList v.chars

end Json

end RecordStore
