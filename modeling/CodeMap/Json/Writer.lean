import CodeMap.Json.Value

/-! # Writing JSON text

Values are written on one line in ASCII: a character outside the printable ones is written by its
UTF-16 code units in hexadecimal. Items and members are separated by a comma and a space, a key and
its value by a colon and a space. -/

namespace CodeMap.Json

def hexDigit (n : Nat) : Char := Nat.digitChar (n % 16)

/-- A UTF-16 code unit as an escape. -/
def unitEscape (n : Nat) : List Char :=
  ['\\', 'u', hexDigit (n / 4096), hexDigit (n / 256), hexDigit (n / 16), hexDigit n]

/-- One character inside a quoted text. -/
def writeChar (c : Char) : List Char :=
  if c = '"' then ['\\', '"']
  else if c = '\\' then ['\\', '\\']
  else if c = '\n' then ['\\', 'n']
  else if c = '\r' then ['\\', 'r']
  else if c = '\t' then ['\\', 't']
  else if c = '\x08' then ['\\', 'b']
  else if c = '\x0c' then ['\\', 'f']
  else if ' ' ≤ c ∧ c ≤ '~' then [c]
  else if c.toNat < 0x10000 then unitEscape c.toNat
  else
    unitEscape (0xD800 + (c.toNat - 0x10000) / 0x400) ++
      unitEscape (0xDC00 + (c.toNat - 0x10000) % 0x400)

def writeText (s : String) : List Char := '"' :: (s.toList.flatMap writeChar ++ ['"'])

def writeInt (n : Int) : List Char :=
  if n < 0 then '-' :: Nat.toDigits 10 n.natAbs else Nat.toDigits 10 n.natAbs

/-- A floating-point number, with words for the numbers that have no digits. -/
def writeFloat : Decimal.Binary64 → List Char
  | .nan => ['N', 'a', 'N']
  | .infinite negative =>
    (if negative then ['-'] else []) ++ ['I', 'n', 'f', 'i', 'n', 'i', 't', 'y']
  | x => x.text.toList

mutual

def write : Json → List Char
  | .null => ['n', 'u', 'l', 'l']
  | .bool true => ['t', 'r', 'u', 'e']
  | .bool false => ['f', 'a', 'l', 's', 'e']
  | .int n => writeInt n
  | .float x => writeFloat x
  | .text s => writeText s
  | .array [] => ['[', ']']
  | .array (v :: rest) => '[' :: (write v ++ writeItems rest)
  | .object [] => ['\x7b', '\x7d']
  | .object ((k, v) :: rest) =>
    '\x7b' :: (writeText k ++ ':' :: ' ' :: (write v ++ writeMembers rest))

/-- The items after the first one and the end of the array. -/
def writeItems : List Json → List Char
  | [] => [']']
  | v :: rest => ',' :: ' ' :: (write v ++ writeItems rest)

/-- The members after the first one and the end of the object. -/
def writeMembers : List (String × Json) → List Char
  | [] => ['\x7d']
  | (k, v) :: rest =>
    ',' :: ' ' :: (writeText k ++ ':' :: ' ' :: (write v ++ writeMembers rest))

end

/-- The text of a value on one line. -/
def compress (v : Json) : String := String.ofList v.write

end CodeMap.Json
