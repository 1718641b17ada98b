/-! # Faults of JSON text

A text may break the grammar at a place, nest its containers too deeply, or hold an integer of too
many digits. How deep is too deep depends on the call stack (`Limits`). -/

namespace CodeMap.Json

/-- What the grammar misses or refuses at a place of the text. -/
inductive Cause
  | byteOrderMark
  | missingValue
  | missingKey
  | missingColon
  | missingComma
  | extraData
  | unterminatedText
  | controlCharacter
  | badEscape
  | badCodeUnit
  deriving DecidableEq, Repr

inductive Container
  | array
  | object
  deriving DecidableEq, Repr

/-- A place in a text: its line and column, counted from one, and the number of characters before
it. -/
structure Place where
  line : Nat
  column : Nat
  offset : Nat
  deriving DecidableEq, Repr

inductive Fault
  | malformed (cause : Cause) (place : Place)
  | tooDeep (container : Container)
  | tooManyDigits (count : Nat)
  deriving DecidableEq, Repr

def Cause.message : Cause → String
  | .byteOrderMark => "Unexpected UTF-8 BOM (decode using utf-8-sig)"
  | .missingValue => "Expecting value"
  | .missingKey => "Expecting property name enclosed in double quotes"
  | .missingColon => "Expecting ':' delimiter"
  | .missingComma => "Expecting ',' delimiter"
  | .extraData => "Extra data"
  | .unterminatedText => "Unterminated string starting at"
  | .controlCharacter => "Invalid control character at"
  | .badEscape => "Invalid \\escape"
  | .badCodeUnit => "Invalid \\uXXXX escape"

def Container.name : Container → String
  | .array => "array"
  | .object => "object"

/-- The place in `whole` where its suffix `rest` begins. -/
def Place.before (whole rest : List Char) : Place :=
  let read := whole.take (whole.length - rest.length)
  { line := 1 + read.count '\n'
    column := 1 + (read.reverse.takeWhile (· ≠ '\n')).length
    offset := read.length }

def Place.text (p : Place) : String :=
  "line " ++ toString p.line ++ " column " ++ toString p.column ++
    " (char " ++ toString p.offset ++ ")"

/-- The largest number of digits of an integer. -/
def maxDigits : Nat := 4300

/-- The room that the call stack leaves: at most `depth` containers may be open at once while a text
is read, and a value of at most `shown` levels can be written into a message, which is made further
down the stack. There is always room for a document and for a value that is no container. -/
structure Limits where
  depth : Nat
  shown : Nat
  two_le_depth : 2 ≤ depth
  shown_pos : 0 < shown
  deriving Repr

/-- The room at the outermost level of a program whose stack holds 1000 calls. -/
def Limits.standard : Limits := ⟨992, 989, by decide, by decide⟩

def Fault.message : Fault → String
  | .malformed cause place => cause.message ++ ": " ++ place.text
  | .tooDeep container =>
    "maximum recursion depth exceeded while decoding a JSON " ++ container.name ++
      " from a unicode string"
  | .tooManyDigits count =>
    "Exceeds the limit (" ++ toString maxDigits ++
      " digits) for integer string conversion: value has " ++ toString count ++
      " digits; use sys.set_int_max_str_digits() to increase the limit"

end CodeMap.Json
