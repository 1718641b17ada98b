import CodeMap.Json.Value
import CodeMap.Text.Quoted

/-! # JSON values in messages

A value inside a message is shown in full: a text as it is, and inside containers between quotes.
Truth values and null are written `True`, `False` and `None`. Each level of a value takes one more
call to show it, so a value with too many of them (`levels`) cannot be shown. -/

namespace CodeMap.Json

def intText (n : Int) : String := toString n

mutual

/-- The text of a value inside a container. -/
def inner : Json → String
  | .null => "None"
  | .bool true => "True"
  | .bool false => "False"
  | .int n => intText n
  | .float x => x.text
  | .text s => Text.quoted s
  | .array [] => "[]"
  | .array (v :: rest) => "[" ++ v.inner ++ innerItems rest
  | .object [] => "\x7b\x7d"
  | .object ((k, v) :: rest) =>
    "\x7b" ++ Text.quoted k ++ ": " ++ v.inner ++ innerMembers rest

/-- The items after the first one and the closing bracket. -/
def innerItems : List Json → String
  | [] => "]"
  | v :: rest => ", " ++ v.inner ++ innerItems rest

/-- The members after the first one and the closing brace. -/
def innerMembers : List (String × Json) → String
  | [] => "\x7d"
  | (k, v) :: rest => ", " ++ Text.quoted k ++ ": " ++ v.inner ++ innerMembers rest

end

/-- The text of a value in a message. -/
def shown : Json → String
  | .text s => s
  | v => v.inner

mutual

/-- The number of levels of a value: one more for a container than for what it holds. -/
def levels : Json → Nat
  | .array items => itemLevels items + 1
  | .object members => memberLevels members + 1
  | _ => 1

def itemLevels : List Json → Nat
  | [] => 0
  | v :: rest => max v.levels (itemLevels rest)

def memberLevels : List (String × Json) → Nat
  | [] => 0
  | (_, v) :: rest => max v.levels (memberLevels rest)

end

def typeName : Json → String
  | .null => "NoneType"
  | .bool _ => "bool"
  | .int _ => "int"
  | .float _ => "float"
  | .text _ => "str"
  | .array _ => "list"
  | .object _ => "dict"

end CodeMap.Json
