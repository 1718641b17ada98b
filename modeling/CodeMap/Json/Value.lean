import CodeMap.Decimal

/-! # JSON values

Integers are unbounded and kept apart from floating-point numbers. An object is the list of its
members in the order of the text, where a key may occur more than once; `merged` keeps one member
of each key. -/

namespace CodeMap

inductive Json
  | null
  | bool (b : Bool)
  | int (n : Int)
  | float (x : Decimal.Binary64)
  | text (s : String)
  | array (items : List Json)
  | object (members : List (String × Json))
  deriving Repr, Inhabited

namespace Json

/-- Puts a value under a key: in the place of the key's member if there is one, otherwise behind
the others. -/
def put (key : String) (value : Json) : List (String × Json) → List (String × Json)
  | [] => [(key, value)]
  | (k, v) :: rest => if k = key then (key, value) :: rest else (k, v) :: put key value rest

/-- One member for each key: its last value at its first place. -/
def dedup (members : List (String × Json)) : List (String × Json) :=
  members.foldl (fun done (k, v) => put k v done) []

mutual

/-- The value with one member for each key, in every object inside it. -/
def merged : Json → Json
  | .array items => .array (mergedItems items)
  | .object members => .object (dedup (mergedMembers members))
  | v => v

def mergedItems : List Json → List Json
  | [] => []
  | v :: rest => v.merged :: mergedItems rest

def mergedMembers : List (String × Json) → List (String × Json)
  | [] => []
  | (k, v) :: rest => (k, v.merged) :: mergedMembers rest

end

end Json

end CodeMap
