/-! # The tree of loggers

Loggers form a tree with the root logger on top. A logger enters it when it is first used, below
the nearest logger whose name stands above its own (`namesAbove`); a later logger whose name was
sought in vain then comes in between. `Tree.isBelow` follows the tree upward. -/

namespace CodeMap.Journal

/-- The name of the root logger, which is also that of a logger without a name. -/
def rootName : String := "root"

/-- The full name of a logger. -/
def loggerName (name : String) : String := if name = "" then rootName else name

/-- The names above a reversed name, reversed too: it is cut at its dots, from the last one on, and
a dot right before a cut is passed over. -/
def cuts : List Char → List (List Char)
  | [] => []
  | ['.'] => []
  | '.' :: c :: rest => (c :: rest) :: cuts rest
  | _ :: rest => cuts rest

/-- The names above a name, the nearest first. -/
def namesAbove (name : String) : List String :=
  (cuts name.toList.reverse).map fun cs => String.ofList cs.reverse

structure Logger where
  name : String
  /-- The logger right above it; without one the root logger is. -/
  parent : Option String
  /-- The names above its own that no logger had when it entered the tree. -/
  sought : List String
  deriving DecidableEq, Repr

/-- The loggers below the root logger, in the order in which they entered the tree. -/
abbrev Tree := List Logger

namespace Tree

def has (t : Tree) (name : String) : Bool := t.any fun l => l.name = name

/-- The logger below a new one that it sought, unless its parent's name extends the new name. -/
def adopt (name : String) (l : Logger) : Logger :=
  if l.sought.contains name && !name.toList.isPrefixOf (l.parent.getD rootName).toList then
    { l with parent := some name }
  else l

/-- The tree after a logger is used. -/
def use (t : Tree) (name : String) : Tree :=
  if name = rootName ∨ t.has name then t
  else
    let above := namesAbove name
    t.map (adopt name) ++
      [{ name := name, parent := above.find? t.has, sought := above.takeWhile fun n => !t.has n }]

/-- Whether at most `steps` steps upward lead from a logger to the logger `top`. -/
def leadsTo (t : Tree) (top : String) : Nat → String → Bool
  | 0, name => name = top
  | steps + 1, name =>
    name = top ||
      match (t.find? fun l => l.name = name).bind Logger.parent with
      | some parent => t.leadsTo top steps parent
      | none => false

/-- Whether a logger is `top` or below it; the way up meets each logger at most once. -/
def isBelow (t : Tree) (top name : String) : Bool := t.leadsTo top t.length name

end Tree

/-- The logger at the top of this library. -/
def package : String := "sourcemapper"

def packageLoggers : List String :=
  [package, package ++ ".errors.codes", package ++ ".parser", package ++ ".backward"]

/-- The tree that holds the loggers of this library alone. -/
def Tree.initial : Tree := packageLoggers.foldl Tree.use []

end CodeMap.Journal
