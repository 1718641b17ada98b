/-! # Charts

A segment ties a column of a generated line to a position in a source file. A chart holds the
segments of every generated line and the tables that their numbers refer to.

All coordinates are counted from zero; a map may give negative ones. Lines and table entries are
looked up by integers; outside the range there is nothing. -/

namespace CodeMap

/-- One mapped point of a generated line. -/
structure Segment where
  generatedColumn : Int
  file : Int
  sourceLine : Int
  sourceColumn : Int
  name : Option Int
  deriving DecidableEq, Repr

/-- The segments of one generated line, in the order of the mappings text. -/
abbrev Line := List Segment

/-- A position found by a query, with the file it lies in and the symbol there, if they are
known. -/
structure Location where
  line : Int
  column : Int
  file : Option String
  name : Option String
  deriving DecidableEq, Repr

/-- The segments of a map with its tables of sources and names. -/
structure Chart where
  lines : List Line := []
  sources : List String := []
  names : List String := []
  deriving DecidableEq, Repr

/-- The entry of a list at an integer position, counted from zero. -/
def entryAt? {α : Type} (entries : List α) (i : Int) : Option α :=
  if i < 0 then none else entries[i.toNat]?

/-- The entry of a list at an integer position, where negative ones count from the end. -/
def entryFromEither? {α : Type} (entries : List α) (i : Int) : Option α :=
  entryAt? entries (if i < 0 then i + entries.length else i)

namespace Chart

def lineCount (c : Chart) : Nat := c.lines.length

def line? (c : Chart) (n : Int) : Option Line := entryAt? c.lines n

def source? (c : Chart) (i : Int) : Option String := entryAt? c.sources i

def name? (c : Chart) (i : Option Int) : Option String := i.bind (entryAt? c.names)

end Chart

end CodeMap
