import CodeMap.Chart

/-! # From generated to source positions

`Chart.sourcePosition` finds where a generated position comes from; `Chart.sourceLineStart` asks for
a whole generated line and reports the start of its source line. -/

namespace CodeMap

/-- The segment that covers a column: the last one that starts at or before it, or else the
first. -/
def Line.covering? (line : Line) (column : Int) : Option Segment :=
  (line.reverse.find? fun s => s.generatedColumn ≤ column).or line.head?

/-- The number of a source that the table does not hold. -/
structure MissingSource where
  source : Int
  deriving DecidableEq, Repr

namespace Chart

/-- The source position of a generated position. -/
def sourcePosition (c : Chart) (line column : Int) : Option Location := do
  let segments ← c.line? line
  let s ← Line.covering? segments column
  return ⟨s.sourceLine, s.sourceColumn, c.source? s.file, c.name? s.name⟩

/-- The start of the source line of a generated line. Its source must be in the table; a
negative number counts from the table's end. -/
def sourceLineStart (c : Chart) (line : Int) : Except MissingSource (Option Location) :=
  match (c.line? line).bind List.head? with
  | none => .ok none
  | some s =>
    match entryFromEither? c.sources s.file with
    | none => .error ⟨s.file⟩
    | some file => .ok (some ⟨s.sourceLine, 0, file, c.name? s.name⟩)

end Chart

end CodeMap
