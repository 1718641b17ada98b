import CodeMap.Chart
import CodeMap.Quantity

/-! # The mappings text

Generated lines are separated by semicolons and the segments of a line by commas. A segment is a
run of quantities, each the difference to the same quantity of an earlier segment: the generated
column counts within its line; the file, the position in it and the name count through the
whole text.

`readDeltas` reads the differences and stops at the first segment that is no run of quantities or
holds none. `place` adds them up, which cannot fail. `write` is the other way. -/

namespace CodeMap.Text

/-! ### Separated fields

A text is cut at every occurrence of a separator. There is always one field more than there are
separators, so the empty text has one empty field. -/

/-- The first field of a text and the fields after it. -/
def firstField (sep : Char) (cs : List Char) : List Char × List (List Char) :=
  cs.foldr (fun c (first, rest) => if c = sep then ([], first :: rest) else (c :: first, rest))
    ([], [])

def fields (sep : Char) (cs : List Char) : List (List Char) :=
  (firstField sep cs).1 :: (firstField sep cs).2

/-- The text whose fields are given, with a separator between two of them. -/
def joinFields (sep : Char) (fs : List (List Char)) : List Char := [sep].intercalate fs

@[simp] theorem fields_nil (sep : Char) : fields sep [] = [[]] := rfl

theorem fields_eq_splitOn (sep : Char) (cs : List Char) : fields sep cs = cs.splitOn sep := by
  induction cs with
  | nil => rfl
  | cons c cs ih =>
    rw [List.splitOn_cons_eq_if_modifyHead, ← ih]
    by_cases h : c = sep <;> simp [fields, firstField, h]

end CodeMap.Text

namespace CodeMap.Mappings

/-! ### Reading -/

inductive SegmentFault
  | quantity (fault : Quantity.Fault)
  | noColumn
  deriving DecidableEq, Repr

/-- The first segment that is refused, with the numbers of its line and of the segment. -/
structure Fault where
  cause : SegmentFault
  line : Nat
  segment : Nat
  deriving DecidableEq, Repr

/-- The differences that one segment gives: the generated column and, as far as present, the
source file, the line and the column in it and the name. -/
abbrev Deltas := List Int

def readSegment (text : List Char) : Except SegmentFault Deltas :=
  match Quantity.decode text with
  | .error fault => .error (.quantity fault)
  | .ok [] => .error .noColumn
  | .ok deltas => .ok deltas

/-- Reads the segments of the line with a given number. -/
def readLine (line : Nat) (text : List Char) : Except Fault (List Deltas) :=
  if text = [] then .ok []
  else (Text.fields ',' text).zipIdx.mapM fun (segment, i) =>
    (readSegment segment).mapError (⟨·, line, i⟩)

/-- Reads the segments of every line. -/
def readDeltas (text : List Char) : Except Fault (List (List Deltas)) :=
  (Text.fields ';' text).zipIdx.mapM fun (line, i) => readLine i line

/-! ### Adding up -/

/-- The sums that run through the whole text. -/
structure Totals where
  file : Int := 0
  sourceLine : Int := 0
  sourceColumn : Int := 0
  name : Int := 0
  deriving DecidableEq, Repr

namespace Totals

/-- The sums after one more segment; a difference that is absent adds nothing. -/
def advance (t : Totals) (d : Deltas) : Totals where
  file := t.file + d.getD 1 0
  sourceLine := t.sourceLine + d.getD 2 0
  sourceColumn := t.sourceColumn + d.getD 3 0
  name := t.name + d.getD 4 0

/-- The segment at the present sums, which is named if its differences hold one for the name. -/
def segment (t : Totals) (column : Int) (d : Deltas) : Segment where
  generatedColumn := column
  file := t.file
  sourceLine := t.sourceLine
  sourceColumn := t.sourceColumn
  name := if 4 < d.length then some t.name else none

end Totals

/-- Adds up the differences of one line from the sums and the column before it. -/
def placeLine (t : Totals) (column : Int) : List Deltas → Line
  | [] => []
  | d :: rest =>
    let t := t.advance d
    let column := column + d.getD 0 0
    t.segment column d :: placeLine t column rest

/-- Adds up the differences of the lines from the sums before them. -/
def place (t : Totals) : List (List Deltas) → List Line
  | [] => []
  | line :: rest => placeLine t 0 line :: place (line.foldl Totals.advance t) rest

/-- The lines that a mappings text describes. -/
def read (text : String) : Except Fault (List Line) := place {} <$> readDeltas text.toList

/-! ### Writing

Every segment becomes the shortest text of its differences to the segments before it. A segment
without a name leaves the sum of the names as it is. -/

namespace Totals

/-- The sums at a segment that comes after the present ones. -/
def after (t : Totals) (s : Segment) : Totals where
  file := s.file
  sourceLine := s.sourceLine
  sourceColumn := s.sourceColumn
  name := s.name.getD t.name

/-- The differences that lead from the sums and the column before a segment to the segment. -/
def deltasTo (t : Totals) (column : Int) (s : Segment) : Deltas :=
  [s.generatedColumn - column, s.file - t.file, s.sourceLine - t.sourceLine,
    s.sourceColumn - t.sourceColumn] ++ (s.name.map (· - t.name)).toList

end Totals

def lineDeltas (t : Totals) (column : Int) : Line → List Deltas
  | [] => []
  | s :: rest => t.deltasTo column s :: lineDeltas (t.after s) s.generatedColumn rest

def deltas (t : Totals) : List Line → List (List Deltas)
  | [] => []
  | line :: rest => lineDeltas t 0 line :: deltas (line.foldl Totals.after t) rest

def writeLine (line : List Deltas) : List Char := Text.joinFields ',' (line.map Quantity.encode)

/-- The mappings text of some lines. -/
def write (lines : List Line) : String :=
  String.ofList (Text.joinFields ';' ((deltas {} lines).map writeLine))

end CodeMap.Mappings
