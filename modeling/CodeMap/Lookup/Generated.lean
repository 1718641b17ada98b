import CodeMap.Chart

/-! # From source to generated positions

The generated lines are searched in order for a segment of the wanted source line that starts
after the wanted column. If a segment before it on the same generated line starts at or before the
column, the position lies between the two (`Find.exact`). Otherwise the generated line is kept as a
fallback, and the second such line is preferred to the first: where one source line becomes a
heading and a body, a debugger stops in the body. A segment of a later source line ends the
search once there is a fallback. -/

namespace CodeMap

/-- The generated lines to fall back on. -/
inductive Fallback
  | none
  | one (line : Nat)
  | two (first second : Nat)
  deriving DecidableEq, Repr

namespace Fallback

/-- Keeps one more line, unless it is known or there are two already. -/
def note (line : Nat) : Fallback → Fallback
  | .none => .one line
  | .one first => if first = line then .one first else .two first line
  | .two first second => .two first second

/-- The preferred line: the second one. -/
def best? : Fallback → Option Nat
  | .none => Option.none
  | .one line => some line
  | .two _ second => some second

end Fallback

/-- How far a search has come: it goes on, or it ends with a position or with its fallback. -/
inductive Find
  | searching (fallback : Fallback)
  | exact (line : Nat) (column : Int)
  | stopped (fallback : Fallback)
  deriving DecidableEq, Repr

namespace Find

/-- The position that a search gives: a fallback line starts at column 0. -/
def position? : Find → Option (Nat × Int)
  | .exact line column => some (line, column)
  | .searching fallback => fallback.best?.map (·, 0)
  | .stopped fallback => fallback.best?.map (·, 0)

end Find

/-- Searches the segments of the generated line `n`; `before` is the column of the last segment of
the wanted line that starts at or before the wanted column. -/
def searchLine (line column : Int) (n : Nat) (fallback : Fallback) (before : Option Int) :
    Line → Find
  | [] => .searching fallback
  | s :: rest =>
    if s.sourceLine = line then
      if s.sourceColumn ≤ column then
        searchLine line column n fallback (some s.sourceColumn) rest
      else match before with
        | some start => .exact n (column - start)
        | none => searchLine line column n (fallback.note n) none rest
    else if line < s.sourceLine ∧ fallback ≠ .none then .stopped fallback
    else searchLine line column n fallback before rest

/-- Searches the generated lines from number `n` on. -/
def search (line column : Int) (n : Nat) (fallback : Fallback) : List Line → Find
  | [] => .searching fallback
  | segments :: rest =>
    match searchLine line column n fallback none segments with
    | .searching fallback => search line column (n + 1) fallback rest
    | found => found

/-- The generated position of a source position, in the generated file with a given name. -/
def Chart.generatedPosition (c : Chart) (file : String) (line column : Int) : Option Location :=
  (search line column 0 .none c.lines).position?.map fun (n, col) => ⟨n, col, file, none⟩

end CodeMap
