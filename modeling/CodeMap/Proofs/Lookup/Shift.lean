import CodeMap.Proofs.Lookup.Covering
import CodeMap.Proofs.Lookup.LineStart
import CodeMap.Proofs.Lookup.Renumbering

/-! # Moving the source text

A chart whose source positions are all moved by the same number of lines and of columns answers every
query as before, with the positions moved (`queries_shift`). The search for a generated position
compares source positions only with the wanted one and reports a difference of two columns, so it does
the same steps (`search_shift`). -/

namespace CodeMap

/-- The segment with its source position moved. -/
def Segment.shift (lines columns : Int) (s : Segment) : Segment :=
  { s with sourceLine := s.sourceLine + lines, sourceColumn := s.sourceColumn + columns }

def Location.shift (lines columns : Int) (p : Location) : Location :=
  { p with line := p.line + lines, column := p.column + columns }

/-- The chart with all source positions moved. -/
def Chart.shift (lines columns : Int) (c : Chart) : Chart :=
  { c with lines := c.lines.map (·.map (Segment.shift lines columns)) }

section
variable (lines columns line column : Int)

/-! ### From source to generated positions -/

theorem searchLine_shift (n : Nat) (fallback : Fallback) (before : Option Int) (segments : Line) :
    searchLine (line + lines) (column + columns) n fallback (before.map (· + columns))
        (segments.map (Segment.shift lines columns)) =
      searchLine line column n fallback before segments := by
  induction segments generalizing fallback before with
  | nil => rfl
  | cons s rest ih =>
    -- every comparison has one outcome on both sides, so the two searches branch alike
    have hline : (s.shift lines columns).sourceLine = line + lines ↔ s.sourceLine = line :=
      Int.add_left_inj lines
    have hcolumn : (s.shift lines columns).sourceColumn ≤ column + columns ↔ s.sourceColumn ≤ column :=
      Int.add_le_add_iff_right columns
    have hlater : line + lines < (s.shift lines columns).sourceLine ↔ line < s.sourceLine :=
      Int.add_lt_add_iff_right lines
    rw [List.map_cons, searchLine_cons, searchLine_cons]
    simp only [hline, hcolumn, hlater]
    split_ifs with h hle hstop
    · exact ih fallback (some s.sourceColumn)
    · cases before with
      | none => exact ih (fallback.note n) none
      | some start =>
        have hdiff : column + columns - (start + columns) = column - start := by omega
        exact congrArg (Find.exact n) hdiff
    · rfl
    · exact ih fallback before

theorem search_shift (n : Nat) (fallback : Fallback) (ls : List Line) :
    search (line + lines) (column + columns) n fallback
        (ls.map (·.map (Segment.shift lines columns))) = search line column n fallback ls := by
  induction ls generalizing n fallback with
  | nil => rfl
  | cons segments ls ih =>
    have hfirst := searchLine_shift lines columns line column n fallback none segments
    rw [Option.map_none] at hfirst
    rw [List.map_cons, search_cons, search_cons, hfirst]
    exact congrArg (Find.goOn · _) (funext fun fallback => ih (n + 1) fallback)

/-! ### From generated to source positions -/

theorem Chart.line?_shift (c : Chart) :
    (c.shift lines columns).line? line = (c.line? line).map (·.map (Segment.shift lines columns)) :=
  entryAt?_map _ c.lines line

theorem Line.covering?_shift (segments : Line) :
    Line.covering? (segments.map (Segment.shift lines columns)) column =
      (segments.covering? column).map (Segment.shift lines columns) := by
  rw [covering?, covering?, ← List.map_reverse, List.find?_map, List.head?_map, ← Option.map_or]
  rfl

namespace Chart
variable (c : Chart)

theorem generatedPosition_shift (file : String) :
    (c.shift lines columns).generatedPosition file (line + lines) (column + columns) =
      c.generatedPosition file line column := by
  rw [generatedPosition, shift, search_shift]
  rfl

theorem sourcePosition_shift :
    (c.shift lines columns).sourcePosition line column =
      (c.sourcePosition line column).map (Location.shift lines columns) := by
  rw [sourcePosition_eq_map, sourcePosition_eq_map, line?_shift]
  cases c.line? line with
  | none => rfl
  | some segments =>
    rw [Option.map_some, Option.bind_some, Option.bind_some, Line.covering?_shift]
    cases Line.covering? segments column <;> rfl

theorem sourceLineStart_shift :
    (c.shift lines columns).sourceLineStart line =
      (c.sourceLineStart line).map (Option.map (Location.shift lines 0)) := by
  have hfirst : ((c.shift lines columns).line? line).bind List.head? =
      ((c.line? line).bind List.head?).map (Segment.shift lines columns) := by
    rw [line?_shift]
    cases c.line? line with
    | none => rfl
    | some segments => exact List.head?_map
  rw [sourceLineStart, sourceLineStart, hfirst]
  cases (c.line? line).bind List.head? with
  | none => rfl
  | some s =>
    have hfile : entryFromEither? (c.shift lines columns).sources (s.shift lines columns).file =
        entryFromEither? c.sources s.file := rfl
    simp only [Option.map_some, hfile]
    cases entryFromEither? c.sources s.file <;> rfl

end Chart

end

/-- Where all source positions of a chart are moved, the generated position of a moved source position
is the one that it was, and the source position of a generated position is the moved one, in the same
file and with the same name. The start of a source line moves with the line and stays at column 0, and
is refused for the lines for which it was. -/
theorem queries_shift (c : Chart) (lines columns : Int) :
    (∀ file line column,
      (c.shift lines columns).generatedPosition file (line + lines) (column + columns) =
        c.generatedPosition file line column) ∧
    (∀ line column, (c.shift lines columns).sourcePosition line column =
      (c.sourcePosition line column).map (Location.shift lines columns)) ∧
    ∀ line,
      (c.shift lines columns).sourceLineStart line =
        (c.sourceLineStart line).map (Option.map (Location.shift lines 0)) ∧
      (∀ fault, (c.shift lines columns).sourceLineStart line = .error fault ↔
        c.sourceLineStart line = .error fault) ∧
      ∀ p, (c.shift lines columns).sourceLineStart line = .ok (some p) → p.column = 0 := by
  refine ⟨fun file line column => Chart.generatedPosition_shift lines columns line column c file,
    fun line column => Chart.sourcePosition_shift lines columns line column c, ?_⟩
  intro line
  have hstart := Chart.sourceLineStart_shift lines columns line c
  refine ⟨hstart, ?_, fun p hp => Chart.column_of_sourceLineStart hp⟩
  intro fault
  rw [hstart]
  cases c.sourceLineStart line <;> simp [Except.map]

/-- The source moves up by two lines and to the right by three columns, so its lines come before
line 0. -/
theorem queries_shift_negative_lines :
    ∃ c : Chart,
      c = ⟨[[⟨0, 0, 0, 4, none⟩, ⟨7, 0, 0, 9, some 0⟩], [⟨0, 5, 1, 0, none⟩]], ["a"], ["f"]⟩ ∧
      c.generatedPosition "b" 0 6 = some ⟨0, 2, "b", none⟩ ∧
      (c.shift (-2) 3).generatedPosition "b" (-2) 9 = some ⟨0, 2, "b", none⟩ ∧
      (c.shift (-2) 3).sourcePosition 0 8 = some ⟨-2, 12, "a", "f"⟩ ∧
      (c.shift (-2) 3).sourceLineStart 0 = .ok (some ⟨-2, 0, "a", none⟩) ∧
      (c.shift (-2) 3).sourceLineStart 1 = .error ⟨5⟩ := by
  refine ⟨_, rfl, rfl, ?_, ?_, ?_, ?_⟩
  · exact (queries_shift _ (-2) 3).1 "b" 0 6
  · exact (queries_shift _ (-2) 3).2.1 0 8
  · exact ((queries_shift _ (-2) 3).2.2 0).1
  · exact (((queries_shift _ (-2) 3).2.2 1).2.1 ⟨5⟩).2 rfl

end CodeMap
