import CodeMap.Proofs.Mappings.Cells
import CodeMap.Proofs.Mappings.RoundTrip
import CodeMap.Report

/-! # Joining two mappings texts

A text behind a semicolon goes on with the sums of the text before it, so its lines are its own
lines moved by these sums (`place_append`, `place_add`), and a fault in it is its own fault further
down (`cells_join`). The sums can be seen from the segments (`foldl_after_eq`). The main statement
is `chart_join`. -/

namespace CodeMap

/-- A segment whose source position and name are moved by some sums. -/
def Segment.moved (t : Mappings.Totals) (s : Segment) : Segment :=
  { s with
    file := s.file + t.file
    sourceLine := s.sourceLine + t.sourceLine
    sourceColumn := s.sourceColumn + t.sourceColumn
    name := s.name.map (· + t.name) }

namespace Mappings

namespace Totals

instance : Add Totals :=
  ⟨fun t u => ⟨t.file + u.file, t.sourceLine + u.sourceLine, t.sourceColumn + u.sourceColumn,
    t.name + u.name⟩⟩

/-- The sums at the end of some segments: the position of the last one and the last name. -/
def atEnd (segments : List Segment) : Totals where
  file := (segments.getLast?.map Segment.file).getD 0
  sourceLine := (segments.getLast?.map Segment.sourceLine).getD 0
  sourceColumn := (segments.getLast?.map Segment.sourceColumn).getD 0
  name := (segments.filterMap Segment.name).getLast?.getD 0

theorem add_def (t u : Totals) :
    t + u = ⟨t.file + u.file, t.sourceLine + u.sourceLine, t.sourceColumn + u.sourceColumn,
      t.name + u.name⟩ := rfl

theorem zero_add (t : Totals) : ({} : Totals) + t = t := by simp [add_def]

theorem advance_add (t u : Totals) (d : Deltas) : (t + u).advance d = t.advance d + u := by
  simp [add_def, advance, Int.add_right_comm]

theorem foldl_advance_add (t u : Totals) (ds : List Deltas) :
    ds.foldl advance (t + u) = ds.foldl advance t + u := by
  induction ds generalizing t with
  | nil => rfl
  | cons d ds ih => rw [List.foldl_cons, advance_add, ih, List.foldl_cons]

theorem segment_add (t u : Totals) (column : Int) (d : Deltas) :
    (t + u).segment column d = (t.segment column d).moved u := by
  by_cases h : 4 < d.length <;> simp [add_def, segment, Segment.moved, h]

theorem name_foldl_after (t : Totals) (segments : List Segment) :
    (segments.foldl after t).name = (segments.filterMap Segment.name).getLast?.getD t.name := by
  induction segments generalizing t with
  | nil => rfl
  | cons s segments ih =>
    rw [List.foldl_cons, ih, List.filterMap_cons]
    cases hname : s.name with
    | none => simp [after, hname]
    | some n =>
      have hafter : (t.after s).name = n := by simp [after, hname]
      rw [hafter, List.getLast?_cons, Option.getD_some]

/-- The sums after some segments are those of the last one and of the last name. -/
theorem foldl_after_eq (segments : List Segment) : segments.foldl after {} = atEnd segments := by
  have hname := name_foldl_after {} segments
  rcases List.eq_nil_or_concat' segments with rfl | ⟨init, last, rfl⟩
  · rfl
  · rw [List.foldl_append] at hname ⊢
    simp only [atEnd, ← hname, List.getLast?_append, List.getLast?_singleton]
    rfl

end Totals

theorem placeLine_add (t u : Totals) (column : Int) (ds : List Deltas) :
    placeLine (t + u) column ds = (placeLine t column ds).map (Segment.moved u) := by
  induction ds generalizing t column with
  | nil => rfl
  | cons d ds ih =>
    rw [placeLine, placeLine, Totals.advance_add, Totals.segment_add, ih, List.map_cons]

/-- Adding up from larger sums moves every segment. -/
theorem place_add (t u : Totals) (ds : List (List Deltas)) :
    place (t + u) ds = (place t ds).map (·.map (Segment.moved u)) := by
  induction ds generalizing t with
  | nil => rfl
  | cons line ds ih =>
    rw [place, place, placeLine_add, Totals.foldl_advance_add, ih, List.map_cons]

/-- Lines behind others are added up from the sums of these. -/
theorem place_append (t : Totals) (xs ys : List (List Deltas)) :
    place t (xs ++ ys) = place t xs ++ place ((place t xs).flatten.foldl Totals.after t) ys := by
  induction xs generalizing t with
  | nil => rfl
  | cons line xs ih =>
    rw [List.cons_append, place, ih, place, List.flatten_cons, List.foldl_append,
      foldl_after_placeLine, List.cons_append]

@[simp] theorem length_place (t : Totals) (ds : List (List Deltas)) :
    (place t ds).length = ds.length := by
  induction ds generalizing t with
  | nil => rfl
  | cons line ds ih => rw [place, List.length_cons, ih, List.length_cons]

/-! ### Cells further down -/

/-- A cell that stands `n` lines further down. -/
def Cell.down (n : Nat) (c : Cell) : Cell := { c with line := c.line + n }

/-- A fault that lies `n` lines further down. -/
def Fault.down (n : Nat) (f : Fault) : Fault := { f with line := f.line + n }

theorem Cell.fault?_down (n : Nat) (c : Cell) : (c.down n).fault? = c.fault?.map (Fault.down n) := by
  rw [fault?, fault?, Option.map_map]
  rfl

theorem numbered_add (n k i : Nat) (texts : List (List Char)) :
    numbered (n + k) i texts = (numbered n i texts).map (Cell.down k) := by
  rw [numbered, numbered, List.map_map]
  rfl

theorem cellsFrom_add (n k : Nat) (lines : List (List Char)) :
    cellsFrom (n + k) lines = (cellsFrom n lines).map (Cell.down k) := by
  induction lines generalizing n with
  | nil => rfl
  | cons line lines ih =>
    have hnext := ih (n + 1)
    rw [Nat.add_right_comm] at hnext
    rw [cellsFrom_cons, cellsFrom_cons, List.map_append, numbered_add, hnext]

/-- The cells of a joined text are those of both parts, the later ones further down. -/
theorem cells_join (first second : List Char) :
    cells (first ++ ';' :: second) =
      cells first ++ (cells second).map (Cell.down (first.count ';' + 1)) := by
  rw [cells, List.splitOn_append_cons_self, cellsFrom_append, Text.length_splitOn, cellsFrom_add]
  rfl

theorem findSome?_cells_down (n : Nat) (cs : List Cell) :
    (cs.map (Cell.down n)).findSome? Cell.fault? = (cs.findSome? Cell.fault?).map (Fault.down n) := by
  rw [List.findSome?_map, List.map_findSome?]
  exact congrArg (List.findSome? · cs) (funext fun c => Cell.fault?_down n c)

/-! ### Reading a joined text -/

theorem errorOf?_readDeltas_join (first second : List Char) :
    errorOf? (readDeltas (first ++ ';' :: second)) =
      (errorOf? (readDeltas first)).or
        ((errorOf? (readDeltas second)).map (Fault.down (first.count ';' + 1))) := by
  simp only [errorOf?_readDeltas]
  rw [cells_join, List.findSome?_append, findSome?_cells_down]

theorem readDeltas_join {first second : List Char} {xs ys : List (List Deltas)}
    (hx : readDeltas first = .ok xs) (hy : readDeltas second = .ok ys) :
    readDeltas (first ++ ';' :: second) = .ok (xs ++ ys) := by
  rw [readDeltas_eq_ok_iff] at hx hy ⊢
  rw [List.splitOn_append_cons_self, List.map_append, hx, hy, List.map_append]

theorem length_of_readDeltas {text : List Char} {ds : List (List Deltas)}
    (h : readDeltas text = .ok ds) : ds.length = text.count ';' + 1 := by
  have hlength := congrArg List.length (readDeltas_eq_ok_iff.1 h)
  simpa [Text.length_splitOn] using hlength.symm

theorem toList_join (first second : String) :
    (first ++ ";" ++ second).toList = first.toList ++ ';' :: second.toList := by
  simp

/-- The first part is refused as it is alone. -/
theorem read_join_of_error {first : String} {f : Fault} (h : read first = .error f)
    (second : String) : read (first ++ ";" ++ second) = .error f := by
  rw [← errorOf?_eq_some_iff, read, errorOf?_map] at h ⊢
  rw [toList_join, errorOf?_readDeltas_join, h, Option.some_or]

/-- The second part is refused as it is alone, below the lines of the first. -/
theorem read_join_of_ok_of_error {first second : String} {lines : List Line} {f : Fault}
    (hx : read first = .ok lines) (hy : read second = .error f) :
    read (first ++ ";" ++ second) = .error (f.down lines.length) := by
  obtain ⟨xs, hxs, rfl⟩ := map_eq_ok_iff.1 hx
  have hnone : errorOf? (readDeltas first.toList) = none := errorOf?_eq_none_iff.2 ⟨xs, hxs⟩
  rw [← errorOf?_eq_some_iff, read, errorOf?_map] at hy ⊢
  rw [toList_join, errorOf?_readDeltas_join, hnone, hy, length_place, length_of_readDeltas hxs]
  rfl

/-- The lines of the second part are its own, moved by the sums at the end of the first. -/
theorem read_join_of_ok {first second : String} {xs ys : List Line} (hx : read first = .ok xs)
    (hy : read second = .ok ys) :
    read (first ++ ";" ++ second) =
      .ok (xs ++ ys.map (·.map (Segment.moved (.atEnd xs.flatten)))) := by
  obtain ⟨ds, hds, rfl⟩ := map_eq_ok_iff.1 hx
  obtain ⟨es, hes, rfl⟩ := map_eq_ok_iff.1 hy
  rw [read, toList_join, readDeltas_join hds hes, ← place_add, Totals.zero_add,
    ← Totals.foldl_after_eq]
  exact congrArg Except.ok (place_append {} ds es)

end Mappings

open Mappings

/-- Two mappings texts with a semicolon between them. If the first is refused, so is the whole, with
the same fault. If only the second is refused, the whole is refused with its fault below the lines
of the first, which is reported as before but for the place. Otherwise the lines of the second
follow those of the first: each source position and name in them is moved by the last one of the
first. -/
theorem chart_join (d : Document) (first second : String) :
    (∀ f, { d with mappings := some first }.chart = .error f →
      { d with mappings := some (first ++ ";" ++ second) }.chart = .error f) ∧
    (∀ c f, { d with mappings := some first }.chart = .ok c →
      { d with mappings := some second }.chart = .error f →
      { d with mappings := some (first ++ ";" ++ second) }.chart =
        .error { f with line := f.line + c.lineCount } ∧
      ({ f with line := f.line + c.lineCount } : Fault).failure =
        f.failure.locate (some (f.line + c.lineCount)) (some f.segment)) ∧
    ∀ c c', { d with mappings := some first }.chart = .ok c →
      { d with mappings := some second }.chart = .ok c' →
      { d with mappings := some (first ++ ";" ++ second) }.chart =
        .ok { c with lines :=
          c.lines ++ c'.lines.map (·.map (Segment.moved (.atEnd c.lines.flatten))) } := by
  have hchart (text : String) : { d with mappings := some text }.chart =
      (⟨·, d.resolvedSources, d.names⟩) <$> read text := Document.chart_of_mappings rfl
  simp only [hchart]
  refine ⟨fun f hf => ?_, fun c f hc hf => ⟨?_, rfl⟩, fun c c' hc hc' => ?_⟩
  · rw [← errorOf?_eq_some_iff, errorOf?_map, errorOf?_eq_some_iff] at hf
    rw [read_join_of_error hf]
    rfl
  · obtain ⟨xs, hxs, rfl⟩ := map_eq_ok_iff.1 hc
    rw [← errorOf?_eq_some_iff, errorOf?_map, errorOf?_eq_some_iff] at hf
    rw [read_join_of_ok_of_error hxs hf]
    rfl
  · obtain ⟨xs, hxs, rfl⟩ := map_eq_ok_iff.1 hc
    obtain ⟨ys, hys, rfl⟩ := map_eq_ok_iff.1 hc'
    rw [read_join_of_ok hxs hys]
    rfl

theorem chart_join_across_lines :
    (⟨3, "", "", [], [], some "KACAE,C;"⟩ : Document).chart =
      .ok ⟨[[⟨5, 0, 1, 0, some 2⟩, ⟨6, 0, 1, 0, none⟩], []], [], []⟩ ∧
    (⟨3, "", "", [], [], some "A;CCDAC"⟩ : Document).chart =
      .ok ⟨[[⟨0, 0, 0, 0, none⟩], [⟨1, 1, -1, 0, some 1⟩]], [], []⟩ ∧
    (⟨3, "", "", [], [], some ("KACAE,C;" ++ ";" ++ "A;CCDAC")⟩ : Document).chart =
      .ok ⟨[[⟨5, 0, 1, 0, some 2⟩, ⟨6, 0, 1, 0, none⟩], [], [⟨0, 0, 1, 0, none⟩],
        [⟨1, 1, 0, 0, some 3⟩]], [], []⟩ ∧
    (⟨3, "", "", [], [], some "A;A,?"⟩ : Document).chart =
      .error ⟨.quantity (.badCharacter '?'), 1, 1⟩ ∧
    (⟨3, "", "", [], [], some ("KACAE,C;" ++ ";" ++ "A;A,?")⟩ : Document).chart =
      .error ⟨.quantity (.badCharacter '?'), 3, 1⟩ ∧
    (⟨3, "", "", [], [], some ("A;A,?" ++ ";" ++ "$")⟩ : Document).chart =
      .error ⟨.quantity (.badCharacter '?'), 1, 1⟩ := by
  have h := chart_join ⟨3, "", "", [], [], none⟩ "KACAE,C;"
  refine ⟨rfl, rfl, ?_, rfl, ?_, ?_⟩
  · exact (h "A;CCDAC").2.2 _ _ rfl rfl
  · exact ((h "A;A,?").2.1 _ _ rfl rfl).1
  · exact (chart_join ⟨3, "", "", [], [], none⟩ "A;A,?" "$").1 _ rfl

end CodeMap
