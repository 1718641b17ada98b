import CodeMap.Mappings
import CodeMap.Proofs.Quantity.RoundTrip
import CodeMap.Proofs.Mappings.Fields
import CodeMap.Proofs.Traversal

/-! # Cells of the mappings text

A cell is a segment as it is written, with its place. `cells` lists those of a whole text in order,
and `errorOf?_readDeltas` says that reading stops at the first of them that is refused. What comes
behind the separator after a cell makes cells at later places only (`cells_append_comma`,
`cells_append_semicolon`). -/

namespace CodeMap.Mappings

/-- The segments of a line as they are written; an empty line has none. -/
def segmentTexts (line : List Char) : List (List Char) :=
  if line = [] then [] else line.splitOn ','

/-- A segment as it is written, with the numbers of its line and of the segment. -/
structure Cell where
  line : Nat
  segment : Nat
  text : List Char
  deriving DecidableEq, Repr

/-- Some segments of the line `n`, numbered from `i` on. -/
def numbered (n i : Nat) (texts : List (List Char)) : List Cell :=
  (texts.zipIdx i).map fun (text, i) => ⟨n, i, text⟩

/-- The cells of some lines, numbered from `n` on. -/
def cellsFrom (n : Nat) (lines : List (List Char)) : List Cell :=
  (lines.zipIdx n).flatMap fun (line, n) => numbered n 0 (segmentTexts line)

/-- The cells of a text, in its order. -/
def cells (text : List Char) : List Cell := cellsFrom 0 (text.splitOn ';')

namespace Cell

/-- The fault of a cell, if it is refused. -/
def fault? (c : Cell) : Option Fault := (errorOf? (readSegment c.text)).map (⟨·, c.line, c.segment⟩)

/-- A cell lies behind a place of the text. -/
def Behind (c : Cell) (line segment : Nat) : Prop := line < c.line ∨ line = c.line ∧ segment < c.segment

end Cell

/-! ### Reading one segment -/

theorem readSegment_eq_ok_iff {text : List Char} {d : Deltas} :
    readSegment text = .ok d ↔ text ≠ [] ∧ Quantity.decode text = .ok d := by
  rw [readSegment]
  cases h : Quantity.decode text with
  | error q => simp
  | ok vs =>
    cases vs with
    | nil => simp [Quantity.decode_eq_ok_nil_iff.1 h]
    | cons v vs =>
      have : text ≠ [] := by rintro rfl; cases h
      simp [this]

theorem readSegment_eq_error_iff {text : List Char} {e : SegmentFault} :
    readSegment text = .error e ↔
      text = [] ∧ e = .noColumn ∨ ∃ q, Quantity.decode text = .error q ∧ e = .quantity q := by
  rw [readSegment]
  cases h : Quantity.decode text with
  | error q =>
    have : text ≠ [] := by rintro rfl; cases h
    simp [this, eq_comm]
  | ok vs =>
    cases vs with
    | nil => simp [Quantity.decode_eq_ok_nil_iff.1 h, eq_comm]
    | cons v vs =>
      have : text ≠ [] := by rintro rfl; cases h
      simp [this]

/-! ### Reading all segments -/

theorem errorOf?_readLine (n : Nat) (line : List Char) :
    errorOf? (readLine n line) = (numbered n 0 (segmentTexts line)).findSome? Cell.fault? := by
  unfold readLine segmentTexts
  split
  · rfl
  · rw [errorOf?_mapM, numbered, List.findSome?_map, Text.fields_eq_splitOn]
    simp only [errorOf?_mapError]
    rfl

/-- Reading stops at the first cell that is refused. -/
theorem errorOf?_readDeltas (text : List Char) :
    errorOf? (readDeltas text) = (cells text).findSome? Cell.fault? := by
  rw [readDeltas, errorOf?_mapM, Text.fields_eq_splitOn, cells, cellsFrom, findSome?_flatMap]
  simp only [errorOf?_readLine]

theorem readLine_eq_ok_iff {n : Nat} {line : List Char} {ds : List Deltas} :
    readLine n line = .ok ds ↔ (segmentTexts line).map readSegment = ds.map .ok := by
  unfold readLine segmentTexts
  split
  · cases ds <;> simp
  · rw [Text.fields_eq_splitOn]
    exact mapM_zipIdx_eq_ok_iff (f := fun text i => (readSegment text).mapError fun cause => (⟨cause, n, i⟩ : Fault))
      fun _ _ _ => mapError_eq_ok_iff

/-- The differences that are read are those of every segment alone. -/
theorem readDeltas_eq_ok_iff {text : List Char} {ds : List (List Deltas)} :
    readDeltas text = .ok ds ↔
      (text.splitOn ';').map (fun line => (segmentTexts line).map readSegment) =
        ds.map (·.map .ok) := by
  rw [readDeltas, Text.fields_eq_splitOn]
  exact mapM_zipIdx_eq_ok_iff (f := fun line n => readLine n line) fun _ _ _ => readLine_eq_ok_iff

theorem length_segmentTexts (line : List Char) :
    (segmentTexts line).length = if line = [] then 0 else line.count ',' + 1 := by
  unfold segmentTexts
  split <;> simp [Text.length_splitOn]

/-! ### Places of cells -/

theorem mem_numbered {n i : Nat} {texts : List (List Char)} {c : Cell} (h : c ∈ numbered n i texts) :
    c.line = n ∧ i ≤ c.segment := by
  obtain ⟨⟨text, j⟩, hj, rfl⟩ := List.mem_map.1 h
  exact ⟨rfl, (List.mk_mem_zipIdx_iff_le_and_getElem?_sub.1 hj).1⟩

theorem numbered_append (n i : Nat) (xs ys : List (List Char)) :
    numbered n i (xs ++ ys) = numbered n i xs ++ numbered n (i + xs.length) ys := by
  rw [numbered, List.zipIdx_append, List.map_append, numbered, numbered]

theorem line_of_mem_cellsFrom {n : Nat} {lines : List (List Char)} {c : Cell}
    (h : c ∈ cellsFrom n lines) : n ≤ c.line := by
  obtain ⟨⟨line, m⟩, hm, hc⟩ := List.mem_flatMap.1 h
  rw [(mem_numbered hc).1]
  exact (List.mk_mem_zipIdx_iff_le_and_getElem?_sub.1 hm).1

theorem cellsFrom_cons (n : Nat) (line : List Char) (lines : List (List Char)) :
    cellsFrom n (line :: lines) = numbered n 0 (segmentTexts line) ++ cellsFrom (n + 1) lines := rfl

theorem cellsFrom_append (n : Nat) (xs ys : List (List Char)) :
    cellsFrom n (xs ++ ys) = cellsFrom n xs ++ cellsFrom (n + xs.length) ys := by
  rw [cellsFrom, List.zipIdx_append, List.flatMap_append, cellsFrom, cellsFrom]

theorem map_text_numbered (n i : Nat) (texts : List (List Char)) :
    (numbered n i texts).map Cell.text = texts := by
  rw [numbered, List.map_map]
  exact List.zipIdx_map_fst i texts

theorem map_text_cellsFrom (n : Nat) (lines : List (List Char)) :
    (cellsFrom n lines).map Cell.text = lines.flatMap segmentTexts := by
  induction lines generalizing n with
  | nil => rfl
  | cons line lines ih =>
    rw [cellsFrom_cons, List.map_append, map_text_numbered, ih, List.flatMap_cons]

/-- The numbers of the line and of the segment in which a text ends. -/
def lastPlace (text : List Char) : Nat × Nat :=
  (text.count ';', ((text.splitOn ';').getLast?.getD []).count ',')

/-- What comes behind a semicolon makes cells behind the place of the semicolon only. -/
theorem cells_append_semicolon (pre post : List Char) :
    ∃ back, cells (pre ++ ';' :: post) = cells pre ++ back ∧
      ∀ c ∈ back, c.Behind (lastPlace pre).1 (lastPlace pre).2 := by
  refine ⟨cellsFrom (pre.count ';' + 1) (post.splitOn ';'), ?_, fun c hc => ?_⟩
  · rw [cells, List.splitOn_append_cons_self, cellsFrom_append, Nat.zero_add, Text.length_splitOn]
    rfl
  · exact .inl (line_of_mem_cellsFrom hc)

/-- What comes behind a comma makes cells behind the place of the comma only. -/
theorem cells_append_comma (pre : List Char) :
    ∃ front, ∀ post, ∃ back, cells (pre ++ ',' :: post) = front ++ back ∧
      ∀ c ∈ back, c.Behind (lastPlace pre).1 (lastPlace pre).2 := by
  obtain ⟨init, last, hpre, hlast, hinit⟩ := Text.exists_last_field ';' pre
  have hplace : lastPlace pre = (init.length, last.count ',') := by simp [lastPlace, hinit, hpre]
  rw [hplace]
  refine ⟨cellsFrom 0 init ++ numbered init.length 0 (last.splitOn ','), fun post => ?_⟩
  obtain ⟨f, fs, hpost⟩ := List.exists_cons_of_ne_nil (List.splitOn_ne_nil ';' post)
  have hsplit : (pre ++ ',' :: post).splitOn ';' = init ++ (last ++ ',' :: f) :: fs := by
    have : ';' ∉ last ++ [','] := by simpa using hlast
    rw [Text.splitOn_append _ hpre, List.append_cons, Text.splitOn_append_of_not_mem this, hpost]
    simp
  have hline : segmentTexts (last ++ ',' :: f) = last.splitOn ',' ++ f.splitOn ',' := by
    simp [segmentTexts, List.splitOn_append_cons_self]
  refine ⟨numbered init.length (last.count ',' + 1) (f.splitOn ',') ++ cellsFrom (init.length + 1) fs,
    ?_, fun c hc => ?_⟩
  · rw [cells, hsplit, cellsFrom_append, cellsFrom_cons, hline, numbered_append,
      Text.length_splitOn]
    simp
  · rcases List.mem_append.1 hc with hc | hc
    · exact .inr ⟨(mem_numbered hc).1.symm, (mem_numbered hc).2⟩
    · exact .inl (line_of_mem_cellsFrom hc)

end CodeMap.Mappings
