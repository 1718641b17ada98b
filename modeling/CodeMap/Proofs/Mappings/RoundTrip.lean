import CodeMap.Loading
import CodeMap.Mappings
import CodeMap.Proofs.Mappings.Cells

/-! # Writing and reading mappings

`readDeltas_write` and `place_deltas` lead from lines to text and back; `deltas_place` says what is
written for lines that were read. Every text of the same lines therefore has one shortest form,
which `chart_write_round_trip` states of the charts of documents. -/

namespace CodeMap.Mappings

/-! ### Adding up and taking differences -/

theorem advance_deltasTo (t : Totals) (column : Int) (s : Segment) :
    t.advance (t.deltasTo column s) = t.after s := by
  cases h : s.name <;> simp [Totals.advance, Totals.deltasTo, Totals.after, h]

theorem segment_after (t : Totals) (column : Int) (s : Segment) :
    (t.after s).segment s.generatedColumn (t.deltasTo column s) = s := by
  cases s with
  | mk generatedColumn file sourceLine sourceColumn name =>
    cases name <;> simp [Totals.segment, Totals.deltasTo, Totals.after]

theorem placeLine_lineDeltas (t : Totals) (column : Int) (line : Line) :
    placeLine t column (lineDeltas t column line) = line := by
  induction line generalizing t column with
  | nil => rfl
  | cons s line ih =>
    have hcolumn : column + (t.deltasTo column s).getD 0 0 = s.generatedColumn := by
      simp [Totals.deltasTo]
    rw [lineDeltas, placeLine, advance_deltasTo, hcolumn, segment_after, ih]

theorem foldl_advance_lineDeltas (t : Totals) (column : Int) (line : Line) :
    (lineDeltas t column line).foldl Totals.advance t = line.foldl Totals.after t := by
  induction line generalizing t column with
  | nil => rfl
  | cons s line ih => rw [lineDeltas, List.foldl_cons, advance_deltasTo, ih, List.foldl_cons]

theorem place_deltas (t : Totals) (lines : List Line) : place t (deltas t lines) = lines := by
  induction lines generalizing t with
  | nil => rfl
  | cons line lines ih =>
    rw [deltas, place, placeLine_lineDeltas, foldl_advance_lineDeltas, ih]

/-- The differences that are written for a segment that was read: an absent one of the first four
is written as zero, and what comes after the fifth is left out. -/
def padded (d : Deltas) : Deltas :=
  [d.getD 0 0, d.getD 1 0, d.getD 2 0, d.getD 3 0] ++ d[4]?.toList

theorem after_segment (t : Totals) (column : Int) (d : Deltas) :
    t.after ((t.advance d).segment column d) = t.advance d := by
  by_cases h : 4 < d.length
  · simp [Totals.after, Totals.segment, h]
  · simp [Totals.after, Totals.segment, Totals.advance, h]

theorem deltasTo_segment (t : Totals) (column : Int) (d : Deltas) :
    t.deltasTo column ((t.advance d).segment (column + d.getD 0 0) d) = padded d := by
  by_cases h : 4 < d.length
  · simp [Totals.deltasTo, Totals.segment, Totals.advance, padded, h]
  · simp [Totals.deltasTo, Totals.segment, Totals.advance, padded, h]

theorem lineDeltas_placeLine (t : Totals) (column : Int) (ds : List Deltas) :
    lineDeltas t column (placeLine t column ds) = ds.map padded := by
  induction ds generalizing t column with
  | nil => rfl
  | cons d ds ih =>
    rw [placeLine, lineDeltas, deltasTo_segment, after_segment, List.map_cons]
    exact congrArg _ (ih ..)

theorem foldl_after_placeLine (t : Totals) (column : Int) (ds : List Deltas) :
    (placeLine t column ds).foldl Totals.after t = ds.foldl Totals.advance t := by
  induction ds generalizing t column with
  | nil => rfl
  | cons d ds ih => rw [placeLine, List.foldl_cons, after_segment, ih, List.foldl_cons]

theorem deltas_place (t : Totals) (ds : List (List Deltas)) :
    deltas t (place t ds) = ds.map (·.map padded) := by
  induction ds generalizing t with
  | nil => rfl
  | cons line ds ih =>
    rw [place, deltas, lineDeltas_placeLine, foldl_after_placeLine, ih, List.map_cons]

/-! ### Writing differences -/

/-- Differences that can be written: a segment has at least one, and a group can stand for each. -/
def Writable (ds : List (List Deltas)) : Prop :=
  ∀ line ∈ ds, ∀ d ∈ line, d ≠ [] ∧ ∀ v ∈ d, v.natAbs ≤ Quantity.maxValue

theorem not_mem_encode {sep : Char} (h : sep ∉ Base64.alphabet) (d : Deltas) :
    sep ∉ Quantity.encode d :=
  fun hd => h (Quantity.mem_alphabet_of_mem_encode hd)

theorem segmentTexts_writeLine {line : List Deltas} (h : ∀ d ∈ line, d ≠ []) :
    segmentTexts (writeLine line) = line.map Quantity.encode := by
  by_cases hline : line = []
  · rw [hline]; rfl
  have hsplit : (writeLine line).splitOn ',' = line.map Quantity.encode := by
    refine List.splitOn_intercalate ',' (fun l hl => ?_) (by simpa using hline)
    obtain ⟨d, -, rfl⟩ := List.mem_map.1 hl
    exact not_mem_encode (by decide) d
  -- an empty text would be one empty segment, but no segment is written as the empty text
  have hne : writeLine line ≠ [] := by
    intro hnil
    rw [hnil, List.splitOn_nil] at hsplit
    obtain ⟨d, hd, henc⟩ := List.mem_map.1 (hsplit ▸ List.mem_singleton_self ([] : List Char))
    exact Quantity.encode_ne_nil (h d hd) henc
  rw [segmentTexts, if_neg hne, hsplit]

theorem semicolon_not_mem_writeLine (line : List Deltas) : ';' ∉ writeLine line := by
  intro h
  rcases Text.mem_joinFields h with h | ⟨f, hf, h⟩
  · cases h
  · obtain ⟨d, -, rfl⟩ := List.mem_map.1 hf
    exact not_mem_encode (by decide) d h

theorem readSegment_encode {d : Deltas} (hne : d ≠ []) (h : ∀ v ∈ d, v.natAbs ≤ Quantity.maxValue) :
    readSegment (Quantity.encode d) = .ok d :=
  readSegment_eq_ok_iff.2 ⟨Quantity.encode_ne_nil hne, Quantity.decode_encode h⟩

/-- Writable differences are read as they are written. -/
theorem readDeltas_write {ds : List (List Deltas)} (hne : ds ≠ []) (h : Writable ds) :
    readDeltas (Text.joinFields ';' (ds.map writeLine)) = .ok ds := by
  have hsplit : (Text.joinFields ';' (ds.map writeLine)).splitOn ';' = ds.map writeLine := by
    refine List.splitOn_intercalate ';' (fun l hl => ?_) (by simpa using hne)
    obtain ⟨line, -, rfl⟩ := List.mem_map.1 hl
    exact semicolon_not_mem_writeLine line
  rw [readDeltas_eq_ok_iff, hsplit, List.map_map]
  refine List.map_congr_left fun line hline => ?_
  rw [Function.comp_apply, segmentTexts_writeLine fun d hd => (h line hline d hd).1, List.map_map]
  exact List.map_congr_left fun d hd =>
    readSegment_encode (h line hline d hd).1 (h line hline d hd).2

theorem deltas_ne_nil {t : Totals} {lines : List Line} (h : lines ≠ []) : deltas t lines ≠ [] := by
  obtain ⟨line, lines, rfl⟩ := List.exists_cons_of_ne_nil h
  exact List.cons_ne_nil _ _

theorem read_write {lines : List Line} (hne : lines ≠ []) (h : Writable (deltas {} lines)) :
    read (write lines) = .ok lines := by
  rw [read, write, String.toList_ofList, readDeltas_write (deltas_ne_nil hne) h]
  exact congrArg _ (place_deltas {} lines)

/-! ### What is written is writable -/

theorem lineDeltas_mem_ne_nil {t : Totals} {column : Int} {line : Line} {d : Deltas}
    (h : d ∈ lineDeltas t column line) : d ≠ [] := by
  induction line generalizing t column with
  | nil => cases h
  | cons s line ih =>
    rcases List.mem_cons.1 h with rfl | h
    · simp [Totals.deltasTo]
    · exact ih h

theorem deltas_mem_ne_nil {t : Totals} {lines : List Line} {line : List Deltas} {d : Deltas}
    (hline : line ∈ deltas t lines) (hd : d ∈ line) : d ≠ [] := by
  induction lines generalizing t with
  | nil => cases hline
  | cons l lines ih =>
    rcases List.mem_cons.1 hline with rfl | hline
    · exact lineDeltas_mem_ne_nil hd
    · exact ih hline

theorem writable_of_readDeltas {text : List Char} {ds : List (List Deltas)}
    (h : readDeltas text = .ok ds) : Writable ds := by
  intro line hline d hd
  obtain ⟨texts, -, hl⟩ := exists_mem_of_map_eq_map (readDeltas_eq_ok_iff.1 h) hline
  obtain ⟨chunk, -, hc⟩ := exists_mem_of_map_eq_map hl hd
  obtain ⟨hne, hdec⟩ := readSegment_eq_ok_iff.1 hc
  exact ⟨fun hnil => hne (Quantity.decode_eq_ok_nil_iff.1 (hnil ▸ hdec)),
    Quantity.natAbs_le_of_decode hdec⟩

theorem natAbs_getD_le {d : Deltas} {n : Nat} (h : ∀ v ∈ d, v.natAbs ≤ n) (k : Nat) :
    (d.getD k 0).natAbs ≤ n := by
  rw [List.getD_eq_getElem?_getD]
  cases hk : d[k]? with
  | none => exact Nat.zero_le n
  | some v => exact h v (List.mem_of_getElem? hk)

theorem Writable.padded {ds : List (List Deltas)} (h : Writable ds) :
    Writable (ds.map (·.map padded)) := by
  intro line hline d hd
  obtain ⟨line, hl, rfl⟩ := List.mem_map.1 hline
  obtain ⟨d, hdl, rfl⟩ := List.mem_map.1 hd
  have hle := (h line hl d hdl).2
  refine ⟨by simp [Mappings.padded], fun v hv => ?_⟩
  rcases List.mem_append.1 hv with hv | hv
  · simp only [List.mem_cons, List.not_mem_nil, or_false] at hv
    rcases hv with rfl | rfl | rfl | rfl <;> exact natAbs_getD_le hle _
  · exact hle v (List.mem_of_getElem? (Option.mem_toList.1 hv))

/-- Lines that were read are read again from what is written for them. -/
theorem read_write_of_read {text : String} {lines : List Line} (h : read text = .ok lines) :
    read (write lines) = .ok lines := by
  obtain ⟨ds, hds, rfl⟩ := map_eq_ok_iff.1 h
  have hne : ds ≠ [] := by
    rintro rfl
    have := congrArg List.length (readDeltas_eq_ok_iff.1 hds)
    simp [Text.length_splitOn] at this
  refine read_write (fun hnil => hne ?_) ?_
  · have := deltas_place {} ds
    rw [hnil] at this
    exact List.map_eq_nil_iff.1 this.symm
  · rw [deltas_place]
    exact (writable_of_readDeltas hds).padded

end CodeMap.Mappings

namespace CodeMap
open Mappings

/-- Lines with small differences are read from the text that is written for them. Lines that were
read from any text, however it writes its quantities, are read again from theirs. -/
theorem chart_write_round_trip (d : Document) :
    (∀ lines : List Line, lines ≠ [] →
      (∀ line ∈ deltas {} lines, ∀ fields ∈ line, ∀ v ∈ fields, v.natAbs ≤ 2 ^ 30 - 1) →
      { d with mappings := some (write lines) }.chart =
        .ok { lines := lines, sources := d.resolvedSources, names := d.names }) ∧
    ∀ text c, d.mappings = some text → d.chart = .ok c →
      { d with mappings := some (write c.lines) }.chart = .ok c := by
  refine ⟨fun lines hne h => ?_, fun text c hd hc => ?_⟩
  · have hw : Writable (deltas {} lines) := fun line hl fields hf =>
      ⟨deltas_mem_ne_nil hl hf, h line hl fields hf⟩
    rw [Document.chart_of_mappings (rfl : _ = some (write lines)), read_write hne hw]
    rfl
  · rw [Document.chart_of_mappings hd] at hc
    obtain ⟨lines, hread, rfl⟩ := map_eq_ok_iff.1 hc
    rw [Document.chart_of_mappings (rfl : _ = some (write lines)), read_write_of_read hread]
    rfl

theorem chart_write_round_trip_mixed :
    { (⟨3, "", "", [], [], none⟩ : Document) with
        mappings := some (write [[⟨4, 1, 7, 2, some 6⟩, ⟨2, 0, -1, 5, none⟩], [],
          [⟨0, 0, 0, 0, some 1⟩]]) }.chart =
      .ok ⟨[[⟨4, 1, 7, 2, some 6⟩, ⟨2, 0, -1, 5, none⟩], [], [⟨0, 0, 0, 0, some 1⟩]], [], []⟩ ∧
    (⟨3, "", "", [], [], some "iABCBAE,C;;D"⟩ : Document).chart =
      .ok ⟨[[⟨1, 0, 1, 0, some 0⟩, ⟨2, 0, 1, 0, none⟩], [], [⟨-1, 0, 1, 0, none⟩]], [], []⟩ ∧
    (⟨3, "", "", [], [], some (write [[⟨1, 0, 1, 0, some 0⟩, ⟨2, 0, 1, 0, none⟩], [],
        [⟨-1, 0, 1, 0, none⟩]])⟩ : Document).chart =
      .ok ⟨[[⟨1, 0, 1, 0, some 0⟩, ⟨2, 0, 1, 0, none⟩], [], [⟨-1, 0, 1, 0, none⟩]], [], []⟩ := by
  refine ⟨(chart_write_round_trip ⟨3, "", "", [], [], none⟩).1 _ (by decide) (by decide), rfl, ?_⟩
  exact (chart_write_round_trip ⟨3, "", "", [], [], some "iABCBAE,C;;D"⟩).2 "iABCBAE,C;;D"
    ⟨[[⟨1, 0, 1, 0, some 0⟩, ⟨2, 0, 1, 0, none⟩], [], [⟨-1, 0, 1, 0, none⟩]], [], []⟩ rfl rfl

end CodeMap
