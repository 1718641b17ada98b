import CodeMap.Proofs.Lookup.Covering
import CodeMap.Proofs.Lookup.LineStart
import CodeMap.Proofs.Mappings.PrefixSums

/-! # Where the two queries for a source agree

`sourceLineStart` reads the first segment of a generated line and `sourcePosition` the one that covers
the column, so both read the same segment up to the column where the next one starts
(`Chart.startAgrees_of_first`). In a mappings text the later segments start behind the first one if
their differences in the column are positive (`lt_of_mem_placeLine`). The main statement is
`sourceLineStart_agrees_sourcePosition`. -/

namespace CodeMap

namespace Chart

/-- The start of the source line of a generated line and the source position of a column of it are
both found, on one line of one file and with one name. -/
def StartAgrees (c : Chart) (line column : Int) : Prop :=
  ∃ start p, c.sourceLineStart line = .ok (some start) ∧ c.sourcePosition line column = some p ∧
    start.line = p.line ∧ start.file = p.file ∧ start.name = p.name ∧ start.column = 0

section
variable {c : Chart} {line column : Int} {first : Segment} {rest : Line}

theorem startAgrees_of_first (h : c.line? line = some (first :: rest)) (hlow : 0 ≤ first.file)
    (hhigh : first.file < c.sources.length) (hcolumn : ∀ s ∈ rest, column < s.generatedColumn) :
    c.StartAgrees line column := by
  have hne : c.source? first.file ≠ none := by
    rw [Ne, source?_eq_none_iff]
    omega
  obtain ⟨file, hfile⟩ := Option.ne_none_iff_exists'.1 hne
  have hentry : entryFromEither? c.sources first.file = some file := by
    rw [entryFromEither?_of_nonneg hlow]
    exact hfile
  exact ⟨_, _, sourceLineStart_of_file h hentry,
    sourcePosition_of_line? h (Line.covering?_cons hcolumn), rfl, hfile.symm, rfl, rfl⟩

theorem startAgrees_of_behind (h : c.line? line = some (first :: rest)) (hlow : 0 ≤ first.file)
    (hhigh : first.file < c.sources.length)
    (hbehind : ∀ s ∈ rest, first.generatedColumn < s.generatedColumn)
    (hcolumn : (∀ s ∈ rest, column < s.generatedColumn) ∨ column ≤ first.generatedColumn) :
    c.StartAgrees line column := by
  refine startAgrees_of_first h hlow hhigh ?_
  rcases hcolumn with hcolumn | hcolumn
  · exact hcolumn
  · intro s hs
    exact Int.lt_of_le_of_lt hcolumn (hbehind s hs)

end

end Chart

/-! ### Differences of columns -/

namespace Mappings

/-- Where all differences are positive, every segment starts behind the column before them. -/
theorem lt_of_mem_placeLine {t : Totals} {column : Int} {ds : List Deltas}
    (h : ∀ d ∈ ds, 0 < d.getD 0 0) {s : Segment} (hs : s ∈ placeLine t column ds) :
    column < s.generatedColumn := by
  induction ds generalizing t column with
  | nil => cases hs
  | cons d ds ih =>
    obtain ⟨hd, hds⟩ := List.forall_mem_cons.1 h
    rcases List.mem_cons.1 hs with rfl | hs
    · show column < column + d.getD 0 0
      omega
    · have hlt := ih hds hs
      omega

/-- The differences of a segment that is read start with that of the column. -/
theorem getD_pos_of_readSegment {segment : List Char} {d : Deltas} (hd : readSegment segment = .ok d)
    (h : ∀ v vs, Quantity.decode segment = .ok (v :: vs) → 0 < v) : 0 < d.getD 0 0 := by
  obtain ⟨hne, hdecode⟩ := readSegment_eq_ok_iff.1 hd
  cases d with
  | nil => exact absurd (Quantity.decode_eq_ok_nil_iff.1 hdecode) hne
  | cons v vs => exact h v vs hdecode

/-- On a line of a text, the segments behind the first start behind it if their differences in the
column are positive. -/
theorem lt_of_mem_rest {text : List Char} {ds : List (List Deltas)} (hread : readDeltas text = .ok ds)
    {n : Nat} {line : List Char} (hline : (text.splitOn ';')[n]? = some line)
    (hpos : ∀ segment ∈ (segmentTexts line).tail, ∀ v vs,
      Quantity.decode segment = .ok (v :: vs) → 0 < v)
    {first : Segment} {rest : Line} (hsegments : (place {} ds)[n]? = some (first :: rest)) :
    ∀ s ∈ rest, first.generatedColumn < s.generatedColumn := by
  obtain ⟨l, hl, htexts⟩ := getElem?_of_map_eq_map (readDeltas_eq_ok_iff.1 hread) hline
  rw [getElem?_place, hl, Option.map_some, Option.some_inj] at hsegments
  cases l with
  | nil => cases hsegments
  | cons d l =>
    -- the first segment's own difference may have any sign: only those behind it count
    obtain ⟨rfl, rfl⟩ := List.cons.inj hsegments
    have htail : (segmentTexts line).tail.map readSegment = l.map .ok := by
      rw [List.map_tail, htexts]
      rfl
    intro s hs
    refine lt_of_mem_placeLine ?_ hs
    intro d hd
    obtain ⟨segment, hsegment, hok⟩ := exists_mem_of_map_eq_map htail hd
    exact getD_pos_of_readSegment hok (hpos segment hsegment)

end Mappings

open Mappings

/-- Let the first segment of a generated line have a source that is in the table, and let the others
start behind it. Then the start of the source line and the source position agree for every column up
to the first segment's, and for every column that is before all the others. In a map that is loaded
from a text, the others do start behind it if the differences in the column that are written for them
are positive. -/
theorem sourceLineStart_agrees_sourcePosition :
    (∀ (c : Chart) (line : Int) (first : Segment) (rest : Line),
      c.line? line = some (first :: rest) → 0 ≤ first.file → first.file < c.sources.length →
      (∀ s ∈ rest, first.generatedColumn < s.generatedColumn) →
      ∀ column, (∀ s ∈ rest, column < s.generatedColumn) ∨ column ≤ first.generatedColumn →
        c.StartAgrees line column) ∧
    ∀ (limits : Json.Limits) (text mappings : String) (m : LoadedMap) (n : Nat) (line : List Char)
      (first : Segment) (rest : Line),
      LoadedMap.load limits text = .ok m → m.document.mappings = some mappings →
      (mappings.toList.splitOn ';')[n]? = some line →
      (∀ segment ∈ (segmentTexts line).tail, ∀ v vs,
        Quantity.decode segment = .ok (v :: vs) → 0 < v) →
      m.chart.line? n = some (first :: rest) → 0 ≤ first.file →
      first.file < m.chart.sources.length →
      (∀ s ∈ rest, first.generatedColumn < s.generatedColumn) ∧
      ∀ column, (∀ s ∈ rest, column < s.generatedColumn) ∨ column ≤ first.generatedColumn →
        m.chart.StartAgrees n column := by
  refine ⟨?_, ?_⟩
  · intro c line first rest h hlow hhigh hbehind column hcolumn
    exact Chart.startAgrees_of_behind h hlow hhigh hbehind hcolumn
  · intro limits text mappings m n line first rest hload hmappings hline hpos h hlow hhigh
    obtain ⟨-, hchart⟩ := LoadedMap.load_eq_ok_iff.1 hload
    obtain ⟨ds, hds, hlines⟩ := exists_deltas_of_chart hmappings hchart
    have hsegments : (place {} ds)[n]? = some (first :: rest) := by
      rw [← hlines, ← entryAt?_natCast]
      exact h
    have hbehind := lt_of_mem_rest hds hline hpos hsegments
    exact ⟨hbehind, fun column => Chart.startAgrees_of_behind h hlow hhigh hbehind⟩

/-- On the first line the later segments are not in the order of their columns. The second line is
read from a text. -/
theorem sourceLineStart_agrees_sourcePosition_unsorted :
    (⟨[[⟨2, 0, 4, 1, none⟩, ⟨9, 0, 5, 0, none⟩, ⟨6, 1, 7, 0, none⟩]], ["a"], []⟩ : Chart).StartAgrees 0 5 ∧
    (⟨[[⟨2, 0, 4, 1, none⟩, ⟨9, 0, 5, 0, none⟩, ⟨6, 1, 7, 0, none⟩]], ["a"], []⟩ : Chart).StartAgrees
      0 (-1) ∧
    ∃ m, LoadedMap.load .standard
        (Document.write ⟨3, "b", "", ["a"], ["f"], some "AAAA;EAEEA,CACA"⟩) = .ok m ∧
      m.chart.line? 1 = some [⟨2, 0, 2, 2, some 0⟩, ⟨3, 0, 3, 2, none⟩] ∧ m.chart.StartAgrees 1 2 := by
  have hload : Document.load .standard
      (Document.write ⟨3, "b", "", ["a"], ["f"], some "AAAA;EAEEA,CACA"⟩) =
      .ok ⟨3, "b", "", ["a"], ["f"], some "AAAA;EAEEA,CACA"⟩ := Document.load_write rfl
  obtain ⟨hchart, hloaded⟩ := sourceLineStart_agrees_sourcePosition
  refine ⟨?_, ?_, _, LoadedMap.load_of_document hload rfl, rfl, ?_⟩
  · exact hchart _ 0 _ _ rfl (by decide) (by decide) (by decide) 5 (.inl (by decide))
  · exact hchart _ 0 _ _ rfl (by decide) (by decide) (by decide) (-1) (.inr (by decide))
  · have hpos : ∀ segment ∈ (segmentTexts "EAEEA,CACA".toList).tail, ∀ v vs,
        Quantity.decode segment = .ok (v :: vs) → 0 < v := by
      intro segment hsegment v vs hdecode
      obtain rfl := List.mem_singleton.1 hsegment
      obtain ⟨rfl, -⟩ := List.cons.inj (Except.ok.inj hdecode)
      decide
    exact (hloaded _ _ "AAAA;EAEEA,CACA" _ 1 "EAEEA,CACA".toList _ _
      (LoadedMap.load_of_document hload rfl) rfl (by decide) hpos rfl (by decide) (by decide)).2 2 (.inr (by decide))

end CodeMap
