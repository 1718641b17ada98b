import CodeMap.Proofs.Lookup.Covering
import Mathlib.Data.List.Find
import Mathlib.Data.Prod.Lex

/-! # Source positions along a line

The segment that covers a column changes only where another one starts (`covering?_congr`), and a
later column is covered by the same segment or by one behind it (`covering?_rel`), in whatever order
the columns of the line are. So the source position is a step function of the column, and it keeps
the order of the segments: both are stated in `sourcePosition_step`. -/

namespace CodeMap

/-- The source position of a segment, where lines count before columns. -/
def Segment.source (s : Segment) : ℤ ×ₗ ℤ := toLex (s.sourceLine, s.sourceColumn)

/-- The position of a location, where lines count before columns. -/
def Location.position (p : Location) : ℤ ×ₗ ℤ := toLex (p.line, p.column)

namespace Line
variable {segments : Line} {s t : Segment} {column column' : Int}

theorem covering?_congr
    (h : ∀ s ∈ segments, s.generatedColumn ≤ column ↔ s.generatedColumn ≤ column') :
    segments.covering? column = segments.covering? column' := by
  have hfind : segments.reverse.find? (fun s => s.generatedColumn ≤ column) =
      segments.reverse.find? fun s => s.generatedColumn ≤ column' :=
    List.find?_congr fun s hs => by simp [h s (List.mem_reverse.1 hs)]
  rw [covering?, covering?, hfind]

theorem covering?_rel {R : Segment → Segment → Prop} (hrefl : ∀ s, R s s) (hR : segments.Pairwise R)
    (hle : column ≤ column') (hs : segments.covering? column = some s)
    (ht : segments.covering? column' = some t) : R s t := by
  obtain ⟨front, back, rfl, -, hfirst⟩ := covering?_eq_some_iff.1 hs
  obtain ⟨front', back', hsplit, hback', -⟩ := covering?_eq_some_iff.1 ht
  rcases eq_or_mem_of_append_cons_eq hsplit with rfl | hmem | ⟨hne, hmem⟩
  · exact hrefl s
  · exact List.rel_of_pairwise_cons (List.pairwise_append.1 hR).2.1 hmem
  · -- `s` behind `t` would start after the later column and yet cover the earlier one
    have hlt := hback' s hmem
    have hstart := hfirst.resolve_right hne
    omega

end Line

namespace Chart
variable {c : Chart} {line column column' : Int} {segments : Line}

theorem sourcePosition_congr_column
    (h : ∀ segments, c.line? line = some segments → ∀ s ∈ segments,
      (s.generatedColumn ≤ column ↔ s.generatedColumn ≤ column')) :
    c.sourcePosition line column = c.sourcePosition line column' := by
  rw [sourcePosition_eq_map, sourcePosition_eq_map]
  cases hline : c.line? line with
  | none => rfl
  | some segments => rw [Option.bind_some, Option.bind_some, Line.covering?_congr (h segments hline)]

theorem exists_position_le (hline : c.line? line = some segments)
    (horder : segments.Pairwise fun s t => s.source ≤ t.source) (hle : column ≤ column') {p : Location}
    (hp : c.sourcePosition line column = some p) :
    ∃ q, c.sourcePosition line column' = some q ∧ p.position ≤ q.position := by
  rw [sourcePosition_eq_map, hline, Option.bind_some] at hp
  obtain ⟨s, hs, rfl⟩ := Option.map_eq_some_iff.1 hp
  obtain ⟨t, ht⟩ := Line.exists_covering? (List.ne_nil_of_mem (Line.mem_of_covering? hs)) column'
  have hst : s.source ≤ t.source := Line.covering?_rel (fun s => le_refl s.source) horder hle hs ht
  exact ⟨_, sourcePosition_of_line? hline ht, hst⟩

end Chart

/-- On every line the source position stays the same from one column to a later one if no segment
starts behind the one and up to the other. If the source positions of the segments ascend, so do
those that are found, in whatever order the segments start. Whether one is found is the same for all
columns. -/
theorem sourcePosition_step (c : Chart) (line : Int) {column column' : Int} (hle : column ≤ column') :
    ((∀ segments, c.line? line = some segments → ∀ s ∈ segments,
        ¬ (column < s.generatedColumn ∧ s.generatedColumn ≤ column')) →
      c.sourcePosition line column = c.sourcePosition line column') ∧
    (∀ segments, c.line? line = some segments →
      segments.Pairwise (fun s t => s.source ≤ t.source) →
      ∀ p, c.sourcePosition line column = some p →
        ∃ q, c.sourcePosition line column' = some q ∧ p.position ≤ q.position) ∧
    (c.sourcePosition line column = none ↔ c.sourcePosition line column' = none) := by
  refine ⟨?_, ?_, ?_⟩
  · intro hnone
    refine Chart.sourcePosition_congr_column ?_
    intro segments hline s hs
    have := hnone segments hline s hs
    omega
  · intro segments hline horder p hp
    exact Chart.exists_position_le hline horder hle hp
  · rw [Chart.sourcePosition_eq_none_iff, Chart.sourcePosition_eq_none_iff]

/-- The columns of the line are 4, 1 and 6, and its source positions ascend. No segment starts between
4 and 5, and column 0 is before all of them. -/
theorem sourcePosition_step_unsorted_columns :
    ∃ c : Chart, ∃ segments : Line, c = ⟨[segments], [], []⟩ ∧
      segments = [⟨4, 0, 0, 9, none⟩, ⟨1, 0, 2, 3, none⟩, ⟨6, 0, 2, 5, none⟩] ∧
      c.line? 0 = some segments ∧
      (∀ s ∈ segments, ¬ (4 < s.generatedColumn ∧ s.generatedColumn ≤ 5)) ∧
      c.sourcePosition 0 4 = c.sourcePosition 0 5 ∧
      segments.Pairwise (fun s t => s.source ≤ t.source) ∧
      c.sourcePosition 0 0 = some ⟨0, 9, none, none⟩ ∧
      ∃ q, c.sourcePosition 0 6 = some q ∧ Location.position ⟨0, 9, none, none⟩ ≤ q.position := by
  refine ⟨_, _, rfl, rfl, rfl, by decide, ?_⟩
  set segments : Line :=
    [⟨4, 0, 0, 9, none⟩, ⟨1, 0, 2, 3, none⟩, ⟨6, 0, 2, 5, none⟩] with hsegments
  have hgap : ∀ s ∈ segments, ¬ (4 < s.generatedColumn ∧ s.generatedColumn ≤ 5) := by decide
  have horder : segments.Pairwise fun s t => s.source ≤ t.source := by decide
  have hline : ∀ segments', Chart.line? ⟨[segments], [], []⟩ 0 = some segments' → segments = segments' :=
    fun _ h => Option.some.inj h
  refine ⟨?_, horder, rfl, ?_⟩
  · exact (sourcePosition_step ⟨[segments], [], []⟩ 0 (by decide : (4 : Int) ≤ 5)).1
      fun segments' h => hline segments' h ▸ hgap
  · exact (sourcePosition_step ⟨[segments], [], []⟩ 0 (by decide : (0 : Int) ≤ 6)).2.1
      segments rfl horder _ rfl

end CodeMap
