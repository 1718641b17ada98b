import CodeMap.Proofs.Lookup.Covering
import CodeMap.Proofs.Lookup.Found

/-! # From source to generated positions and back

Where each generated line comes from one source line, the way from a source position to a generated
one and back ends on the source line where it began. If, moreover, each source line makes one
generated line, the start of a generated line leads back to itself. Both are stated in
`generatedPosition_sourcePosition`. -/

namespace CodeMap

/-- The segments of any one generated line share one source line. -/
def Chart.OneSourceLine (c : Chart) : Prop :=
  ∀ segments ∈ c.lines, ∀ s ∈ segments, ∀ t ∈ segments, s.sourceLine = t.sourceLine

/-- No two generated lines share a source line. -/
def Chart.OneGeneratedLine (c : Chart) : Prop :=
  c.lines.Pairwise fun segments segments' =>
    ∀ s ∈ segments, ∀ t ∈ segments', s.sourceLine ≠ t.sourceLine

namespace Chart
variable {c : Chart} {line column : Int}

theorem OneSourceLine.sourceLine_eq (h : c.OneSourceLine) {n : Nat} {segments : Line}
    (hn : c.lines[n]? = some segments) {s t : Segment} (hs : s ∈ segments) (ht : t ∈ segments) :
    s.sourceLine = t.sourceLine :=
  h segments (List.mem_of_getElem? hn) s hs t ht

theorem exists_split {n : Nat} {segments : Line} (hn : c.lines[n]? = some segments) :
    ∃ front back, c.lines = front ++ segments :: back ∧ front.length = n := by
  obtain ⟨hlt, hget⟩ := List.getElem?_eq_some_iff.1 hn
  refine ⟨c.lines.take n, c.lines.drop (n + 1), ?_, List.length_take_of_le (Nat.le_of_lt hlt)⟩
  rw [← hget, List.getElem_cons_drop, List.take_append_drop]

/-- The lines in front of one with a segment of a source line have none of it. -/
theorem OneGeneratedLine.absent (h : c.OneGeneratedLine) {front back : List Line} {segments : Line}
    (hsplit : c.lines = front ++ segments :: back) {t : Segment} (ht : t ∈ segments) :
    ∀ segments' ∈ front, ∀ s ∈ segments', s.sourceLine ≠ t.sourceLine := by
  intro segments' hmem s hs
  rw [OneGeneratedLine, hsplit] at h
  exact (List.pairwise_append.1 h).2.2 segments' hmem segments List.mem_cons_self s hs t ht

/-- A generated position that is found comes from the source line that was asked for. -/
theorem OneSourceLine.exists_sourcePosition (h : c.OneSourceLine) {file : String} {p : Location}
    (hp : c.generatedPosition file line column = some p) :
    ∃ q, c.sourcePosition p.line p.column = some q ∧ q.line = line := by
  obtain ⟨n, segments, hline, hn, s, hs, hsource, -⟩ := exists_of_generatedPosition hp
  obtain ⟨t, ht⟩ := Line.exists_covering? (List.ne_nil_of_mem hs) p.column
  have heq : t.sourceLine = s.sourceLine := h.sourceLine_eq hn (Line.mem_of_covering? ht) hs
  rw [hline]
  exact ⟨_, sourcePosition_of_covering? hn ht, heq.trans hsource⟩

/-- Between the first and the second segment of a line the search ends at once. -/
theorem searchLine_between {first second : Segment} (n : Nat) (rest : Line)
    (hline : second.sourceLine = first.sourceLine) (hcolumn : first.sourceColumn < second.sourceColumn) :
    searchLine first.sourceLine first.sourceColumn n .none none (first :: second :: rest) =
      .exact n 0 := by
  rw [searchLine_cons, if_pos rfl, if_pos (Int.le_refl _), searchLine_cons, if_pos hline,
    if_neg (Int.not_le.2 hcolumn), Option.elim_some, Int.sub_self]

theorem generatedPosition_of_first (h : c.OneSourceLine) (hone : c.OneGeneratedLine) {n : Nat}
    {first second : Segment} {rest : Line} (hn : c.lines[n]? = some (first :: second :: rest))
    (hcolumn : first.sourceColumn < second.sourceColumn) (file : String) :
    c.generatedPosition file first.sourceLine first.sourceColumn = some ⟨n, 0, file, none⟩ := by
  have hfirst : first ∈ first :: second :: rest := List.mem_cons_self
  have hsecond : second ∈ first :: second :: rest := List.mem_cons_of_mem _ List.mem_cons_self
  obtain ⟨front, back, hsplit, hlength⟩ := exists_split hn
  -- nothing in front of the line stops the search
  have hfront := search_of_absent first.sourceColumn (hone.absent hsplit hfirst) 0
  have hfound := searchLine_between n rest (h.sourceLine_eq hn hsecond hfirst) hcolumn
  have hsearch : search first.sourceLine first.sourceColumn 0 .none c.lines = .exact n 0 := by
    rw [hsplit, search_append, hfront, hlength, Nat.zero_add]
    show search _ _ n .none _ = _
    rw [search_cons, hfound]
    rfl
  rw [generatedPosition, hsearch]
  rfl

end Chart

/-- In a chart where the segments of any one generated line share one source line, a generated
position that is found for a source position comes from a position on the same source line. If no
two generated lines share a source line, the source position of the first segment of a line is found
at the start of that line, and comes from there, provided that the other segments start behind
column 0 and the second one is behind the first in the source. -/
theorem generatedPosition_sourcePosition {c : Chart} (h : c.OneSourceLine) :
    (∀ (file : String) (line column : Int) (p : Location),
      c.generatedPosition file line column = some p →
      ∃ q, c.sourcePosition p.line p.column = some q ∧ q.line = line) ∧
    (c.OneGeneratedLine → ∀ (file : String) (n : Nat) (first second : Segment) (rest : Line),
      c.lines[n]? = some (first :: second :: rest) →
      (∀ s ∈ second :: rest, 0 < s.generatedColumn) → first.sourceColumn < second.sourceColumn →
      c.generatedPosition file first.sourceLine first.sourceColumn = some ⟨n, 0, file, none⟩ ∧
      ∃ q, c.sourcePosition n 0 = some q ∧ q.line = first.sourceLine ∧
        q.column = first.sourceColumn) := by
  refine ⟨fun file line column p hp => h.exists_sourcePosition hp, ?_⟩
  intro hone file n first second rest hn hbehind hcolumn
  refine ⟨Chart.generatedPosition_of_first h hone hn hcolumn file, ?_⟩
  have hcovering : Line.covering? (first :: second :: rest) 0 = some first :=
    Line.covering?_cons hbehind
  exact ⟨_, Chart.sourcePosition_of_covering? hn hcovering, rfl, rfl⟩

theorem generatedPosition_sourcePosition_swapped_lines :
    ∃ c : Chart, c = ⟨[[⟨0, 0, 1, 2, none⟩, ⟨4, 0, 1, 8, none⟩],
      [⟨0, 0, 0, 0, none⟩, ⟨9, 0, 0, 5, none⟩, ⟨3, 0, 0, 4, none⟩]], ["a"], []⟩ ∧
    c.OneSourceLine ∧ c.OneGeneratedLine ∧
    c.generatedPosition "b" 1 5 = some ⟨0, 3, "b", none⟩ ∧
    (∃ q, c.sourcePosition 0 3 = some q ∧ q.line = 1) ∧
    c.generatedPosition "b" 0 0 = some ⟨1, 0, "b", none⟩ ∧
    ∃ q, c.sourcePosition 1 0 = some q ∧ q.line = 0 ∧ q.column = 0 := by
  refine ⟨_, rfl, ?_⟩
  set c : Chart := ⟨[[⟨0, 0, 1, 2, none⟩, ⟨4, 0, 1, 8, none⟩],
    [⟨0, 0, 0, 0, none⟩, ⟨9, 0, 0, 5, none⟩, ⟨3, 0, 0, 4, none⟩]], ["a"], []⟩ with hc
  have h : c.OneSourceLine := by rw [hc]; unfold Chart.OneSourceLine; decide
  have hone : c.OneGeneratedLine := by rw [hc]; unfold Chart.OneGeneratedLine; decide
  have hfound : c.generatedPosition "b" 1 5 = some ⟨0, 3, "b", none⟩ := by rw [hc]; rfl
  obtain ⟨hback, hstart⟩ := generatedPosition_sourcePosition h
  obtain ⟨hfirst, hsource⟩ := hstart hone "b" 1 ⟨0, 0, 0, 0, none⟩ ⟨9, 0, 0, 5, none⟩
    [⟨3, 0, 0, 4, none⟩] rfl (by decide) (by decide)
  exact ⟨h, hone, hfound, hback _ _ _ _ hfound, hfirst, hsource⟩

end CodeMap
