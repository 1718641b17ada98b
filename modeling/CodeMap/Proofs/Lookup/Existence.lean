import CodeMap.Proofs.Lookup.Covering
import CodeMap.Proofs.Lookup.Found
import CodeMap.Proofs.Lookup.Selection

/-! # When a source position is found

A source position has a generated one if and only if some segment of its source line is behind it. The
generated line that is found has such a segment, and the column is counted from the segment of the
source line in front of it, unless it is 0. Both are stated in `generatedPosition_complete`. -/

namespace CodeMap

section
variable {line column : Int} {segments : Line} {s : Segment}

theorem lastUpTo?_eq_some (h : segments.lastUpTo? line column = some s) :
    ∃ front back, segments = front ++ s :: back ∧ s.UpTo line column ∧
      ∀ t ∈ back, ¬ t.UpTo line column := by
  obtain ⟨front, back, hsplit, hs, hback⟩ := find?_reverse_eq_some_iff.1 h
  exact ⟨front, back, hsplit, of_decide_eq_true hs, by simpa using hback⟩

end

namespace Chart
variable {c : Chart} {line column : Int}

theorem selection_eq_none_iff :
    c.selection line column = none ↔ ∀ p ∈ c.places, ¬ c.IsBehind line column p := by
  rcases selection_cases c line column with ⟨front, p, back, h, -, hexact, hselection⟩ |
    ⟨front, back, h, hfront, hback, hselection⟩
  · have hp : p ∈ c.places := h ▸ List.mem_append_right front List.mem_cons_self
    rw [hselection, Option.map_eq_none_iff, lastUpTo?_eq_none_iff]
    exact iff_of_false (not_not.2 hexact.2) fun hall => hall p hp hexact.1
  · rw [hselection, Option.map_eq_none_iff, fallbackLine_eq_none_iff, bareLines_eq_nil_iff]
    rcases hback with rfl | ⟨q, hq, hbare⟩
    · rw [List.append_nil] at h
      rw [h]
      refine forall₂_congr fun p hp => not_congr ?_
      have hexact : ¬ c.IsExact line column p := fun hexact => hfront p hp (.inl hexact)
      rw [isBehind_iff, or_iff_right hexact]
    · have hplace : q ∈ c.places := h ▸ List.mem_append_left back hq
      exact iff_of_false (fun hall => hall q hq hbare) fun hall => hall q hplace hbare.1

theorem exists_isBehind_iff : (∃ p ∈ c.places, c.IsBehind line column p) ↔
    ∃ segments ∈ c.lines, segments.HasBehind line column := by
  constructor
  · rintro ⟨p, -, s, hs, hbehind⟩
    obtain ⟨back, hn⟩ := exists_split_of_segment? hs
    exact ⟨_, List.mem_of_getElem? hn, s, List.mem_append_right _ List.mem_cons_self, hbehind⟩
  · rintro ⟨segments, hmem, s, hs, hbehind⟩
    obtain ⟨n, hn⟩ := List.getElem?_of_mem hmem
    obtain ⟨front, back, rfl⟩ := List.append_of_mem hs
    exact ⟨_, mem_places_of_split hn, (isBehind_iff_of_split hn).2 hbehind⟩

theorem generatedPosition_eq_none_iff (c : Chart) (file : String) (line column : Int) :
    c.generatedPosition file line column = none ↔
      ∀ segments ∈ c.lines, ¬ segments.HasBehind line column := by
  have hplaces : (∀ p ∈ c.places, ¬ c.IsBehind line column p) ↔
      ∀ segments ∈ c.lines, ¬ segments.HasBehind line column := by
    simpa using not_congr (@exists_isBehind_iff c line column)
  rw [generatedPosition, Option.map_eq_none_iff, position?_search, selection_eq_none_iff, hplaces]

/-- Between the segment that an exact one counts from and the exact one, there is none of the wanted
source line. -/
theorem IsExact.exists_between {front back : List Place} {p : Place}
    (h : c.places = front ++ p :: back) (hfront : ∀ q ∈ front, ¬ c.IsDecisive line column q)
    (hexact : c.IsExact line column p) :
    ∃ before s between t after,
      c.lines[p.line]? = some (before ++ s :: between ++ t :: after) ∧
      Line.lastUpTo? line column (c.earlier p) = some s ∧ s.UpTo line column ∧
      t.Behind line column ∧ ∀ u ∈ between, u.sourceLine ≠ line := by
  obtain ⟨t, ht, hbehind⟩ := hexact.1
  obtain ⟨after, hn⟩ := exists_split_of_segment? ht
  obtain ⟨s, hs⟩ := Option.ne_none_iff_exists'.1 (lastUpTo?_eq_none_iff.not_left.2 hexact.2)
  obtain ⟨before, between, hearlier, hupTo, hbetween⟩ := lastUpTo?_eq_some hs
  have hlength := length_earlier ht
  rw [hearlier] at hn hlength
  refine ⟨before, s, between, t, after, hn, hs, hupTo, hbehind, fun u hu hline => ?_⟩
  -- a segment of the source line in between would be exact itself, and before `p`
  rcases Segment.behind_or_upTo column hline with hu' | hu'
  · obtain ⟨mid, last, rfl⟩ := List.append_of_mem hu
    have hcut : c.lines[p.line]? = some ((before ++ s :: mid) ++ u :: (last ++ t :: after)) := by
      simpa using hn
    have hq : c.IsExact line column ⟨p.line, (before ++ s :: mid).length⟩ := by
      rw [isExact_iff_of_split hcut, Ne, lastUpTo?_eq_none_iff, not_not]
      exact ⟨hu', s, List.mem_append_right _ List.mem_cons_self, hupTo⟩
    have hbefore : Place.Before ⟨p.line, (before ++ s :: mid).length⟩ p := by
      refine .inr ⟨rfl, ?_⟩
      rw [← hlength]
      simp
    exact hfront _ ((before_iff_mem h (mem_places_of_split hcut)).1 hbefore) (.inl hq)
  · exact hbetween u hu hu'

/-- A position that is found is the start of a line, or it is counted from a segment. -/
theorem exists_between_of_selection {n : Nat} {start : Int}
    (h : c.selection line column = some (n, start)) :
    0 ≤ start ∧ (start = 0 ∨ ∃ before s between t after,
      c.lines[n]? = some (before ++ s :: between ++ t :: after) ∧ s.UpTo line column ∧
      t.Behind line column ∧ (∀ u ∈ between, u.sourceLine ≠ line) ∧
      s.sourceColumn = column - start) := by
  rcases selection_cases c line column with ⟨front, p, back, hplaces, hfront, hexact, hselection⟩ |
    ⟨front, back, -, -, -, hselection⟩
  · obtain ⟨before, s, between, t, after, hn, hs, hupTo, hbehind, hbetween⟩ :=
      hexact.exists_between hplaces hfront
    rw [h, hs] at hselection
    obtain ⟨rfl, rfl⟩ := Prod.mk.inj (Option.some.inj hselection)
    have hcolumn := hupTo.2
    exact ⟨by omega, .inr ⟨before, s, between, t, after, hn, hupTo, hbehind, hbetween, by omega⟩⟩
  · rw [h] at hselection
    obtain ⟨m, -, heq⟩ := Option.map_eq_some_iff.1 hselection.symm
    obtain ⟨-, rfl⟩ := Prod.mk.inj heq
    exact ⟨Int.le_refl 0, .inl rfl⟩

end Chart

/-- A source position has no generated one if and only if no segment of its source line is behind it,
so whatever is found for a column is found for those before it too. What is found lies in a generated
line with such a segment: at column 0, or as far behind the last segment of the source line up to the
position as the position itself, where the next segment of the source line is behind it. -/
theorem generatedPosition_complete (c : Chart) (file : String) (line column : Int) :
    (c.generatedPosition file line column = none ↔
      ∀ segments ∈ c.lines, ∀ s ∈ segments, ¬ (s.sourceLine = line ∧ column < s.sourceColumn)) ∧
    (∀ column' ≤ column, c.generatedPosition file line column ≠ none →
      c.generatedPosition file line column' ≠ none) ∧
    ∀ p, c.generatedPosition file line column = some p →
      0 ≤ p.line ∧ p.line < c.lineCount ∧ 0 ≤ p.column ∧
      ∃ segments, c.line? p.line = some segments ∧
        (∃ s ∈ segments, s.sourceLine = line ∧ column < s.sourceColumn) ∧
        (p.column = 0 ∨ ∃ before s between t after,
          segments = before ++ s :: between ++ t :: after ∧
          s.sourceLine = line ∧ t.sourceLine = line ∧ (∀ u ∈ between, u.sourceLine ≠ line) ∧
          s.sourceColumn = column - p.column ∧ s.sourceColumn ≤ column ∧
          column < t.sourceColumn) := by
  refine ⟨?_, ?_, ?_⟩
  · rw [Chart.generatedPosition_eq_none_iff]
    simp only [Line.HasBehind, not_exists, not_and]
  · intro column' hle hfound
    rw [Ne, Chart.generatedPosition_eq_none_iff] at hfound ⊢
    refine fun hnone => hfound fun segments hmem => ?_
    rintro ⟨s, hs, hline, hbehind⟩
    exact hnone segments hmem ⟨s, hs, hline, Int.lt_of_le_of_lt hle hbehind⟩
  · intro p hp
    obtain ⟨n, segments, hline, hn, hbehind⟩ := exists_of_generatedPosition hp
    obtain ⟨⟨m, start⟩, hposition, rfl⟩ := Option.map_eq_some_iff.1 hp
    obtain rfl : m = n := Int.ofNat.inj hline
    rw [Chart.position?_search] at hposition
    obtain ⟨hstart, hcases⟩ := Chart.exists_between_of_selection hposition
    obtain ⟨hlt, -⟩ := List.getElem?_eq_some_iff.1 hn
    refine ⟨Int.natCast_nonneg m, Int.ofNat_lt.2 hlt, hstart, segments, ?_, hbehind, ?_⟩
    · rw [Chart.line?, entryAt?_natCast, hn]
    · refine hcases.imp_right ?_
      rintro ⟨before, s, between, t, after, hsplit, hupTo, ht, hbetween, hcolumn⟩
      rw [hn] at hsplit
      exact ⟨before, s, between, t, after, Option.some.inj hsplit, hupTo.1, ht.1, hbetween, hcolumn,
        hupTo.2, ht.2⟩

/-- The second line has no segment behind the wanted position, so the column is counted from the first
segment of the third line. -/
theorem generatedPosition_complete_third_line :
    ∃ c : Chart, c = ⟨[[⟨0, 0, 2, 0, none⟩], [⟨0, 0, 1, 2, none⟩],
      [⟨0, 0, 1, 3, none⟩, ⟨4, 0, 7, 0, none⟩, ⟨8, 0, 1, 9, none⟩]], [], []⟩ ∧
    c.generatedPosition "b" 1 5 = some ⟨2, 2, "b", none⟩ ∧
    c.generatedPosition "b" 1 (-4) ≠ none ∧
    ∃ segments, c.line? 2 = some segments ∧
      ((2 : Int) = 0 ∨ ∃ before s between t after,
        segments = before ++ s :: between ++ t :: after ∧
        s.sourceLine = 1 ∧ t.sourceLine = 1 ∧ (∀ u ∈ between, u.sourceLine ≠ 1) ∧
        s.sourceColumn = 5 - 2 ∧ s.sourceColumn ≤ 5 ∧ 5 < t.sourceColumn) := by
  refine ⟨_, rfl, ?_⟩
  set c : Chart := ⟨[[⟨0, 0, 2, 0, none⟩], [⟨0, 0, 1, 2, none⟩],
    [⟨0, 0, 1, 3, none⟩, ⟨4, 0, 7, 0, none⟩, ⟨8, 0, 1, 9, none⟩]], [], []⟩ with hc
  have hfound : c.generatedPosition "b" 1 5 = some ⟨2, 2, "b", none⟩ := by rw [hc]; rfl
  obtain ⟨-, hbefore, hafter⟩ := generatedPosition_complete c "b" 1 5
  obtain ⟨-, -, -, segments, hline, -, hbetween⟩ := hafter _ hfound
  exact ⟨hfound, hbefore (-4) (by decide) (by simp [hfound]), segments, hline, hbetween⟩

end CodeMap
