import CodeMap.Proofs.Mappings.PrefixSums
import CodeMap.Proofs.Mappings.RoundTrip

/-! # The range of the coordinates

A field is at most `Quantity.maxValue` from zero, so a sum of fields is at most as many times that as
it has segments (`natAbs_fieldSum_le`), and a text has at most as many segments as characters
(`length_flatten_le`). `chart_coordinates_within` bounds every coordinate by the number of its segment
and says that a text of up to 2^32 characters can be added up in words of 64 bits. -/

namespace CodeMap

/-- The source position and the name of a segment are at most `n` from zero. -/
structure Segment.Within (n : Nat) (s : Segment) : Prop where
  file : s.file.natAbs ≤ n
  sourceLine : s.sourceLine.natAbs ≤ n
  sourceColumn : s.sourceColumn.natAbs ≤ n
  name : ∀ i ∈ s.name, i.natAbs ≤ n

theorem Segment.Within.mono {n m : Nat} {s : Segment} (h : s.Within n) (hle : n ≤ m) : s.Within m :=
  ⟨h.file.trans hle, h.sourceLine.trans hle, h.sourceColumn.trans hle, fun i hi => (h.name i hi).trans hle⟩

namespace Mappings

/-- Each of the sums is at most `n` from zero. -/
structure Totals.Within (n : Nat) (t : Totals) : Prop where
  file : t.file.natAbs ≤ n
  sourceLine : t.sourceLine.natAbs ≤ n
  sourceColumn : t.sourceColumn.natAbs ≤ n
  name : t.name.natAbs ≤ n

/-- No field of the segments is more than `n` from zero. -/
def Bounded (n : Nat) (ds : List Deltas) : Prop := ∀ d ∈ ds, ∀ v ∈ d, v.natAbs ≤ n

section
variable {n m : Nat} {t : Totals} {ds ds' : List Deltas}

theorem Totals.Within.mono (h : t.Within n) (hle : n ≤ m) : t.Within m :=
  ⟨h.file.trans hle, h.sourceLine.trans hle, h.sourceColumn.trans hle, h.name.trans hle⟩

theorem Totals.Within.segment (h : t.Within n) (column : Int) (d : Deltas) :
    (t.segment column d).Within n := by
  refine ⟨h.file, h.sourceLine, h.sourceColumn, ?_⟩
  intro i hi
  obtain ⟨-, hi⟩ := Option.ite_none_right_eq_some.1 hi
  cases hi
  exact h.name

theorem Bounded.sublist (h : Bounded n ds) (hsub : ds'.Sublist ds) : Bounded n ds' :=
  fun d hd => h d (hsub.subset hd)

/-! ### Sums of bounded fields -/

theorem natAbs_fieldSum_le (h : Bounded n ds) (k : Nat) : (fieldSum k ds).natAbs ≤ ds.length * n := by
  induction ds with
  | nil => exact Nat.zero_le _
  | cons d ds ih =>
    obtain ⟨hd, hds⟩ := List.forall_mem_cons.1 h
    calc (fieldSum k (d :: ds)).natAbs
        = (d.getD k 0 + fieldSum k ds).natAbs := by rw [fieldSum_cons]
      _ ≤ (d.getD k 0).natAbs + (fieldSum k ds).natAbs := Int.natAbs_add_le _ _
      _ ≤ n + ds.length * n := Nat.add_le_add (natAbs_getD_le hd k) (ih hds)
      _ = (d :: ds).length * n := by rw [List.length_cons, Nat.succ_mul, Nat.add_comm]

theorem within_foldl_advance (h : Bounded n ds) :
    (ds.foldl Totals.advance {}).Within (ds.length * n) := by
  rw [foldl_advance]
  simp only [Int.zero_add]
  exact ⟨natAbs_fieldSum_le h 1, natAbs_fieldSum_le h 2, natAbs_fieldSum_le h 3, natAbs_fieldSum_le h 4⟩

end

/-! ### Segments by their number -/

section
variable {n : Nat} {ds : List (List Deltas)}

theorem length_flatten_place (t : Totals) (ds : List (List Deltas)) :
    (place t ds).flatten.length = ds.flatten.length := by
  induction ds generalizing t with
  | nil => rfl
  | cons line ds ih =>
    simp only [place, placeLine_eq_mapIdx, List.flatten_cons, List.length_append, List.length_mapIdx, ih]

/-- The segment with number `k` of a text is added up from the segments up to it. -/
theorem exists_of_getElem?_flatten_place {t : Totals} {k : Nat} {s : Segment}
    (h : (place t ds).flatten[k]? = some s) :
    ∃ column d, s = ((ds.flatten.take (k + 1)).foldl Totals.advance t).segment column d := by
  induction ds generalizing t k with
  | nil => cases h
  | cons line ds ih =>
    have hlength : (placeLine t 0 line).length = line.length := by
      rw [placeLine_eq_mapIdx, List.length_mapIdx]
    rw [place, List.flatten_cons] at h
    rw [List.flatten_cons, List.take_append, List.foldl_append]
    -- the segment is on the first line, or all segments of that line come before it
    rcases Nat.lt_or_ge k line.length with hlt | hge
    · rw [List.getElem?_append_left (hlength ▸ hlt), placeLine_eq_mapIdx, List.getElem?_mapIdx] at h
      obtain ⟨d, -, rfl⟩ := Option.map_eq_some_iff.1 h
      rw [Nat.sub_eq_zero_of_le hlt]
      exact ⟨_, d, rfl⟩
    · rw [List.getElem?_append_right (hlength ▸ hge), hlength] at h
      rw [List.take_of_length_le (Nat.le_succ_of_le hge), Nat.succ_sub hge]
      exact ih h

theorem within_of_getElem?_flatten_place (h : Bounded n ds.flatten) {k : Nat} {s : Segment}
    (hs : (place {} ds).flatten[k]? = some s) : s.Within ((k + 1) * n) := by
  obtain ⟨hk, -⟩ := List.getElem?_eq_some_iff.1 hs
  rw [length_flatten_place] at hk
  obtain ⟨column, d, rfl⟩ := exists_of_getElem?_flatten_place hs
  have hwithin := within_foldl_advance (h.sublist (List.take_sublist (k + 1) ds.flatten))
  rw [List.length_take_of_le hk] at hwithin
  exact hwithin.segment column d

/-- The segment with number `j` of a line starts at the sum of the columns up to it. -/
theorem natAbs_generatedColumn_le (h : Bounded n ds.flatten) {t : Totals} {segments : Line}
    (hsegments : segments ∈ place t ds) {j : Nat} {s : Segment} (hs : segments[j]? = some s) :
    s.generatedColumn.natAbs ≤ (j + 1) * n := by
  obtain ⟨i, hi⟩ := List.mem_iff_getElem?.1 hsegments
  rw [getElem?_place] at hi
  obtain ⟨line, hline, rfl⟩ := Option.map_eq_some_iff.1 hi
  rw [placeLine_eq_mapIdx, List.getElem?_mapIdx] at hs
  obtain ⟨d, hd, rfl⟩ := Option.map_eq_some_iff.1 hs
  obtain ⟨hj, -⟩ := List.getElem?_eq_some_iff.1 hd
  have hsub : (line.take (j + 1)).Sublist ds.flatten :=
    (List.take_sublist _ _).trans (List.sublist_flatten_of_mem (List.mem_of_getElem? hline))
  have hsum := natAbs_fieldSum_le (h.sublist hsub) 0
  rw [List.length_take_of_le hj] at hsum
  rwa [Totals.segment, Int.zero_add]

end

/-! ### Segments and characters -/

theorem flatten_segmentTexts_sublist (line : List Char) : (segmentTexts line).flatten.Sublist line := by
  rw [segmentTexts]
  split
  · exact List.nil_sublist line
  · exact Text.flatten_splitOn_sublist ',' line

theorem flatten_flatMap_segmentTexts_sublist (lines : List (List Char)) :
    (lines.flatMap segmentTexts).flatten.Sublist lines.flatten := by
  induction lines with
  | nil => exact List.Sublist.slnil
  | cons line lines ih =>
    rw [List.flatMap_cons, List.flatten_append, List.flatten_cons]
    exact (flatten_segmentTexts_sublist line).append ih

/-- No segment that is read is empty, so there are at most as many as characters. -/
theorem length_flatten_le {text : List Char} {ds : List (List Deltas)} (h : readDeltas text = .ok ds) :
    ds.flatten.length ≤ text.length := by
  set texts := (text.splitOn ';').flatMap segmentTexts with htexts
  have hmap : texts.map readSegment = ds.flatten.map .ok := by
    rw [htexts, List.flatMap_def, List.map_flatten, List.map_map, List.map_flatten]
    exact congrArg List.flatten (readDeltas_eq_ok_iff.1 h)
  have hne : ∀ n ∈ texts.map List.length, 1 ≤ n := by
    intro n hn
    obtain ⟨segment, hsegment, rfl⟩ := List.mem_map.1 hn
    obtain ⟨d, -, hd⟩ := exists_mem_of_map_eq_map hmap.symm hsegment
    exact List.length_pos_of_ne_nil (readSegment_eq_ok_iff.1 hd.symm).1
  have hlength := congrArg List.length hmap
  rw [List.length_map, List.length_map] at hlength
  calc ds.flatten.length
      = (texts.map List.length).length := by rw [List.length_map, hlength]
    _ ≤ (texts.map List.length).sum := List.length_le_sum_of_one_le _ hne
    _ = texts.flatten.length := List.length_flatten.symm
    _ ≤ (text.splitOn ';').flatten.length := (flatten_flatMap_segmentTexts_sublist _).length_le
    _ ≤ text.length := (Text.flatten_splitOn_sublist ';' text).length_le

theorem bounded_of_readDeltas {text : List Char} {ds : List (List Deltas)}
    (h : readDeltas text = .ok ds) : Bounded (2 ^ 30 - 1) ds.flatten := by
  intro d hd
  obtain ⟨line, hline, hd⟩ := List.mem_flatten.1 hd
  exact (writable_of_readDeltas h line hline d hd).2

/-- Sums of up to 2^32 fields have 64 bits. -/
theorem mul_le_of_le {k : Nat} (h : k ≤ 2 ^ 32) : k * (2 ^ 30 - 1) ≤ 2 ^ 63 - 1 :=
  (Nat.mul_le_mul_right _ h).trans (by decide)

end Mappings

open Mappings

/-- The lines of a chart are added up from bounded fields; without mappings there are none. -/
theorem exists_bounded_of_chart {d : Document} {c : Chart} (hc : d.chart = .ok c) :
    ∃ ds, c.lines = place {} ds ∧ Bounded (2 ^ 30 - 1) ds.flatten ∧
      ∀ text, d.mappings = some text → readDeltas text.toList = .ok ds := by
  cases hd : d.mappings with
  | none =>
    simp only [Document.chart, hd] at hc
    cases hc
    refine ⟨[], rfl, List.forall_mem_nil _, ?_⟩
    intro text htext
    cases htext
  | some text =>
    obtain ⟨ds, hds, hlines⟩ := exists_deltas_of_chart hd hc
    refine ⟨ds, hlines, bounded_of_readDeltas hds, ?_⟩
    intro text' htext
    cases htext
    exact hds

/-- A field is at most 2^30 - 1 from zero, so the source position and the name of a segment are at most
as many times that as the number of the segment in the document, counted from one, and its generated
column as its number in the line. With a text of up to 2^32 characters all sums have 64 bits, after
every segment and whether it is named or not. -/
theorem chart_coordinates_within {d : Document} {c : Chart} (hc : d.chart = .ok c) :
    (∀ (k : Nat) (s : Segment), c.lines.flatten[k]? = some s → s.Within ((k + 1) * (2 ^ 30 - 1))) ∧
    (∀ segments ∈ c.lines, ∀ (j : Nat) (s : Segment), segments[j]? = some s →
      s.generatedColumn.natAbs ≤ (j + 1) * (2 ^ 30 - 1)) ∧
    ∀ text, d.mappings = some text → text.length ≤ 2 ^ 32 →
      (∀ segments ∈ c.lines, ∀ s ∈ segments,
        s.Within (2 ^ 63 - 1) ∧ s.generatedColumn.natAbs ≤ 2 ^ 63 - 1) ∧
      ∃ ds, readDeltas text.toList = .ok ds ∧ c.lines = place {} ds ∧
        (∀ front, front <+: ds.flatten → (front.foldl Totals.advance {}).Within (2 ^ 63 - 1)) ∧
        ∀ line ∈ ds, ∀ front, front <+: line → (fieldSum 0 front).natAbs ≤ 2 ^ 63 - 1 := by
  obtain ⟨ds, hlines, hbounded, hread⟩ := exists_bounded_of_chart hc
  rw [hlines]
  have hsource : ∀ (k : Nat) (s : Segment), (place {} ds).flatten[k]? = some s →
      s.Within ((k + 1) * (2 ^ 30 - 1)) :=
    fun _ _ hs => within_of_getElem?_flatten_place hbounded hs
  have hcolumn : ∀ segments ∈ place {} ds, ∀ (j : Nat) (s : Segment), segments[j]? = some s →
      s.generatedColumn.natAbs ≤ (j + 1) * (2 ^ 30 - 1) :=
    fun _ hsegments _ _ hs => natAbs_generatedColumn_le hbounded hsegments hs
  refine ⟨hsource, hcolumn, ?_⟩
  intro text htext hlength
  have hcount : ds.flatten.length ≤ 2 ^ 32 :=
    (length_flatten_le (hread text htext)).trans (String.length_toList ▸ hlength)
  refine ⟨?_, ds, hread text htext, rfl, ?_, ?_⟩
  · intro segments hsegments s hs
    obtain ⟨k, hk⟩ := List.mem_iff_getElem?.1 (List.mem_flatten_of_mem hsegments hs)
    obtain ⟨j, hj⟩ := List.mem_iff_getElem?.1 hs
    have hklt := (List.getElem?_eq_some_iff.1 hk).1
    have hjlt := (List.getElem?_eq_some_iff.1 hj).1
    -- its numbers in the document and in the line are both below the count of all segments
    have hle := (List.sublist_flatten_of_mem hsegments).length_le
    rw [length_flatten_place] at hklt hle
    exact ⟨(hsource k s hk).mono (mul_le_of_le (by omega)),
      (hcolumn segments hsegments j s hj).trans (mul_le_of_le (by omega))⟩
  · intro front hfront
    have hwithin := within_foldl_advance (hbounded.sublist hfront.sublist)
    exact hwithin.mono (mul_le_of_le (hfront.length_le.trans hcount))
  · intro line hline front hfront
    have hsub := hfront.sublist.trans (List.sublist_flatten_of_mem hline)
    have hsum := natAbs_fieldSum_le (hbounded.sublist hsub) 0
    exact hsum.trans (mul_le_of_le (hsub.length_le.trans hcount))

/-- Both segments have 2^30 - 1 in the fields that they hold, so the second one reaches the bound. -/
theorem chart_coordinates_within_reached :
    ∃ (d : Document) (c : Chart) (s : Segment),
      d = ⟨3, "", "", [], [], some "+/////B+/////B,+/////B+/////B"⟩ ∧ d.chart = .ok c ∧
      c.lines.flatten[1]? = some s ∧ s = ⟨2147483646, 2147483646, 0, 0, none⟩ ∧
      (1 + 1) * (2 ^ 30 - 1) = 2147483646 ∧ s.Within ((1 + 1) * (2 ^ 30 - 1)) ∧
      s.generatedColumn.natAbs ≤ (1 + 1) * (2 ^ 30 - 1) ∧
      ∃ ds, c.lines = place {} ds ∧
        ∀ front, front <+: ds.flatten → (front.foldl Totals.advance {}).Within (2 ^ 63 - 1) := by
  have hchart : (⟨3, "", "", [], [], some "+/////B+/////B,+/////B+/////B"⟩ : Document).chart =
      .ok ⟨[[⟨1073741823, 1073741823, 0, 0, none⟩, ⟨2147483646, 2147483646, 0, 0, none⟩]], [], []⟩ := rfl
  obtain ⟨hsource, hcolumn, hsums⟩ := chart_coordinates_within hchart
  obtain ⟨-, ds, -, hlines, htotals, -⟩ := hsums _ rfl (by decide)
  exact ⟨_, _, _, rfl, hchart, rfl, rfl, rfl, hsource 1 _ rfl,
    hcolumn _ (List.mem_singleton_self _) 1 _ rfl, ds, hlines, htotals⟩

end CodeMap
