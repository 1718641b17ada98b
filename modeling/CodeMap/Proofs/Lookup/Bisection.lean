import CodeMap.Proofs.Lookup.Covering

/-! # Halving search for the covering segment

On a line whose generated columns ascend, the segment that covers a column can be found by halving:
`upperBound` counts the columns up to the wanted one, and the segment is the last of those, or the
first of all if there is none. `sourcePosition_eq_bisection` says that `sourcePosition` finds this one,
and which one it finds on a line in any order. -/

namespace CodeMap

/-- The number of ascending entries up to a bound, if it is within `lo` and `hi`. -/
def upperBoundIn (entries : List Int) (bound : Int) (lo hi : Nat) (hhi : hi ≤ entries.length) : Nat :=
  if h : lo < hi then
    have hmid : (lo + hi) / 2 < entries.length := by omega
    if bound < entries[(lo + hi) / 2] then
      upperBoundIn entries bound lo ((lo + hi) / 2) (Nat.le_of_lt hmid)
    else upperBoundIn entries bound ((lo + hi) / 2 + 1) hi hhi
  else lo
termination_by hi - lo

/-- The number of ascending entries up to a bound. -/
def upperBound (entries : List Int) (bound : Int) : Nat :=
  upperBoundIn entries bound 0 entries.length (Nat.le_refl _)

section
variable {front back : List Int} {bound : Int}

theorem lt_getElem_append_iff (hfront : ∀ x ∈ front, x ≤ bound) (hback : ∀ x ∈ back, bound < x) {i : Nat}
    (hi : i < (front ++ back).length) : bound < (front ++ back)[i] ↔ front.length ≤ i := by
  rcases Nat.lt_or_ge i front.length with hlt | hge
  · rw [List.getElem_append_left hlt]
    have := hfront _ (List.getElem_mem hlt)
    omega
  · rw [List.getElem_append_right hge]
    exact iff_of_true (hback _ (List.getElem_mem _)) hge

theorem upperBoundIn_append (hfront : ∀ x ∈ front, x ≤ bound) (hback : ∀ x ∈ back, bound < x)
    {lo hi : Nat} (hlo : lo ≤ front.length) (hfrom : front.length ≤ hi)
    (hhi : hi ≤ (front ++ back).length) :
    upperBoundIn (front ++ back) bound lo hi hhi = front.length := by
  -- the end of `front` stays between `lo` and `hi`
  fun_induction upperBoundIn (front ++ back) bound lo hi hhi with
  | case1 lo hi hhi h hmid hlt ih =>
    exact ih hlo ((lt_getElem_append_iff hfront hback hmid).1 hlt)
  | case2 lo hi hhi h hmid hlt ih =>
    have hle := mt (lt_getElem_append_iff hfront hback hmid).2 hlt
    exact ih (by omega) hfrom
  | case3 lo hi hhi h => omega

theorem upperBound_append (hfront : ∀ x ∈ front, x ≤ bound) (hback : ∀ x ∈ back, bound < x) :
    upperBound (front ++ back) bound = front.length :=
  upperBoundIn_append hfront hback (Nat.zero_le _) (by simp) _

example : upperBound [0, 2, 2, 6] 5 = 3 := by cbv

end

/-- The columns of a line ascend, where several segments may start at one column. -/
def Line.Ascending (segments : Line) : Prop :=
  segments.Pairwise fun s t => s.generatedColumn ≤ t.generatedColumn

instance (segments : Line) : Decidable segments.Ascending :=
  inferInstanceAs (Decidable (segments.Pairwise _))

section
variable {front back : Line} {s : Segment} {column : Int}

theorem Line.Ascending.le_of_mem_front (h : Line.Ascending (front ++ s :: back)) {t : Segment}
    (ht : t ∈ front) : t.generatedColumn ≤ s.generatedColumn :=
  (List.pairwise_append.1 h).2.2 t ht s List.mem_cons_self

theorem Line.Ascending.length_eq (h : Line.Ascending (front ++ s :: back))
    (hback : ∀ t ∈ back, column < t.generatedColumn) (hs : s.generatedColumn ≤ column ∨ front = []) :
    front.length = upperBound ((front ++ s :: back).map Segment.generatedColumn) column - 1 := by
  rcases Int.lt_or_le column s.generatedColumn with hlt | hle
  · obtain rfl : front = [] := hs.resolve_left (Int.not_le.2 hlt)
    have hall : ∀ t ∈ s :: back, column < t.generatedColumn := List.forall_mem_cons.2 ⟨hlt, hback⟩
    have hzero : upperBound ([] ++ (s :: back).map Segment.generatedColumn) column = 0 :=
      upperBound_append (by simp) (List.forall_mem_map.2 hall)
    rw [List.nil_append] at hzero ⊢
    rw [hzero]
    rfl
  · have hfront : ∀ t ∈ front ++ [s], t.generatedColumn ≤ column := by
      intro t ht
      rcases List.mem_append.1 ht with ht | ht
      · exact Int.le_trans (h.le_of_mem_front ht) hle
      · exact List.mem_singleton.1 ht ▸ hle
    have hcut := upperBound_append (List.forall_mem_map.2 hfront) (List.forall_mem_map.2 hback)
    rw [← List.map_append, List.append_assoc, List.singleton_append, List.length_map,
      List.length_append, List.length_singleton] at hcut
    rw [hcut, Nat.add_sub_cancel]

theorem Line.Ascending.le_of_mem (h : Line.Ascending (front ++ s :: back))
    (hback : ∀ t ∈ back, column < t.generatedColumn) {t : Segment} (ht : t ∈ front ++ s :: back)
    (hle : t.generatedColumn ≤ column) : t.generatedColumn ≤ s.generatedColumn := by
  rcases List.mem_append.1 ht with ht | ht
  · exact h.le_of_mem_front ht
  rcases List.mem_cons.1 ht with rfl | ht
  · exact Int.le_refl _
  · have := hback t ht
    omega

end

/-- The location shows the source position of a segment, with its file and its symbol just when their
numbers are in the tables. -/
structure Chart.Shows (c : Chart) (s : Segment) (p : Location) : Prop where
  line : p.line = s.sourceLine
  column : p.column = s.sourceColumn
  file : ∀ file, p.file = some file ↔ ∃ n : Nat, c.sources[n]? = some file ∧ s.file = n
  name : ∀ name, p.name = some name ↔ ∃ n : Nat, c.names[n]? = some name ∧ s.name = some (n : Int)

theorem Chart.shows (c : Chart) (s : Segment) :
    c.Shows s ⟨s.sourceLine, s.sourceColumn, c.source? s.file, c.name? s.name⟩ :=
  ⟨rfl, rfl, fun _ => source?_eq_some_iff, fun _ => name?_eq_some_iff⟩

/-- A generated position comes from nowhere only if its line does not exist or is empty. Otherwise it
comes from the last segment that starts up to its column, or from the first one if none does. On a
line whose columns ascend, this is the segment that the halving search comes to, and none of the
others starts nearer to the column. -/
theorem sourcePosition_eq_bisection (c : Chart) (line column : Int) :
    (c.sourcePosition line column = none ↔
      line < 0 ∨ c.lineCount ≤ line ∨ c.line? line = some []) ∧
    ∀ segments, c.line? line = some segments → segments ≠ [] →
      ∃ front s back p, segments = front ++ s :: back ∧
        (∀ t ∈ back, column < t.generatedColumn) ∧ (s.generatedColumn ≤ column ∨ front = []) ∧
        c.sourcePosition line column = some p ∧ c.Shows s p ∧
        (segments.Ascending →
          front.length = upperBound (segments.map Segment.generatedColumn) column - 1 ∧
          ∀ t ∈ segments, t.generatedColumn ≤ column → t.generatedColumn ≤ s.generatedColumn) := by
  refine ⟨Chart.sourcePosition_eq_none_iff, ?_⟩
  intro segments h hne
  obtain ⟨s, hs⟩ := Line.exists_covering? hne column
  obtain ⟨front, back, rfl, hback, hfront⟩ := Line.covering?_eq_some_iff.1 hs
  refine ⟨front, s, back, _, rfl, hback, hfront, Chart.sourcePosition_of_line? h hs, c.shows s, ?_⟩
  intro hascending
  refine ⟨hascending.length_eq hback hfront, ?_⟩
  intro t ht hle
  exact hascending.le_of_mem hback ht hle

/-- Two segments start at column 2, and the second of them covers column 5. -/
theorem sourcePosition_eq_bisection_repeated_column :
    ∃ c : Chart, ∃ segments : Line, c = ⟨[segments], ["a"], ["f"]⟩ ∧
      segments = [⟨0, 0, 0, 0, none⟩, ⟨2, 0, 3, 1, none⟩, ⟨2, 1, 4, 7, some 0⟩, ⟨6, 0, 5, 0, none⟩] ∧
      c.line? 0 = some segments ∧ segments ≠ [] ∧ segments.Ascending ∧
      c.sourcePosition 0 5 = some ⟨4, 7, none, "f"⟩ ∧
      ∃ front s back p, segments = front ++ s :: back ∧
        front.length = upperBound (segments.map Segment.generatedColumn) 5 - 1 ∧
        c.sourcePosition 0 5 = some p ∧ c.Shows s p := by
  refine ⟨_, _, rfl, rfl, rfl, by decide, by decide, rfl, ?_⟩
  set segments : Line :=
    [⟨0, 0, 0, 0, none⟩, ⟨2, 0, 3, 1, none⟩, ⟨2, 1, 4, 7, some 0⟩, ⟨6, 0, 5, 0, none⟩] with hsegments
  obtain ⟨front, s, back, p, hsplit, -, -, hp, hshows, hascending⟩ :=
    (sourcePosition_eq_bisection ⟨[segments], ["a"], ["f"]⟩ 0 5).2 segments rfl (by decide)
  exact ⟨front, s, back, p, hsplit, (hascending (by decide)).1, hp, hshows⟩

end CodeMap
