import CodeMap.Proofs.Lookup.Places
import CodeMap.Proofs.Lookup.Renumbering

/-! # The segment that decides a search

A segment behind the wanted source position is exact if a segment before it on its generated line is
up to the position, and bare if none is. `Chart.selection` says by the first exact segment, the bare
ones and those of later source lines what a search selects. The search is one scan over all places
(`search_eq_scan`), and it finds what is selected (`generatedPosition_eq_selection`). -/

namespace CodeMap

/-! ### Before and behind the wanted position -/

namespace Segment
variable (line column : Int) (s : Segment)

/-- The segment is of a source line, behind a column of it. -/
def Behind : Prop := s.sourceLine = line ∧ column < s.sourceColumn

/-- The segment is of a source line, at or before a column of it. -/
def UpTo : Prop := s.sourceLine = line ∧ s.sourceColumn ≤ column

instance : Decidable (s.Behind line column) := inferInstanceAs (Decidable (_ ∧ _))

instance : Decidable (s.UpTo line column) := inferInstanceAs (Decidable (_ ∧ _))

variable {line column s}

theorem UpTo.not_behind (h : s.UpTo line column) : ¬ s.Behind line column :=
  fun hbehind => absurd hbehind.2 (Int.not_lt.2 h.2)

theorem behind_or_upTo (column : Int) (h : s.sourceLine = line) :
    s.Behind line column ∨ s.UpTo line column := by
  rcases Int.lt_or_le column s.sourceColumn with hlt | hle
  · exact .inl ⟨h, hlt⟩
  · exact .inr ⟨h, hle⟩

end Segment

/-- The last segment up to a source position. -/
def Line.lastUpTo? (line column : Int) (segments : Line) : Option Segment :=
  segments.reverse.find? (·.UpTo line column)

section
variable {line column : Int} {segments : Line} {s : Segment}

theorem lastUpTo?_eq_none_iff :
    segments.lastUpTo? line column = none ↔ ¬ ∃ s ∈ segments, s.UpTo line column := by
  simp [Line.lastUpTo?]

theorem lastUpTo?_append (segments : Line) (s : Segment) :
    Line.lastUpTo? line column (segments ++ [s]) =
      if s.UpTo line column then some s else segments.lastUpTo? line column := by
  rw [Line.lastUpTo?, List.reverse_append, List.reverse_singleton, List.singleton_append,
    List.find?_cons]
  by_cases h : s.UpTo line column <;> simp [h, Line.lastUpTo?]

end

/-! ### Kinds of segments -/

namespace Chart
variable (c : Chart) (line column : Int) (p : Place)

/-- The segment at a place is behind the wanted position. -/
def IsBehind : Prop := ∃ s ∈ c.segment? p, s.Behind line column

/-- It is behind the wanted position and comes after one on its generated line that is up to it. -/
def IsExact : Prop := c.IsBehind line column p ∧ ∃ s ∈ c.earlier p, s.UpTo line column

/-- It is behind the wanted position and comes after none on its generated line that is up to it. -/
def IsBare : Prop := c.IsBehind line column p ∧ ¬ ∃ s ∈ c.earlier p, s.UpTo line column

/-- It is of a source line behind the wanted one. -/
def IsLater : Prop := ∃ s ∈ c.segment? p, line < s.sourceLine

/-- It is of a source line behind the wanted one and comes after a bare segment. -/
def IsStop : Prop := c.IsLater line p ∧ ∃ q ∈ c.places, q.Before p ∧ c.IsBare line column q

/-- It is one of those that end a search. -/
def IsDecisive : Prop := c.IsExact line column p ∨ c.IsStop line column p

instance : Decidable (c.IsBehind line column p) := inferInstanceAs (Decidable (∃ s ∈ _, _))

instance : Decidable (c.IsExact line column p) := inferInstanceAs (Decidable (_ ∧ _))

instance : Decidable (c.IsBare line column p) := inferInstanceAs (Decidable (_ ∧ _))

instance : Decidable (c.IsLater line p) := inferInstanceAs (Decidable (∃ s ∈ _, _))

instance : Decidable (c.IsStop line column p) := inferInstanceAs (Decidable (_ ∧ _))

instance : Decidable (c.IsDecisive line column p) := inferInstanceAs (Decidable (_ ∨ _))

variable {c line column p}

theorem isBehind_iff : c.IsBehind line column p ↔ c.IsExact line column p ∨ c.IsBare line column p := by
  unfold IsExact IsBare
  rw [← and_or_left]
  exact (and_iff_left (Decidable.em _)).symm

theorem IsBehind.not_isLater (h : c.IsBehind line column p) : ¬ c.IsLater line p := by
  obtain ⟨s, hs, hline, -⟩ := h
  rintro ⟨t, ht, hlater⟩
  rw [Option.mem_unique ht hs] at hlater
  omega

section
variable {n : Nat} {front back : Line} {s : Segment}

theorem isBehind_iff_of_split (hn : c.lines[n]? = some (front ++ s :: back)) :
    c.IsBehind line column ⟨n, front.length⟩ ↔ s.Behind line column := by
  simp [IsBehind, segment?_eq hn]

theorem isExact_iff_of_split (hn : c.lines[n]? = some (front ++ s :: back)) :
    c.IsExact line column ⟨n, front.length⟩ ↔
      s.Behind line column ∧ front.lastUpTo? line column ≠ none := by
  rw [IsExact, isBehind_iff_of_split hn, earlier_eq hn, Ne, lastUpTo?_eq_none_iff,
    Decidable.not_not]

theorem isBare_iff_of_split (hn : c.lines[n]? = some (front ++ s :: back)) :
    c.IsBare line column ⟨n, front.length⟩ ↔
      s.Behind line column ∧ front.lastUpTo? line column = none := by
  rw [IsBare, isBehind_iff_of_split hn, earlier_eq hn, lastUpTo?_eq_none_iff]

theorem isLater_iff_of_split (hn : c.lines[n]? = some (front ++ s :: back)) :
    c.IsLater line ⟨n, front.length⟩ ↔ line < s.sourceLine := by
  simp [IsLater, segment?_eq hn]

end

end Chart

/-! ### The selected position -/

/-- Of some generated lines the first one that is not the first of them, or else that one. -/
def fallbackLine (lines : List Nat) : Option Nat :=
  lines.head?.map fun first => (lines.find? (· ≠ first)).getD first

theorem fallbackLine_eq_none_iff {lines : List Nat} : fallbackLine lines = none ↔ lines = [] := by
  rw [fallbackLine, Option.map_eq_none_iff, List.head?_eq_none_iff]

namespace Chart
variable (c : Chart) (line column : Int)

/-- The generated lines of the bare segments at some places. -/
def bareLines (places : List Place) : List Nat :=
  (places.filter (c.IsBare line column ·)).map Place.line

/-- The generated position that the first decisive segment leaves: one after the last segment up to
the wanted position if it is exact, or else the start of a line with a bare segment before it. -/
def selection : Option (Nat × Int) :=
  match c.places.find? (c.IsDecisive line column ·) with
  | some p =>
    if c.IsExact line column p then
      (Line.lastUpTo? line column (c.earlier p)).map fun s => (p.line, column - s.sourceColumn)
    else (fallbackLine (c.bareLines line column (c.places.filter (·.Before p)))).map (·, 0)
  | none => (fallbackLine (c.bareLines line column c.places)).map (·, 0)

variable {c line column}

theorem bareLines_eq_nil_iff {places : List Place} :
    c.bareLines line column places = [] ↔ ∀ p ∈ places, ¬ c.IsBare line column p := by
  rw [bareLines, List.map_eq_nil_iff, List.filter_eq_nil_iff]
  simp

section
variable {front back : List Place} {p : Place}

theorem find?_isDecisive (h : c.places = front ++ p :: back)
    (hfront : ∀ q ∈ front, ¬ c.IsDecisive line column q) (hp : c.IsDecisive line column p) :
    c.places.find? (c.IsDecisive line column ·) = some p := by
  rw [List.find?_eq_some_iff_append]
  exact ⟨by simpa using hp, front, back, h, by simpa using hfront⟩

theorem selection_of_isExact (h : c.places = front ++ p :: back)
    (hfront : ∀ q ∈ front, ¬ c.IsDecisive line column q) (hp : c.IsExact line column p) :
    c.selection line column = (Line.lastUpTo? line column (c.earlier p)).map fun s =>
      (p.line, column - s.sourceColumn) := by
  rw [selection, find?_isDecisive h hfront (.inl hp)]
  exact if_pos hp

theorem selection_of_isStop (h : c.places = front ++ p :: back)
    (hfront : ∀ q ∈ front, ¬ c.IsDecisive line column q) (hp : c.IsStop line column p) :
    c.selection line column = (fallbackLine (c.bareLines line column front)).map (·, 0) := by
  have hexact : ¬ c.IsExact line column p := fun hexact => hexact.1.not_isLater hp.1
  rw [selection, find?_isDecisive h hfront (.inr hp)]
  refine (if_neg hexact).trans ?_
  rw [filter_before h]

theorem selection_of_undecided (h : ∀ q ∈ c.places, ¬ c.IsDecisive line column q) :
    c.selection line column = (fallbackLine (c.bareLines line column c.places)).map (·, 0) := by
  have hfind : c.places.find? (c.IsDecisive line column ·) = none :=
    List.find?_eq_none.2 (by simpa using h)
  rw [selection, hfind]

/-- Either an exact segment is selected, or a line to fall back on from the places that the search
passes: all of them, or those in front of a later source line. -/
theorem selection_cases (c : Chart) (line column : Int) :
    (∃ front p back, c.places = front ++ p :: back ∧ (∀ q ∈ front, ¬ c.IsDecisive line column q) ∧
      c.IsExact line column p ∧ c.selection line column =
        (Line.lastUpTo? line column (c.earlier p)).map fun s => (p.line, column - s.sourceColumn)) ∨
    ∃ front back, c.places = front ++ back ∧ (∀ q ∈ front, ¬ c.IsDecisive line column q) ∧
      (back = [] ∨ ∃ q ∈ front, c.IsBare line column q) ∧
      c.selection line column = (fallbackLine (c.bareLines line column front)).map (·, 0) := by
  cases hfind : c.places.find? (c.IsDecisive line column ·) with
  | none =>
    have hall : ∀ q ∈ c.places, ¬ c.IsDecisive line column q := by
      simpa using List.find?_eq_none.1 hfind
    exact .inr ⟨c.places, [], (List.append_nil _).symm, hall, .inl rfl, selection_of_undecided hall⟩
  | some p =>
    obtain ⟨hp, front, back, h, hfront⟩ := List.find?_eq_some_iff_append.1 hfind
    have hfront : ∀ q ∈ front, ¬ c.IsDecisive line column q := by simpa using hfront
    rcases (of_decide_eq_true hp : c.IsDecisive line column p) with hexact | hstop
    · exact .inl ⟨front, p, back, h, hfront, hexact, selection_of_isExact h hfront hexact⟩
    · obtain ⟨q, hq, hbefore, hbare⟩ := hstop.2
      exact .inr ⟨front, p :: back, h, hfront, .inr ⟨q, (before_iff_mem h hq).1 hbefore, hbare⟩,
        selection_of_isStop h hfront hstop⟩

end

/-! ### The search as one scan -/

variable (c line column) in
/-- The search, place by place. -/
def scan (fallback : Fallback) : List Place → Find
  | [] => .searching fallback
  | p :: rest =>
    if c.IsExact line column p then
      .exact p.line (column - (Line.lastUpTo? line column (c.earlier p)).elim 0 Segment.sourceColumn)
    else if c.IsBare line column p then scan (fallback.note p.line) rest
    else if c.IsLater line p ∧ fallback ≠ .none then .stopped fallback
    else scan fallback rest

theorem scan_append (fallback : Fallback) (front back : List Place) :
    c.scan line column fallback (front ++ back) =
      (c.scan line column fallback front).goOn (c.scan line column · back) := by
  induction front generalizing fallback with
  | nil => rfl
  | cons p front ih =>
    rw [List.cons_append, scan, scan]
    split_ifs
    · rfl
    · exact ih _
    · rfl
    · exact ih _

/-- Behind the part `front` of a line, the search goes on as the scan does. -/
theorem searchLine_eq_scan {n : Nat} {front back : Line}
    (hn : c.lines[n]? = some (front ++ back)) (fallback : Fallback) :
    searchLine line column n fallback ((front.lastUpTo? line column).map Segment.sourceColumn) back =
      c.scan line column fallback ((List.range' front.length back.length).map (⟨n, ·⟩)) := by
  -- the column that the search keeps is that of the last segment of `front` up to the position
  induction back generalizing front fallback with
  | nil => rfl
  | cons s back ih =>
    have hnext := @ih (front ++ [s]) (by simpa using hn)
    rw [lastUpTo?_append, List.length_append, List.length_singleton] at hnext
    rw [searchLine_cons, List.length_cons, List.range'_succ, List.map_cons, scan]
    simp only [isExact_iff_of_split hn, isBare_iff_of_split hn, isLater_iff_of_split hn,
      earlier_eq hn]
    by_cases hline : s.sourceLine = line
    · have hlater : ¬ line < s.sourceLine := by omega
      rcases Segment.behind_or_upTo column hline with hbehind | hupTo
      · have hnot : ¬ s.UpTo line column := fun h => h.not_behind hbehind
        rw [if_pos hline, if_neg (Int.not_le.2 hbehind.2)]
        rw [if_neg hnot] at hnext
        cases hlast : front.lastUpTo? line column with
        | none =>
          rw [hlast] at hnext
          simpa [hbehind] using hnext (fallback.note n)
        | some t => simp [hbehind]
      · rw [if_pos hupTo] at hnext
        simpa [hline, hupTo.2, hupTo.not_behind, hlater] using hnext fallback
    · have hnot : ¬ s.UpTo line column := fun h => hline h.1
      have hbehind : ¬ s.Behind line column := fun h => hline h.1
      rw [if_neg hnot] at hnext
      simp only [hline, hbehind, hnext, if_false, false_and]

theorem search_eq_scan {front back : List Line} (h : c.lines = front ++ back) (fallback : Fallback) :
    search line column front.length fallback back =
      c.scan line column fallback (placesFrom front.length back) := by
  induction back generalizing front fallback with
  | nil => rfl
  | cons segments back ih =>
    have hn : c.lines[front.length]? = some ([] ++ segments) := by simp [h]
    have hline : searchLine line column front.length fallback none segments = _ :=
      searchLine_eq_scan hn fallback
    have hrest := @ih (front ++ [segments]) (by simpa using h)
    rw [List.length_append, List.length_singleton] at hrest
    rw [search_cons, placesFrom_cons, scan_append, List.range_eq_range']
    simp only [← hrest]
    rw [hline]
    rfl

end Chart

/-! ### What the scan finds -/

theorem foldl_note_two (first second : Nat) (lines : List Nat) :
    lines.foldl (fun fallback n => fallback.note n) (Fallback.two first second) = .two first second := by
  induction lines with
  | nil => rfl
  | cons n lines ih => exact ih

theorem best?_foldl_note_one (first : Nat) (lines : List Nat) :
    (lines.foldl (fun fallback n => fallback.note n) (Fallback.one first)).best? =
      some ((lines.find? (· ≠ first)).getD first) := by
  induction lines with
  | nil => rfl
  | cons n lines ih =>
    rw [List.foldl_cons, Fallback.note, List.find?_cons]
    by_cases h : first = n
    · subst h
      simpa using ih
    · have hne : n ≠ first := fun heq => h heq.symm
      simp [h, hne, foldl_note_two, Fallback.best?]

theorem best?_foldl_note (lines : List Nat) :
    (lines.foldl (fun fallback n => fallback.note n) Fallback.none).best? = fallbackLine lines := by
  cases lines with
  | nil => rfl
  | cons first lines =>
    rw [List.foldl_cons, Fallback.note, best?_foldl_note_one, fallbackLine]
    simp

namespace Chart
variable (c : Chart) (line column : Int)

/-- The fallback that the bare segments at some places leave. -/
def noted (places : List Place) : Fallback :=
  (c.bareLines line column places).foldl (fun fallback n => fallback.note n) .none

variable {c line column} {front back : List Place} {p : Place}

theorem noted_append_of_isBare (h : c.IsBare line column p) :
    c.noted line column (front ++ [p]) = (c.noted line column front).note p.line := by
  simp [noted, bareLines, h]

theorem noted_append_of_not_isBare (h : ¬ c.IsBare line column p) :
    c.noted line column (front ++ [p]) = c.noted line column front := by
  simp [noted, bareLines, h]

theorem best?_noted (places : List Place) :
    (c.noted line column places).best? = fallbackLine (c.bareLines line column places) :=
  best?_foldl_note _

theorem noted_eq_none_iff :
    c.noted line column front = .none ↔ ∀ q ∈ front, ¬ c.IsBare line column q := by
  rw [← bareLines_eq_nil_iff, ← fallbackLine_eq_none_iff, ← best?_noted]
  cases c.noted line column front <;> simp [Fallback.best?]

/-- A segment of a later source line stops the search if it has a line to fall back on. -/
theorem isStop_iff (h : c.places = front ++ p :: back) :
    c.IsStop line column p ↔ c.IsLater line p ∧ c.noted line column front ≠ .none := by
  have hmem : ∀ q ∈ c.places, (q.Before p ↔ q ∈ front) := fun q hq => before_iff_mem h hq
  rw [IsStop, Ne, noted_eq_none_iff]
  push Not
  refine and_congr_right fun _ => ⟨?_, ?_⟩
  · rintro ⟨q, hq, hbefore, hbare⟩
    exact ⟨q, (hmem q hq).1 hbefore, hbare⟩
  · rintro ⟨q, hq, hbare⟩
    have hplace : q ∈ c.places := h ▸ List.mem_append_left _ hq
    exact ⟨q, hplace, (hmem q hplace).2 hq, hbare⟩

/-- Behind places that decide nothing, the scan finds what is selected. -/
theorem position?_scan (h : c.places = front ++ back)
    (hfront : ∀ q ∈ front, ¬ c.IsDecisive line column q) :
    (c.scan line column (c.noted line column front) back).position? = c.selection line column := by
  -- the fallback is the one that the passed places `front` leave, at every step
  induction back generalizing front with
  | nil =>
    rw [List.append_nil] at h
    rw [selection_of_undecided (h ▸ hfront), h, ← best?_noted]
    rfl
  | cons p back ih =>
    -- the scan goes on past `p` unless it is decisive
    have hnext := @ih (front ++ [p]) (by rw [h, List.append_assoc]; rfl)
    have hmore (hp : ¬ c.IsDecisive line column p) :
        ∀ q ∈ front ++ [p], ¬ c.IsDecisive line column q := by
      intro q hq
      rcases List.mem_append.1 hq with hq | hq
      · exact hfront q hq
      · exact List.mem_singleton.1 hq ▸ hp
    rw [scan]
    simp only [← isStop_iff h]
    by_cases hexact : c.IsExact line column p
    · obtain ⟨s, hs⟩ := Option.ne_none_iff_exists'.1 (lastUpTo?_eq_none_iff.not_left.2 hexact.2)
      rw [if_pos hexact, selection_of_isExact h hfront hexact, hs]
      rfl
    rw [if_neg hexact]
    by_cases hbare : c.IsBare line column p
    · have hstop : ¬ c.IsStop line column p := fun hstop => hbare.1.not_isLater hstop.1
      rw [if_pos hbare, ← noted_append_of_isBare hbare]
      exact hnext (hmore (not_or.2 ⟨hexact, hstop⟩))
    rw [if_neg hbare]
    by_cases hstop : c.IsStop line column p
    · rw [if_pos hstop, selection_of_isStop h hfront hstop, ← best?_noted]
      rfl
    · rw [if_neg hstop, ← noted_append_of_not_isBare hbare]
      exact hnext (hmore (not_or.2 ⟨hexact, hstop⟩))

theorem position?_search (c : Chart) (line column : Int) :
    (search line column 0 .none c.lines).position? = c.selection line column := by
  have hscan : search line column 0 .none c.lines = c.scan line column .none c.places :=
    @search_eq_scan c line column [] c.lines rfl .none
  rw [hscan]
  exact @position?_scan c line column [] c.places rfl (by simp)

end Chart

/-- A source position is found where the chart selects it. -/
theorem generatedPosition_eq_selection (c : Chart) (file : String) (line column : Int) :
    c.generatedPosition file line column =
      (c.selection line column).map fun (n, start) => ⟨n, start, some file, none⟩ := by
  rw [Chart.generatedPosition, Chart.position?_search]

/-- The second line has a later source line, so the exact segment behind it is not reached. -/
example : Chart.selection ⟨[[⟨0, 0, 1, 4, none⟩], [⟨0, 0, 2, 0, none⟩],
    [⟨0, 0, 1, 0, none⟩, ⟨3, 0, 1, 6, none⟩]], [], []⟩ 1 2 = some (0, 0) := by decide

end CodeMap
