import CodeMap.Proofs.Lookup.Renumbering

/-! # The search to the end

A search ends at a segment of a later source line once it has a line to fall back on. `searchToEnd`
goes on behind such segments, so that it ends early at an exact position only. Where no segment of
the wanted source line comes after one of a later source line, nothing is left to be found there,
and the two find the same (`generatedPosition_eq_generatedPositionToEnd`). -/

namespace CodeMap

/-- Searches the segments of the generated line `n` as `searchLine` does, but passes over those of
later source lines. -/
def searchLineToEnd (line column : Int) (n : Nat) (fallback : Fallback) (before : Option Int) :
    Line → Find
  | [] => .searching fallback
  | s :: rest =>
    if s.sourceLine = line then
      if s.sourceColumn ≤ column then
        searchLineToEnd line column n fallback (some s.sourceColumn) rest
      else match before with
        | some start => .exact n (column - start)
        | none => searchLineToEnd line column n (fallback.note n) none rest
    else searchLineToEnd line column n fallback before rest

/-- Searches the generated lines from number `n` on, passing over segments of later source lines. -/
def searchToEnd (line column : Int) (n : Nat) (fallback : Fallback) : List Line → Find
  | [] => .searching fallback
  | segments :: rest =>
    match searchLineToEnd line column n fallback none segments with
    | .searching fallback => searchToEnd line column (n + 1) fallback rest
    | found => found

/-- The generated position that the search to the end gives for a source position. -/
def Chart.generatedPositionToEnd (c : Chart) (file : String) (line column : Int) : Option Location :=
  (searchToEnd line column 0 .none c.lines).position?.map fun (n, col) => ⟨n, col, file, none⟩

/-- A search that was stopped, taken up again with its fallback. -/
def Find.resumed : Find → Find
  | .stopped fallback => .searching fallback
  | found => found

theorem Find.position?_resumed (f : Find) : f.resumed.position? = f.position? := by
  cases f <;> rfl

section
variable {line : Int} (column : Int)

theorem searchLineToEnd_cons (n : Nat) (fallback : Fallback) (before : Option Int) (s : Segment)
    (rest : Line) :
    searchLineToEnd line column n fallback before (s :: rest) =
      if s.sourceLine = line then
        if s.sourceColumn ≤ column then
          searchLineToEnd line column n fallback (some s.sourceColumn) rest
        else before.elim (searchLineToEnd line column n (fallback.note n) none rest) fun start =>
          .exact n (column - start)
      else searchLineToEnd line column n fallback before rest := by
  cases before <;> rfl

theorem searchToEnd_cons (n : Nat) (fallback : Fallback) (segments : Line) (rest : List Line) :
    searchToEnd line column n fallback (segments :: rest) =
      (searchLineToEnd line column n fallback none segments).goOn
        (searchToEnd line column (n + 1) · rest) := by
  rw [searchToEnd]
  cases searchLineToEnd line column n fallback none segments <;> rfl

/-! ### Where nothing is left to be found -/

theorem searchLineToEnd_of_absent {segments : Line} (h : ∀ s ∈ segments, s.sourceLine ≠ line) (n : Nat)
    (fallback : Fallback) (before : Option Int) :
    searchLineToEnd line column n fallback before segments = .searching fallback := by
  induction segments with
  | nil => rfl
  | cons s rest ih =>
    obtain ⟨hs, hrest⟩ := List.forall_mem_cons.1 h
    rw [searchLineToEnd_cons, if_neg hs]
    exact ih hrest

theorem searchToEnd_of_absent {lines : List Line}
    (h : ∀ segments ∈ lines, ∀ s ∈ segments, s.sourceLine ≠ line) (n : Nat) (fallback : Fallback) :
    searchToEnd line column n fallback lines = .searching fallback := by
  induction lines generalizing n with
  | nil => rfl
  | cons segments lines ih =>
    obtain ⟨hfirst, hrest⟩ := List.forall_mem_cons.1 h
    rw [searchToEnd_cons, searchLineToEnd_of_absent column hfirst]
    exact ih hrest (n + 1)

theorem exists_later_of_searchLine {column : Int} {n : Nat} {segments : Line}
    {fallback fallback' : Fallback} {before : Option Int}
    (h : searchLine line column n fallback before segments = .stopped fallback') :
    ∃ s ∈ segments, line < s.sourceLine := by
  induction segments generalizing fallback before with
  | nil => cases h
  | cons s rest ih =>
    have hcons : (∃ t ∈ rest, line < t.sourceLine) → ∃ t ∈ s :: rest, line < t.sourceLine := by
      rintro ⟨t, ht, hlater⟩
      exact ⟨t, List.mem_cons_of_mem s ht, hlater⟩
    rw [searchLine_cons] at h
    split_ifs at h with hline hcolumn hlater
    · exact hcons (ih h)
    · cases before with
      | none => exact hcons (ih h)
      | some start => cases h
    · exact ⟨s, List.mem_cons_self, hlater.1⟩
    · exact hcons (ih h)

/-! ### The search taken up again -/

theorem searchLine_resumed {segments : Line}
    (h : segments.Pairwise fun s t => line < s.sourceLine → t.sourceLine ≠ line) (n : Nat)
    (fallback : Fallback) (before : Option Int) :
    (searchLine line column n fallback before segments).resumed =
      searchLineToEnd line column n fallback before segments := by
  induction segments generalizing fallback before with
  | nil => rfl
  | cons s rest ih =>
    obtain ⟨hs, hrest⟩ := List.pairwise_cons.1 h
    rw [searchLine_cons, searchLineToEnd_cons]
    split_ifs with hline hcolumn hlater
    · exact ih hrest fallback _
    · cases before with
      | none => exact ih hrest (fallback.note n) none
      | some start => rfl
    · -- stopped at `s`: the segments behind it are of other source lines
      have habsent : ∀ t ∈ rest, t.sourceLine ≠ line := fun t ht => hs t ht hlater.1
      exact (searchLineToEnd_of_absent column habsent n fallback before).symm
    · exact ih hrest fallback before

theorem search_resumed {lines : List Line}
    (h : lines.flatten.Pairwise fun s t => line < s.sourceLine → t.sourceLine ≠ line) (n : Nat)
    (fallback : Fallback) :
    (search line column n fallback lines).resumed = searchToEnd line column n fallback lines := by
  induction lines generalizing n fallback with
  | nil => rfl
  | cons segments lines ih =>
    rw [List.flatten_cons] at h
    obtain ⟨hsegments, hlines, hbehind⟩ := List.pairwise_append.1 h
    have hfirst := searchLine_resumed column hsegments n fallback none
    rw [search_cons, searchToEnd_cons, ← hfirst]
    cases hfound : searchLine line column n fallback none segments with
    | searching fallback' => exact ih hlines (n + 1) fallback'
    | exact => rfl
    | stopped fallback' =>
      obtain ⟨s, hs, hlater⟩ := exists_later_of_searchLine hfound
      have habsent : ∀ segments' ∈ lines, ∀ t ∈ segments', t.sourceLine ≠ line := by
        intro segments' hmem t ht
        exact hbehind s hs t (List.mem_flatten_of_mem hmem ht) hlater
      exact (searchToEnd_of_absent column habsent (n + 1) fallback').symm

theorem Chart.generatedPosition_of_pairwise {c : Chart}
    (h : c.lines.flatten.Pairwise fun s t => line < s.sourceLine → t.sourceLine ≠ line)
    (file : String) :
    c.generatedPosition file line column = c.generatedPositionToEnd file line column := by
  rw [generatedPosition, generatedPositionToEnd, ← search_resumed column h, Find.position?_resumed]

end

/-- Where no segment of the wanted source line comes after one of a later source line, a source
position has the same generated one as in the search to the end. So it is for every source position
if no segment is of an earlier source line than one in front of it. -/
theorem generatedPosition_eq_generatedPositionToEnd (c : Chart) (file : String) :
    (∀ line : Int, c.lines.flatten.Pairwise (fun s t => line < s.sourceLine → t.sourceLine ≠ line) →
      ∀ column : Int,
        c.generatedPosition file line column = c.generatedPositionToEnd file line column) ∧
    (c.lines.flatten.Pairwise (fun s t => s.sourceLine ≤ t.sourceLine) → ∀ line column : Int,
      c.generatedPosition file line column = c.generatedPositionToEnd file line column) := by
  refine ⟨?_, ?_⟩
  · intro line h column
    exact Chart.generatedPosition_of_pairwise column h file
  · intro hordered line column
    refine Chart.generatedPosition_of_pairwise column (hordered.imp ?_) file
    intro s t hle hlater
    omega

/-- In the first chart the search stops at the source line 4, though a segment of yet another source
line follows; in the second one, where the source lines are in order, it stops at 7 and takes the
second of its two lines. -/
theorem generatedPosition_eq_generatedPositionToEnd_stopped :
    (∃ c : Chart, c = ⟨[[⟨0, 0, 1, 4, none⟩], [⟨0, 0, 4, 0, none⟩, ⟨2, 0, 0, 3, none⟩]], [], []⟩ ∧
      c.lines.flatten.Pairwise (fun s t => 1 < s.sourceLine → t.sourceLine ≠ 1) ∧
      c.generatedPosition "b" 1 2 = c.generatedPositionToEnd "b" 1 2 ∧
      c.generatedPositionToEnd "b" 1 2 = some ⟨0, 0, "b", none⟩) ∧
    ∃ c : Chart, c = ⟨[[⟨0, 0, 1, 4, none⟩], [⟨0, 0, 1, 3, none⟩, ⟨2, 0, 7, 0, none⟩]], [], []⟩ ∧
      c.lines.flatten.Pairwise (fun s t => s.sourceLine ≤ t.sourceLine) ∧
      c.generatedPosition "b" 1 2 = c.generatedPositionToEnd "b" 1 2 ∧
      c.generatedPositionToEnd "b" 1 2 = some ⟨1, 0, "b", none⟩ := by
  refine ⟨⟨_, rfl, by decide, ?_, rfl⟩, ⟨_, rfl, by decide, ?_, rfl⟩⟩
  · exact (generatedPosition_eq_generatedPositionToEnd _ "b").1 1 (by decide) 2
  · exact (generatedPosition_eq_generatedPositionToEnd _ "b").2 (by decide) 1 2

/-- Behind a later source line the search to the end still meets an exact position, which the search
does not. -/
example : ∃ c : Chart, c.generatedPosition "b" 1 2 = some ⟨0, 0, "b", none⟩ ∧
    c.generatedPositionToEnd "b" 1 2 = some ⟨2, 2, "b", none⟩ :=
  ⟨⟨[[⟨0, 0, 1, 4, none⟩], [⟨0, 0, 2, 0, none⟩], [⟨0, 0, 1, 0, none⟩, ⟨3, 0, 1, 6, none⟩]], [], []⟩,
    rfl, rfl⟩

end CodeMap
