import CodeMap.Proofs.Lookup.Renumbering

/-! # Where a generated position is found

The search keeps and reports only lines with a segment of the wanted source line behind the wanted
column (`exists_of_generatedPosition`), and it passes over lines without a segment of that source
line as if they were empty (`search_of_absent`). -/

namespace CodeMap

/-- Every line to fall back on satisfies `P`. -/
def Fallback.All (P : Nat → Prop) : Fallback → Prop
  | .none => True
  | .one line => P line
  | .two first second => P first ∧ P second

/-- Every line that a search reports or keeps satisfies `P`. -/
def Find.All (P : Nat → Prop) : Find → Prop
  | .searching fallback => fallback.All P
  | .exact line _ => P line
  | .stopped fallback => fallback.All P

section
variable {P : Nat → Prop}

theorem Fallback.All.note {fallback : Fallback} {n : Nat} (h : fallback.All P) (hn : P n) :
    (fallback.note n).All P := by
  cases fallback with
  | none => exact hn
  | one first =>
    show (if first = n then Fallback.one first else .two first n).All P
    split
    · exact h
    · exact ⟨h, hn⟩
  | two first second => exact h

theorem Fallback.All.best? {fallback : Fallback} {n : Nat} (h : fallback.All P)
    (hn : fallback.best? = some n) : P n := by
  cases fallback with
  | none => cases hn
  | one line => exact Option.some.inj hn ▸ h
  | two first second => exact Option.some.inj hn ▸ h.2

theorem Find.All.position? {f : Find} {n : Nat} {column : Int} (h : f.All P)
    (hn : f.position? = some (n, column)) : P n := by
  cases f with
  | exact line start =>
    obtain ⟨rfl, -⟩ := Prod.mk.inj (Option.some.inj hn)
    exact h
  | searching fallback | stopped fallback =>
    obtain ⟨best, hbest, heq⟩ := Option.map_eq_some_iff.1 hn
    obtain ⟨rfl, -⟩ := Prod.mk.inj heq
    exact Fallback.All.best? h hbest

end

/-! ### What is found -/

/-- The line has a segment of a source line that starts behind a source column. -/
def Line.HasBehind (line column : Int) (segments : Line) : Prop :=
  ∃ s ∈ segments, s.sourceLine = line ∧ column < s.sourceColumn

section
variable {P : Nat → Prop} {line column : Int}

theorem searchLine_all {n : Nat} {segments : Line} (hn : segments.HasBehind line column → P n)
    {fallback : Fallback} (h : fallback.All P) (before : Option Int) :
    (searchLine line column n fallback before segments).All P := by
  induction segments generalizing fallback before with
  | nil => exact h
  | cons s rest ih =>
    have hrest : Line.HasBehind line column rest → P n := fun ⟨t, ht, hbehind⟩ =>
      hn ⟨t, List.mem_cons_of_mem s ht, hbehind⟩
    rw [searchLine_cons]
    split_ifs with hline hcolumn hlater
    · exact ih hrest h _
    · have hP : P n := hn ⟨s, List.mem_cons_self, hline, Int.not_le.1 hcolumn⟩
      -- with an earlier segment in front the line is reported, else it is kept to fall back on
      cases before with
      | none => exact ih hrest (h.note hP) none
      | some start => exact hP
    · exact h
    · exact ih hrest h before

theorem search_all {n : Nat} {lines : List Line}
    (hlines : ∀ i segments, lines[i]? = some segments → segments.HasBehind line column → P (n + i))
    {fallback : Fallback} (h : fallback.All P) : (search line column n fallback lines).All P := by
  induction lines generalizing n fallback with
  | nil => exact h
  | cons segments lines ih =>
    have hrest : ∀ i segments, lines[i]? = some segments → segments.HasBehind line column →
        P (n + 1 + i) := by
      intro i segments' hi hbehind
      have := hlines (i + 1) segments' hi hbehind
      rwa [Nat.add_comm i 1, ← Nat.add_assoc] at this
    have hfirst : (searchLine line column n fallback none segments).All P :=
      searchLine_all (hlines 0 segments rfl) h none
    rw [search_cons]
    cases hfound : searchLine line column n fallback none segments with
    | searching fallback' =>
      rw [hfound] at hfirst
      exact ih hrest hfirst
    | exact | stopped =>
      rw [hfound] at hfirst
      exact hfirst

/-- The line that is found has a segment of the wanted source line behind the wanted column. -/
theorem exists_of_generatedPosition {c : Chart} {file : String} {p : Location}
    (h : c.generatedPosition file line column = some p) :
    ∃ (n : Nat) (segments : Line), p.line = n ∧ c.lines[n]? = some segments ∧
      segments.HasBehind line column := by
  obtain ⟨⟨n, start⟩, hposition, rfl⟩ := Option.map_eq_some_iff.1 h
  have hall : (search line column 0 .none c.lines).All
      fun n => ∃ segments : Line, c.lines[n]? = some segments ∧ segments.HasBehind line column := by
    refine search_all (fun i segments hi hbehind => ⟨segments, ?_, hbehind⟩) trivial
    rwa [Nat.zero_add]
  obtain ⟨segments, hn, hbehind⟩ := hall.position? hposition
  exact ⟨n, segments, rfl, hn, hbehind⟩

end

/-! ### What is passed over -/

section
variable {line : Int} (column : Int)

theorem searchLine_of_absent {segments : Line} (h : ∀ s ∈ segments, s.sourceLine ≠ line) (n : Nat)
    (before : Option Int) : searchLine line column n .none before segments = .searching .none := by
  induction segments with
  | nil => rfl
  | cons s rest ih =>
    obtain ⟨hs, hrest⟩ := List.forall_mem_cons.1 h
    rw [searchLine_cons, if_neg hs, if_neg (fun hlater => hlater.2 rfl)]
    exact ih hrest

/-- Before there is a fallback, lines without a segment of the wanted source line change nothing. -/
theorem search_of_absent {lines : List Line}
    (h : ∀ segments ∈ lines, ∀ s ∈ segments, s.sourceLine ≠ line) (n : Nat) :
    search line column n .none lines = .searching .none := by
  induction lines generalizing n with
  | nil => rfl
  | cons segments lines ih =>
    obtain ⟨hfirst, hrest⟩ := List.forall_mem_cons.1 h
    rw [search_cons, searchLine_of_absent column hfirst]
    exact ih hrest (n + 1)

end

end CodeMap
