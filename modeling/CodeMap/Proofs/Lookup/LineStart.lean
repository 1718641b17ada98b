import CodeMap.Proofs.Document.RoundTrip
import CodeMap.Proofs.Lookup.Entries

/-! # The source of a generated line

`sourceLineStart` takes the source of a line's first segment from either end of the table, while
`sourcePosition` counts from the start only. `sourceLineStart_outcome` says what becomes of every
number: one that counts from the end is not refused though it is not in the table, and such numbers
are the only ones for which the two disagree. -/

namespace CodeMap

namespace Chart
variable {c : Chart} {line : Int} {first : Segment} {rest : Line}

theorem sourceLineStart_of_missing (h : c.line? line = some (first :: rest))
    (hfile : entryFromEither? c.sources first.file = none) :
    c.sourceLineStart line = .error ⟨first.file⟩ := by
  simp only [sourceLineStart, h, Option.bind_some, List.head?_cons, hfile]

theorem sourceLineStart_of_file (h : c.line? line = some (first :: rest)) {file : String}
    (hfile : entryFromEither? c.sources first.file = some file) :
    c.sourceLineStart line = .ok (some ⟨first.sourceLine, 0, some file, c.name? first.name⟩) := by
  simp only [sourceLineStart, h, Option.bind_some, List.head?_cons, hfile]

theorem sourceLineStart_of_no_segment
    (h : line < 0 ∨ c.lineCount ≤ line ∨ c.line? line = some []) :
    c.sourceLineStart line = .ok none := by
  have hfirst : (c.line? line).bind List.head? = none := by
    rw [← or_assoc, ← line?_eq_none_iff] at h
    rcases h with h | h <;> rw [h] <;> rfl
  rw [sourceLineStart, hfirst]

theorem column_of_sourceLineStart {p : Location} (h : c.sourceLineStart line = .ok (some p)) :
    p.column = 0 := by
  rw [sourceLineStart] at h
  split at h
  · cases h
  · split at h
    · cases h
    · cases h
      rfl

theorem sourceLineStart_eq_error_iff (h : c.line? line = some (first :: rest)) :
    c.sourceLineStart line = .error ⟨first.file⟩ ↔
      first.file < -c.sources.length ∨ c.sources.length ≤ first.file := by
  rw [← entryFromEither?_eq_none_iff]
  cases hfile : entryFromEither? c.sources first.file with
  | none => simp [sourceLineStart_of_missing h hfile]
  | some file => simp [sourceLineStart_of_file h hfile]

end Chart

/-- A line that does not exist or is empty has no source line. Otherwise the start of the source line
of its first segment is given, with the file that `sourcePosition` has for the segment. A number
out of the table is refused, unless it counts from the table's end: then the file is given that it
comes to, which `sourcePosition` does not have. -/
theorem sourceLineStart_outcome (c : Chart) (line : Int) :
    (line < 0 ∨ c.lineCount ≤ line ∨ c.line? line = some [] → c.sourceLineStart line = .ok none) ∧
    ∀ first rest, c.line? line = some (first :: rest) →
      (∀ file, c.source? first.file = some file →
        c.sourceLineStart line = .ok (some ⟨first.sourceLine, 0, some file, c.name? first.name⟩)) ∧
      (c.sourceLineStart line = .error ⟨first.file⟩ ↔
        first.file < -c.sources.length ∨ c.sources.length ≤ first.file) ∧
      (∀ (n : Nat) (file : String), c.sources[n]? = some file →
        first.file = n - c.sources.length →
        c.sourceLineStart line = .ok (some ⟨first.sourceLine, 0, some file, c.name? first.name⟩)) ∧
      (c.source? first.file = none ∧ c.sourceLineStart line ≠ .error ⟨first.file⟩ ↔
        -c.sources.length ≤ first.file ∧ first.file < 0) := by
  refine ⟨Chart.sourceLineStart_of_no_segment, ?_⟩
  intro first rest h
  have herror := Chart.sourceLineStart_eq_error_iff h
  refine ⟨?_, herror, ?_, ?_⟩
  · intro file hfile
    obtain ⟨n, hn, hfirst⟩ := Chart.source?_eq_some_iff.1 hfile
    exact Chart.sourceLineStart_of_file h (entryFromEither?_eq_some_iff.2 ⟨n, hn, .inl hfirst⟩)
  · intro n file hn hfirst
    exact Chart.sourceLineStart_of_file h (entryFromEither?_eq_some_iff.2 ⟨n, hn, .inr hfirst⟩)
  · rw [Chart.source?_eq_none_iff, Ne, herror]
    omega

theorem sourceLineStart_outcome_either_end :
    ∃ c : Chart, c = ⟨[[⟨3, 1, 4, 7, some 0⟩], [⟨0, -1, 2, 5, none⟩], [⟨0, -3, 0, 0, none⟩], []],
      ["a", "b"], ["f"]⟩ ∧
    c.sourceLineStart 0 = .ok (some ⟨4, 0, "b", "f"⟩) ∧
    c.sourceLineStart 1 = .ok (some ⟨2, 0, "b", none⟩) ∧
    (c.source? (-1) = none ∧ c.sourceLineStart 1 ≠ .error ⟨-1⟩) ∧
    c.sourceLineStart 2 = .error ⟨-3⟩ ∧
    c.sourceLineStart 3 = .ok none ∧ c.sourceLineStart (-1) = .ok none := by
  refine ⟨_, rfl, ?_⟩
  set c : Chart := ⟨[[⟨3, 1, 4, 7, some 0⟩], [⟨0, -1, 2, 5, none⟩], [⟨0, -3, 0, 0, none⟩], []],
    ["a", "b"], ["f"]⟩ with hc
  obtain ⟨hfile, -⟩ := (sourceLineStart_outcome c 0).2 ⟨3, 1, 4, 7, some 0⟩ [] rfl
  obtain ⟨-, -, hend, hdiffer⟩ := (sourceLineStart_outcome c 1).2 ⟨0, -1, 2, 5, none⟩ [] rfl
  obtain ⟨-, hrefused, -⟩ := (sourceLineStart_outcome c 2).2 ⟨0, -3, 0, 0, none⟩ [] rfl
  exact ⟨hfile "b" rfl, hend 1 "b" rfl rfl, hdiffer.2 (by decide), hrefused.2 (by decide),
    (sourceLineStart_outcome c 3).1 (by decide), (sourceLineStart_outcome c (-1)).1 (by decide)⟩

/-- A map whose one segment has the source -1, where the table has a single source. -/
theorem load_source_before_table :
    ∃ m, LoadedMap.load .standard (Document.write ⟨3, "b.js", "", ["a.ts"], [], some "ADAA"⟩) =
        .ok m ∧
      m.chart.line? 0 = some [⟨0, -1, 0, 0, none⟩] ∧
      m.chart.sourcePosition 0 0 = some ⟨0, 0, none, none⟩ ∧
      m.chart.sourceLineStart 0 = .ok (some ⟨0, 0, "a.ts", none⟩) := by
  have hload : Document.load .standard (Document.write ⟨3, "b.js", "", ["a.ts"], [], some "ADAA"⟩) =
      .ok ⟨3, "b.js", "", ["a.ts"], [], some "ADAA"⟩ := Document.load_write rfl
  exact ⟨_, LoadedMap.load_of_document hload rfl, rfl, rfl, rfl⟩

end CodeMap
