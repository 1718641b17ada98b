import CodeMap.Lookup.Source
import CodeMap.Proofs.Lookup.Entries

/-! # The segment that covers a column

A line with segments has one that covers any given column (`exists_covering?`); where it cuts the
line says which one it is (`covering?_eq_some_iff`). `sourcePosition` reads the source position off it
(`sourcePosition_eq_map`). -/

namespace CodeMap

/-! ### Cutting a list at an element -/

section
variable {α : Type} {l front back front' back' : List α} {a b : α}

theorem find?_reverse_eq_some_iff {p : α → Bool} : l.reverse.find? p = some a ↔
    ∃ front back, l = front ++ a :: back ∧ p a ∧ ∀ b ∈ back, ¬ p b := by
  rw [List.find?_eq_some_iff_append]
  constructor
  · rintro ⟨ha, back, front, hl, hback⟩
    refine ⟨front.reverse, back.reverse, ?_, ha, ?_⟩
    · rw [← List.reverse_reverse l, hl]
      simp
    · simpa using hback
  · rintro ⟨front, back, rfl, ha, hback⟩
    refine ⟨ha, back.reverse, front.reverse, ?_, ?_⟩
    · simp
    · simpa using hback

/-- Where two cuts of one list differ, one of the elements is behind the other. -/
theorem eq_or_mem_of_append_cons_eq (h : front ++ a :: back = front' ++ b :: back') :
    a = b ∨ b ∈ back ∨ front ≠ [] ∧ a ∈ back' := by
  rcases List.append_eq_append_iff.1 h with ⟨mid, rfl, hmid⟩ | ⟨mid, rfl, hmid⟩
  · rcases List.cons_eq_append_iff.1 hmid with ⟨rfl, hcons⟩ | ⟨mid, rfl, rfl⟩
    · exact .inl (List.cons.inj hcons).1.symm
    · exact .inr (.inl (List.mem_append_right mid List.mem_cons_self))
  · rcases List.cons_eq_append_iff.1 hmid with ⟨rfl, hcons⟩ | ⟨mid, rfl, rfl⟩
    · exact .inl (List.cons.inj hcons).1
    · exact .inr (.inr ⟨by simp, List.mem_append_right mid List.mem_cons_self⟩)

end

/-! ### The covering segment -/

namespace Line
variable {segments : Line} {s : Segment} {column : Int}

/-- All segments behind the covering one start after the column; so may it itself only if it is the
first. -/
theorem covering?_eq_some_iff : segments.covering? column = some s ↔
    ∃ front back, segments = front ++ s :: back ∧ (∀ t ∈ back, column < t.generatedColumn) ∧
      (s.generatedColumn ≤ column ∨ front = []) := by
  constructor
  · intro h
    rcases Option.or_eq_some_iff.1 h with hfind | ⟨hfind, hhead⟩
    · obtain ⟨front, back, hsplit, hs, hback⟩ := find?_reverse_eq_some_iff.1 hfind
      exact ⟨front, back, hsplit, by simpa using hback, .inl (of_decide_eq_true hs)⟩
    · obtain ⟨rest, rfl⟩ := List.head?_eq_some_iff.1 hhead
      refine ⟨[], rest, rfl, ?_, .inr rfl⟩
      intro t ht
      simpa using List.find?_eq_none.1 hfind t (List.mem_reverse.2 (List.mem_cons_of_mem s ht))
  · rintro ⟨front, back, rfl, hback, hs⟩
    by_cases hle : s.generatedColumn ≤ column
    · have hfind : (front ++ s :: back).reverse.find? (·.generatedColumn ≤ column) = some s :=
        find?_reverse_eq_some_iff.2 ⟨front, back, rfl, decide_eq_true hle, by simpa using hback⟩
      rw [covering?, hfind, Option.some_or]
    · obtain rfl : front = [] := hs.resolve_left hle
      have hall : ∀ t ∈ s :: back, column < t.generatedColumn :=
        List.forall_mem_cons.2 ⟨Int.not_le.1 hle, hback⟩
      have hfind : (s :: back).reverse.find? (fun t => t.generatedColumn ≤ column) = none :=
        List.find?_eq_none.2 fun t ht => by simpa using hall t (List.mem_reverse.1 ht)
      rw [List.nil_append, covering?, hfind, Option.none_or, List.head?_cons]

theorem mem_of_covering? (h : segments.covering? column = some s) : s ∈ segments := by
  obtain ⟨front, back, rfl, -⟩ := covering?_eq_some_iff.1 h
  exact List.mem_append_right front List.mem_cons_self

theorem exists_covering? (h : segments ≠ []) (column : Int) :
    ∃ s, segments.covering? column = some s := by
  obtain ⟨first, rest, rfl⟩ := List.exists_cons_of_ne_nil h
  cases hfind : (first :: rest).reverse.find? fun s => s.generatedColumn ≤ column with
  | none => exact ⟨first, by rw [covering?, hfind]; rfl⟩
  | some s => exact ⟨s, by rw [covering?, hfind]; rfl⟩

/-- If all other segments start behind the column, the first one covers it. -/
theorem covering?_cons {first : Segment} {rest : Line}
    (h : ∀ s ∈ rest, column < s.generatedColumn) :
    covering? (first :: rest) column = some first :=
  covering?_eq_some_iff.2 ⟨[], rest, rfl, h, .inr rfl⟩

end Line

namespace Chart
variable {c : Chart} {line : Int} {segments : Line} {s : Segment} {column : Int}

theorem sourcePosition_eq_map (c : Chart) (line column : Int) : c.sourcePosition line column =
    ((c.line? line).bind (Line.covering? · column)).map fun s =>
      ⟨s.sourceLine, s.sourceColumn, c.source? s.file, c.name? s.name⟩ := by
  rw [sourcePosition]
  cases c.line? line with
  | none => rfl
  | some segments =>
    show (segments.covering? column).bind _ = (segments.covering? column).map _
    cases segments.covering? column <;> rfl

theorem sourcePosition_of_line? (h : c.line? line = some segments)
    (hs : segments.covering? column = some s) : c.sourcePosition line column =
      some ⟨s.sourceLine, s.sourceColumn, c.source? s.file, c.name? s.name⟩ := by
  rw [sourcePosition_eq_map, h, Option.bind_some, hs, Option.map_some]

theorem sourcePosition_of_covering? {n : Nat} (hn : c.lines[n]? = some segments)
    (hs : segments.covering? column = some s) : c.sourcePosition n column =
      some ⟨s.sourceLine, s.sourceColumn, c.source? s.file, c.name? s.name⟩ :=
  sourcePosition_of_line? ((entryAt?_natCast c.lines n).trans hn) hs

theorem sourcePosition_eq_none_iff : c.sourcePosition line column = none ↔
    line < 0 ∨ c.lineCount ≤ line ∨ c.line? line = some [] := by
  rw [← or_assoc, ← line?_eq_none_iff]
  cases hline : c.line? line with
  | none => simp [sourcePosition_eq_map, hline]
  | some segments =>
    have hnone : segments.covering? column = none ↔ segments = [] := by
      refine ⟨fun h => ?_, fun h => h ▸ rfl⟩
      by_contra hne
      obtain ⟨s, hs⟩ := Line.exists_covering? hne column
      rw [hs] at h
      cases h
    simp [sourcePosition_eq_map, hline, hnone]

end Chart

end CodeMap
