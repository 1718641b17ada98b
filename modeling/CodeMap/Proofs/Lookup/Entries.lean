import CodeMap.Chart
import Mathlib.Data.List.Basic

/-! # Entries of a table

Which entry an integer stands for. `entryAt?` knows the integers from zero up to the length of the
table (`entryAt?_eq_some_iff`, `entryAt?_eq_none_iff`). `entryFromEither?` knows as many negative
ones besides (`entryFromEither?_eq_some_iff`, `entryFromEither?_eq_none_iff`). -/

namespace CodeMap

section
variable {α : Type} {entries : List α} {i : Int} {x : α}

theorem entryAt?_natCast (entries : List α) (n : Nat) : entryAt? entries (n : Int) = entries[n]? := by
  rw [entryAt?, if_neg (by omega), Int.toNat_natCast]

theorem entryAt?_map {β : Type} (f : α → β) (entries : List α) (i : Int) :
    entryAt? (entries.map f) i = (entryAt? entries i).map f := by
  unfold entryAt?
  split
  · rfl
  · exact List.getElem?_map

theorem entryAt?_eq_none_iff : entryAt? entries i = none ↔ i < 0 ∨ entries.length ≤ i := by
  rw [entryAt?]
  split_ifs with h
  · exact iff_of_true rfl (.inl h)
  · rw [List.getElem?_eq_none_iff]
    omega

theorem entryAt?_eq_some_iff :
    entryAt? entries i = some x ↔ ∃ n : Nat, entries[n]? = some x ∧ i = n := by
  constructor
  · intro h
    rw [entryAt?] at h
    split_ifs at h with hneg
    exact ⟨i.toNat, h, by omega⟩
  · rintro ⟨n, h, rfl⟩
    rwa [entryAt?_natCast]

theorem entryFromEither?_of_nonneg (h : 0 ≤ i) : entryFromEither? entries i = entryAt? entries i := by
  rw [entryFromEither?, if_neg (by omega)]

theorem entryFromEither?_of_neg (h : i < 0) :
    entryFromEither? entries i = entryAt? entries (i + entries.length) := by
  rw [entryFromEither?, if_pos h]

theorem entryFromEither?_eq_none_iff :
    entryFromEither? entries i = none ↔ i < -entries.length ∨ entries.length ≤ i := by
  rcases Int.lt_or_le i 0 with h | h
  · rw [entryFromEither?_of_neg h, entryAt?_eq_none_iff]
    omega
  · rw [entryFromEither?_of_nonneg h, entryAt?_eq_none_iff]
    omega

theorem entryFromEither?_eq_some_iff : entryFromEither? entries i = some x ↔
    ∃ n : Nat, entries[n]? = some x ∧ (i = n ∨ i = n - entries.length) := by
  rcases Int.lt_or_le i 0 with h | h
  · rw [entryFromEither?_of_neg h, entryAt?_eq_some_iff]
    refine exists_congr fun n => and_congr_right fun _ => ?_
    omega
  · rw [entryFromEither?_of_nonneg h, entryAt?_eq_some_iff]
    refine exists_congr fun n => and_congr_right fun hn => ?_
    have hlt := (List.getElem?_eq_some_iff.1 hn).1
    omega

end

namespace Chart
variable {c : Chart} {i : Int}

theorem line?_eq_none_iff : c.line? i = none ↔ i < 0 ∨ c.lineCount ≤ i := entryAt?_eq_none_iff

theorem source?_eq_none_iff : c.source? i = none ↔ i < 0 ∨ c.sources.length ≤ i :=
  entryAt?_eq_none_iff

theorem source?_eq_some_iff {file : String} :
    c.source? i = some file ↔ ∃ n : Nat, c.sources[n]? = some file ∧ i = n :=
  entryAt?_eq_some_iff

theorem name?_eq_some_iff {i : Option Int} {name : String} :
    c.name? i = some name ↔ ∃ n : Nat, c.names[n]? = some name ∧ i = some (n : Int) := by
  cases i with
  | none => simp [name?]
  | some i => simp [name?, entryAt?_eq_some_iff]

end Chart

end CodeMap
