import CodeMap.Proofs.Mappings.Cells
import CodeMap.Report

/-! # The first refused segment

`errorOf?_chart`: the chart of a document fails with the first cell of its mappings that is refused.
`chart_error_iff_first_refused` spells out which cells are refused and how the failure is reported. -/

namespace CodeMap
namespace Mappings

/-- A text that is read as a segment. -/
def Accepted (text : List Char) : Prop := text ≠ [] ∧ ∃ vs, Quantity.decode text = .ok vs

namespace Cell

theorem fault?_eq_none_iff {c : Cell} : c.fault? = none ↔ Accepted c.text := by
  rw [fault?, Option.map_eq_none_iff, errorOf?_eq_none_iff]
  simp only [readSegment_eq_ok_iff, exists_and_left]
  rfl

theorem fault?_eq_some_iff {c : Cell} {f : Fault} :
    c.fault? = some f ↔ f.line = c.line ∧ f.segment = c.segment ∧
      (c.text = [] ∧ f.cause = .noColumn ∨
        ∃ q, Quantity.decode c.text = .error q ∧ f.cause = .quantity q) := by
  rw [← readSegment_eq_error_iff, ← errorOf?_eq_some_iff, fault?, Option.map_eq_some_iff]
  constructor
  · rintro ⟨cause, h, rfl⟩
    exact ⟨rfl, rfl, h⟩
  · rintro ⟨hline, hsegment, h⟩
    exact ⟨f.cause, h, by rw [← hline, ← hsegment]⟩

end Cell

theorem mem_segmentTexts {line chunk : List Char} :
    chunk ∈ segmentTexts line ↔ line ≠ [] ∧ chunk ∈ line.splitOn ',' := by
  unfold segmentTexts
  split <;> simp [*]

theorem forall_mem_cells {P : List Char → Prop} {text : List Char} :
    (∀ c ∈ cells text, P c.text) ↔
      ∀ line ∈ text.splitOn ';', line ≠ [] → ∀ chunk ∈ line.splitOn ',', P chunk := by
  rw [← List.forall_mem_map, cells, map_text_cellsFrom, List.forall_mem_flatMap]
  simp only [mem_segmentTexts, and_imp]
  exact forall₂_congr fun _ _ => forall_comm

/-- Whatever stands behind the separator after a refused cell, the cell is the first refused one. -/
theorem findSome?_cells_of_prefix {pre : List Char} {sep : Char} (hsep : sep = ',' ∨ sep = ';')
    {f : Fault} (hf : lastPlace pre = (f.line, f.segment)) {post : List Char} (post' : List Char)
    (h : (cells (pre ++ sep :: post)).findSome? Cell.fault? = some f) :
    (cells (pre ++ sep :: post')).findSome? Cell.fault? = some f := by
  obtain ⟨front, hfront⟩ : ∃ front, ∀ post, ∃ back, cells (pre ++ sep :: post) = front ++ back ∧
      ∀ c ∈ back, c.Behind f.line f.segment := by
    rcases hsep with rfl | rfl
    · simpa [hf] using cells_append_comma pre
    · exact ⟨cells pre, by simpa [hf] using cells_append_semicolon pre⟩
  obtain ⟨back, hback, hbehind⟩ := hfront post
  obtain ⟨back', hback', -⟩ := hfront post'
  rw [hback, List.findSome?_append, Option.or_eq_some_iff] at h
  rw [hback', List.findSome?_append, Option.or_eq_some_iff]
  refine .inl (h.resolve_right ?_)
  rintro ⟨-, h⟩
  obtain ⟨c, hc, hcf⟩ := List.exists_of_findSome?_eq_some h
  obtain ⟨hline, hsegment, -⟩ := Cell.fault?_eq_some_iff.1 hcf
  rcases hbehind c hc with hlt | ⟨-, hlt⟩ <;> omega

end Mappings

/-! ### Reported failures -/

theorem Failure.message_locate {f : Failure} (h : f.line = none) (line segment : Nat) :
    (f.locate (some (line : Int)) (some (segment : Int))).message =
      f.message ++ " (generated line " ++ toString line ++ ", segment " ++ toString segment ++ ")" := by
  have hf : f.message = f.text := by simp [message, suffix, h]
  rw [hf, message, suffix]
  simp only [locate, String.append_assoc]
  rfl

open Mappings

theorem errorOf?_chart {d : Document} {text : String} (hd : d.mappings = some text) :
    errorOf? d.chart = (cells text.toList).findSome? Cell.fault? := by
  rw [Document.chart_of_mappings hd, errorOf?_map, Mappings.read, errorOf?_map, errorOf?_readDeltas]

/-- A chart is made unless a segment is refused: one that is empty, or whose characters are no run
of quantities. The first such segment is reported with its place and with the code and message that
it has alone, and nothing behind the separator after it has any influence. -/
theorem chart_error_iff_first_refused {d : Document} {text : String} (hd : d.mappings = some text) :
    ((∃ c, d.chart = .ok c) ↔ ∀ line ∈ text.toList.splitOn ';', line ≠ [] →
      ∀ chunk ∈ line.splitOn ',', chunk ≠ [] ∧ ∃ vs, Quantity.decode chunk = .ok vs) ∧
    (∀ f, d.chart = .error f ↔ ∃ before cell after,
      cells text.toList = before ++ cell :: after ∧
      (∀ b ∈ before, b.text ≠ [] ∧ ∃ vs, Quantity.decode b.text = .ok vs) ∧
      f.line = cell.line ∧ f.segment = cell.segment ∧
      (cell.text = [] ∧ f.cause = .noColumn ∨
        ∃ q, Quantity.decode cell.text = .error q ∧ f.cause = .quantity q)) ∧
    ∀ f, d.chart = .error f →
      (f.failure.kind = .invalidData ∧
        f.failure.line = some (f.line : Int) ∧ f.failure.segment = some (f.segment : Int) ∧
        (f.cause = .noColumn → f.failure.code.label = "M0005") ∧
        (∀ q, f.cause = .quantity q → f.failure.code = q.failure.code) ∧
        f.failure.message = f.cause.failure.message ++ " (generated line " ++ toString f.line ++
          ", segment " ++ toString f.segment ++ ")") ∧
      ∀ pre sep post post', sep = ',' ∨ sep = ';' → lastPlace pre = (f.line, f.segment) →
        text.toList = pre ++ sep :: post →
        { d with mappings := some (String.ofList (pre ++ sep :: post')) }.chart = .error f := by
  refine ⟨?_, fun f => ?_, fun f hf => ⟨?_, fun pre sep post post' hsep hplace htext => ?_⟩⟩
  · rw [← errorOf?_eq_none_iff, errorOf?_chart hd, List.findSome?_eq_none_iff]
    simp only [Cell.fault?_eq_none_iff]
    exact forall_mem_cells
  · rw [← errorOf?_eq_some_iff, errorOf?_chart hd, List.findSome?_eq_some_iff]
    simp only [Cell.fault?_eq_none_iff, Cell.fault?_eq_some_iff]
    exact exists₃_congr fun _ _ _ => and_congr_right fun _ => and_comm
  · refine ⟨f.cause.failure_kind, rfl, rfl, fun h => ?_, fun q h => ?_,
      Failure.message_locate f.cause.failure_line f.line f.segment⟩
    · rw [Fault.failure, h]; rfl
    · rw [Fault.failure, h]; rfl
  · rw [← errorOf?_eq_some_iff, errorOf?_chart hd, htext] at hf
    rw [← errorOf?_eq_some_iff, errorOf?_chart rfl, String.toList_ofList]
    exact findSome?_cells_of_prefix hsep hplace post' hf

theorem chart_error_iff_first_refused_second_line :
    (⟨3, "", "", [], [], some "AAAA;B,?,C;!"⟩ : Document).chart =
      .error ⟨.quantity (.badCharacter '?'), 1, 1⟩ ∧
    (⟨.quantity (.badCharacter '?'), 1, 1⟩ : Fault).failure.message =
      (Quantity.Fault.badCharacter '?').failure.message ++
        " (generated line " ++ toString 1 ++ ", segment " ++ toString 1 ++ ")" ∧
    (⟨3, "", "", [], [], some (String.ofList ("AAAA;B,?".toList ++ ',' :: ";,$".toList))⟩ :
      Document).chart = .error ⟨.quantity (.badCharacter '?'), 1, 1⟩ := by
  have h := (chart_error_iff_first_refused (d := ⟨3, "", "", [], [], some "AAAA;B,?,C;!"⟩) rfl).2.2
    ⟨.quantity (.badCharacter '?'), 1, 1⟩ rfl
  exact ⟨rfl, h.1.2.2.2.2.2, h.2 "AAAA;B,?".toList ',' "C;!".toList _ (.inl rfl) (by decide) (by decide)⟩

end CodeMap
