import CodeMap.Proofs.Lookup.Renumbering
import CodeMap.Proofs.Mappings.Concatenation

/-! # Inserting empty lines

Empty generated lines hold no segments, so the lines behind them keep their segments
(`read_insertEmptyLines`) and every query finds what it found, at the new numbers of the lines. The
main statement is `chart_insertEmptyLines`. -/

namespace CodeMap

/-! ### Lists of lines -/

section
variable {α β : Type} {k : Nat} (n : Nat)

/-- The lines with `n` empty ones before number `k`. -/
def withEmpty (k n : Nat) (lines : List (List α)) : List (List α) :=
  lines.take k ++ (List.replicate n [] ++ lines.drop k)

theorem withEmpty_append {front : List (List α)} (back : List (List α)) (h : front.length = k) :
    withEmpty k n (front ++ back) = front ++ (List.replicate n [] ++ back) := by
  rw [withEmpty, List.take_left' h, List.drop_left' h]

theorem exists_append_of_le {lines : List (List α)} (h : k ≤ lines.length) :
    ∃ front back, lines = front ++ back ∧ front.length = k :=
  ⟨lines.take k, lines.drop k, (List.take_append_drop k lines).symm, List.length_take_of_le h⟩

theorem map_withEmpty {f : List α → List β} (hf : f [] = []) (lines : List (List α)) :
    (withEmpty k n lines).map f = withEmpty k n (lines.map f) := by
  simp [withEmpty, List.map_take, List.map_drop, hf]

theorem length_withEmpty (k : Nat) (lines : List (List α)) :
    (withEmpty k n lines).length = lines.length + n := by
  simp only [withEmpty, List.length_append, List.length_take, List.length_replicate, List.length_drop]
  omega

theorem mem_withEmpty {lines : List (List α)} {line : List α} (h : line ∈ withEmpty k n lines) :
    line ∈ lines ∨ line = [] := by
  rcases List.mem_append.1 h with h | h
  · exact .inl (List.mem_of_mem_take h)
  rcases List.mem_append.1 h with h | h
  · exact .inr (List.eq_of_mem_replicate h)
  · exact .inl (List.mem_of_mem_drop h)

section
variable {lines : List (List α)} {i : Int}

theorem entryAt?_withEmpty_of_lt (hk : k ≤ lines.length) (h : i < k) :
    entryAt? (withEmpty k n lines) i = entryAt? lines i := by
  obtain ⟨front, back, rfl, hfront⟩ := exists_append_of_le hk
  rw [withEmpty_append n back hfront]
  unfold entryAt?
  split
  · rfl
  · have hi : i.toNat < front.length := by omega
    rw [List.getElem?_append_left hi, List.getElem?_append_left hi]

theorem entryAt?_withEmpty_of_mem (hk : k ≤ lines.length) (h : k ≤ i) (hn : i < k + n) :
    entryAt? (withEmpty k n lines) i = some [] := by
  obtain ⟨front, back, rfl, hfront⟩ := exists_append_of_le hk
  have hi : front.length ≤ i.toNat := by omega
  have hlt : i.toNat - front.length < n := by omega
  rw [withEmpty_append n back hfront, entryAt?, if_neg (by omega), List.getElem?_append_right hi,
    List.getElem?_append_left (by simpa using hlt), List.getElem?_replicate_of_lt hlt]

theorem entryAt?_withEmpty_of_le (hk : k ≤ lines.length) (h : k + n ≤ i) :
    entryAt? (withEmpty k n lines) i = entryAt? lines (i - n) := by
  obtain ⟨front, back, rfl, hfront⟩ := exists_append_of_le hk
  have hi : front.length ≤ i.toNat := by omega
  have hle : n ≤ i.toNat - front.length := by omega
  have hi' : front.length ≤ (i - n).toNat := by omega
  have hback : i.toNat - front.length - n = (i - n).toNat - front.length := by omega
  rw [withEmpty_append n back hfront, entryAt?, if_neg (by omega), entryAt?, if_neg (by omega),
    List.getElem?_append_right hi, List.getElem?_append_right (by simpa using hle),
    List.getElem?_append_right hi', List.length_replicate, hback]

end
end

/-! ### The text -/

namespace Mappings
variable {k : Nat} (n : Nat)

/-- The mappings text with `n` empty lines before the line with number `k`. -/
def insertEmptyLines (k n : Nat) (text : String) : String :=
  String.ofList (Text.joinFields ';' (withEmpty k n (text.toList.splitOn ';')))

/-- Inserting empty lines is inserting as many semicolons. -/
theorem exists_toList_insertEmptyLines {text : String} (hk : k ≤ text.toList.count ';' + 1) :
    ∃ pre post, text.toList = pre ++ post ∧
      (insertEmptyLines k n text).toList = pre ++ (List.replicate n ';' ++ post) := by
  rw [← Text.length_splitOn] at hk
  obtain ⟨front, back, hsplit, hfront⟩ := exists_append_of_le hk
  have htext : text.toList = Text.joinFields ';' (front ++ back) := by
    rw [← hsplit]
    exact (List.intercalate_splitOn ';').symm
  rw [insertEmptyLines, String.toList_ofList, hsplit, withEmpty_append n back hfront, htext]
  by_cases hnil : front = []
  · -- before the first line
    have hback : back ≠ [] := by
      rintro rfl
      exact List.splitOn_ne_nil ';' text.toList (by rw [hsplit, hnil, List.nil_append])
    refine ⟨[], Text.joinFields ';' back, by rw [hnil]; rfl, ?_⟩
    rw [hnil, List.nil_append, Text.joinFields_replicate_append n hback, List.nil_append]
  by_cases hback : back = []
  · -- behind the last line
    refine ⟨Text.joinFields ';' front, [], by simp [hback], ?_⟩
    rw [hback, List.append_nil, Text.joinFields_append_replicate hnil, List.append_nil]
  · refine ⟨Text.joinFields ';' front ++ [';'], Text.joinFields ';' back, ?_, ?_⟩
    · rw [Text.joinFields_append hnil hback, List.append_assoc]
      rfl
    · have hne : List.replicate n [] ++ back ≠ [] := List.append_ne_nil_of_right_ne_nil _ hback
      rw [Text.joinFields_append hnil hne, Text.joinFields_replicate_append n hback, List.append_assoc]
      rfl

theorem splitOn_insertEmptyLines (k : Nat) (text : String) :
    (insertEmptyLines k n text).toList.splitOn ';' = withEmpty k n (text.toList.splitOn ';') := by
  rw [insertEmptyLines, String.toList_ofList]
  refine List.splitOn_intercalate ';' (fun line hline => ?_) (fun hnil => ?_)
  · rcases mem_withEmpty n hline with hline | rfl
    · exact Text.not_mem_of_mem_splitOn hline
    · exact List.not_mem_nil
  · have hlength := congrArg List.length hnil
    rw [length_withEmpty, List.length_nil, Text.length_splitOn] at hlength
    omega

theorem place_replicate_nil (t : Totals) (ds : List (List Deltas)) :
    place t (List.replicate n [] ++ ds) = List.replicate n [] ++ place t ds := by
  induction n with
  | zero => rfl
  | succ n ih =>
    rw [List.replicate_succ, List.cons_append, place, List.foldl_nil, ih]
    rfl

/-- Empty lines leave the sums as they are. -/
theorem place_withEmpty {ds : List (List Deltas)} (hk : k ≤ ds.length) (t : Totals) :
    place t (withEmpty k n ds) = withEmpty k n (place t ds) := by
  obtain ⟨front, back, rfl, hfront⟩ := exists_append_of_le hk
  have hplace : (place t front).length = k := by rw [length_place, hfront]
  rw [withEmpty_append n back hfront, place_append, place_replicate_nil, place_append,
    withEmpty_append n _ hplace]

theorem readDeltas_insertEmptyLines {text : String} {ds : List (List Deltas)}
    (h : readDeltas text.toList = .ok ds) :
    readDeltas (insertEmptyLines k n text).toList = .ok (withEmpty k n ds) := by
  rw [readDeltas_eq_ok_iff] at h ⊢
  rw [splitOn_insertEmptyLines n k text, map_withEmpty n rfl, h, map_withEmpty n rfl]

/-- The lines of the text are read as before, with the empty ones between them. -/
theorem read_insertEmptyLines {text : String} {lines : List Line} (h : read text = .ok lines)
    (hk : k ≤ lines.length) : read (insertEmptyLines k n text) = .ok (withEmpty k n lines) := by
  obtain ⟨ds, hds, rfl⟩ := map_eq_ok_iff.1 h
  rw [length_place] at hk
  rw [read, readDeltas_insertEmptyLines n hds, ← place_withEmpty n hk]
  rfl

end Mappings

/-! ### The queries -/

/-- The number that a line has when `n` lines are inserted before number `k`. -/
def renumbered (k n line : Nat) : Nat := if line < k then line else line + n

theorem renumbered_injective (k n : Nat) : Function.Injective (renumbered k n) := by
  intro i j h
  unfold renumbered at h
  split_ifs at h <;> omega

theorem search_withEmpty (line column : Int) {k : Nat} (n : Nat) {lines : List Line}
    (hk : k ≤ lines.length) :
    search line column 0 .none (withEmpty k n lines) =
      (search line column 0 .none lines).map (renumbered k n) := by
  obtain ⟨front, back, rfl, hfront⟩ := exists_append_of_le hk
  have hinj := renumbered_injective k n
  have hbefore : ∀ i < front.length, renumbered k n (0 + i) = 0 + i := by
    intro i hi
    rw [renumbered, if_pos (by omega)]
  have hbehind : ∀ i < back.length, renumbered k n (k + i) = k + n + i := by
    intro i _
    rw [renumbered, if_neg (by omega)]
    omega
  have hsame := search_map line column hinj .none hbefore
  rw [withEmpty_append n back hfront, search_append, search_append, Nat.zero_add, hfront]
  -- the search of the lines in front ends with numbers that stay, or goes on behind them
  cases hsearch : search line column 0 .none front with
  | exact i start =>
    rw [Fallback.map, hsearch] at hsame
    exact hsame
  | stopped fallback =>
    rw [Fallback.map, hsearch] at hsame
    exact hsame
  | searching fallback =>
    rw [Fallback.map, hsearch] at hsame
    have hfallback : fallback.map (renumbered k n) = fallback := (Find.searching.inj hsame).symm
    have hmap := search_map line column hinj fallback hbehind
    rw [hfallback] at hmap
    rw [Find.goOn, Find.goOn, search_replicate_nil, hmap]

namespace Chart
variable {c : Chart} {k : Nat} (n : Nat) (file : String) (line column : Int)

/-- The chart with `n` empty lines before the line with number `k`. -/
def insertEmptyLines (c : Chart) (k n : Nat) : Chart := { c with lines := withEmpty k n c.lines }

theorem sourcePosition_congr {c' : Chart} {line' : Int} (hsources : c'.sources = c.sources)
    (hnames : c'.names = c.names) (h : c'.line? line' = c.line? line) :
    c'.sourcePosition line' column = c.sourcePosition line column := by
  simp only [sourcePosition, source?, name?, h, hsources, hnames]

theorem sourceLineStart_congr {c' : Chart} {line' : Int} (hsources : c'.sources = c.sources)
    (hnames : c'.names = c.names) (h : c'.line? line' = c.line? line) :
    c'.sourceLineStart line' = c.sourceLineStart line := by
  simp only [sourceLineStart, name?, h, hsources, hnames]

theorem generatedPosition_insertEmptyLines (hk : k ≤ c.lineCount) :
    (c.insertEmptyLines k n).generatedPosition file line column =
      (c.generatedPosition file line column).map fun p =>
        { p with line := if p.line < k then p.line else p.line + n } := by
  have hline : ∀ i : Nat, (renumbered k n i : Int) = if (i : Int) < k then (i : Int) else i + n := by
    intro i
    unfold renumbered
    split_ifs <;> omega
  rw [generatedPosition, insertEmptyLines, search_withEmpty line column n hk, Find.position?_map,
    generatedPosition, Option.map_map, Option.map_map]
  refine congrArg (Option.map · _) (funext fun (i, start) => ?_)
  simp [hline]

end Chart

open Mappings

/-- Empty lines inserted into the mappings of a chart only give other numbers to the lines behind
them. The queries for lines in front of them and behind them have the results that they had, those
for the new lines find nothing, and a generated position that is found is the same at the new number
of its line. -/
theorem chart_insertEmptyLines {d : Document} {text : String} {c : Chart}
    (hd : d.mappings = some text) (hc : d.chart = .ok c) {k : Nat} (hk : k ≤ c.lineCount) (n : Nat) :
    (∃ pre post, text.toList = pre ++ post ∧
      (insertEmptyLines k n text).toList = pre ++ (List.replicate n ';' ++ post)) ∧
    ∃ c', { d with mappings := some (insertEmptyLines k n text) }.chart = .ok c' ∧
      (∀ line column : Int,
        (line < k → c'.sourcePosition line column = c.sourcePosition line column ∧
          c'.sourceLineStart line = c.sourceLineStart line) ∧
        (k ≤ line → line < k + n → c'.sourcePosition line column = none ∧
          c'.sourceLineStart line = .ok none) ∧
        (k + n ≤ line → c'.sourcePosition line column = c.sourcePosition (line - n) column ∧
          c'.sourceLineStart line = c.sourceLineStart (line - n))) ∧
      ∀ file line column, c'.generatedPosition file line column =
        (c.generatedPosition file line column).map fun p =>
          { p with line := if p.line < k then p.line else p.line + n } := by
  rw [Document.chart_of_mappings hd] at hc
  obtain ⟨lines, hread, rfl⟩ := map_eq_ok_iff.1 hc
  obtain ⟨ds, hds, hplace⟩ := map_eq_ok_iff.1 hread
  have hcount : lines.length = text.toList.count ';' + 1 := by
    rw [← hplace, length_place, length_of_readDeltas hds]
  refine ⟨exists_toList_insertEmptyLines n (hcount ▸ hk),
    Chart.insertEmptyLines ⟨lines, d.resolvedSources, d.names⟩ k n, ?_,
    fun line column => ⟨?_, ?_, ?_⟩,
    fun file line column => Chart.generatedPosition_insertEmptyLines n file line column hk⟩
  · rw [Document.chart_of_mappings (rfl : _ = some (insertEmptyLines k n text)),
      read_insertEmptyLines n hread hk]
    rfl
  · intro h
    have hline := entryAt?_withEmpty_of_lt n hk h
    exact ⟨Chart.sourcePosition_congr line column rfl rfl hline,
      Chart.sourceLineStart_congr line rfl rfl hline⟩
  · intro h hn
    have hline := entryAt?_withEmpty_of_mem n hk h hn
    constructor
    · simp [Chart.sourcePosition, Chart.line?, Chart.insertEmptyLines, hline, Line.covering?]
    · simp [Chart.sourceLineStart, Chart.line?, Chart.insertEmptyLines, hline]
  · intro h
    have hline := entryAt?_withEmpty_of_le n hk h
    exact ⟨Chart.sourcePosition_congr (line - n) column rfl rfl hline,
      Chart.sourceLineStart_congr (line - n) rfl rfl hline⟩

theorem chart_insertEmptyLines_before_second :
    (⟨3, "", "", ["a"], [], some "AAAA,CAAC;CACA"⟩ : Document).chart =
      .ok ⟨[[⟨0, 0, 0, 0, none⟩, ⟨1, 0, 0, 1, none⟩], [⟨1, 0, 1, 1, none⟩]], ["a"], []⟩ ∧
    insertEmptyLines 1 2 "AAAA,CAAC;CACA" = "AAAA,CAAC;;;CACA" ∧
    ∃ c', (⟨3, "", "", ["a"], [], some (insertEmptyLines 1 2 "AAAA,CAAC;CACA")⟩ :
        Document).chart = .ok c' ∧
      c'.sourcePosition 0 1 = some ⟨0, 1, "a", none⟩ ∧ c'.sourcePosition 2 1 = none ∧
      c'.sourceLineStart 3 = .ok (some ⟨1, 0, "a", none⟩) ∧
      c'.generatedPosition "b" 0 0 = some ⟨0, 0, "b", none⟩ ∧
      c'.generatedPosition "b" 1 0 = some ⟨3, 0, "b", none⟩ := by
  refine ⟨rfl, by decide, ?_⟩
  obtain ⟨-, c', hc', hsource, hgenerated⟩ := chart_insertEmptyLines (k := 1)
    (d := ⟨3, "", "", ["a"], [], some "AAAA,CAAC;CACA"⟩)
    (c := ⟨[[⟨0, 0, 0, 0, none⟩, ⟨1, 0, 0, 1, none⟩], [⟨1, 0, 1, 1, none⟩]], ["a"], []⟩)
    rfl rfl (by decide) 2
  refine ⟨c', hc', ?_, ?_, ?_, ?_, ?_⟩
  · rw [((hsource 0 1).1 (by decide)).1]; rfl
  · exact ((hsource 2 1).2.1 (by decide) (by decide)).1
  · rw [((hsource 3 1).2.2 (by decide)).2]; rfl
  · rw [hgenerated]; rfl
  · rw [hgenerated]; rfl

end CodeMap
