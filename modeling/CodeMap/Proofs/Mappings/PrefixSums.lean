import CodeMap.Loading
import CodeMap.Proofs.Mappings.Cells
import Mathlib.Algebra.BigOperators.Group.List.Basic

/-! # Positions as prefix sums

`place_eq_mapIdx`: adding up the differences one after the other gives each segment the sums over
the segments up to it, over its line for the generated column and over the whole text for the other
coordinates. `chart_lines_eq_prefix_sums` states this of the chart of a document. -/

namespace CodeMap.Mappings

/-! ### The fields of a text -/

/-- The fields of every segment of a text. -/
def Decodes (text : List Char) (ds : List (List Deltas)) : Prop :=
  (text.splitOn ';').map (fun line => (segmentTexts line).map Quantity.decode) = ds.map (·.map .ok)

theorem Decodes.unique {text : List Char} {ds ds' : List (List Deltas)} (h : Decodes text ds)
    (h' : Decodes text ds') : ds = ds' := by
  have hinj : Function.Injective (List.map (Except.ok (ε := Quantity.Fault) (α := Deltas))) :=
    List.map_injective_iff.2 fun _ _ => Except.ok.inj
  exact List.map_injective_iff.2 hinj (h.symm.trans h')

theorem Decodes.length {text : List Char} {ds : List (List Deltas)} (h : Decodes text ds) :
    ds.length = text.count ';' + 1 := by
  rw [← Text.length_splitOn, ← List.length_map, ← h, List.length_map]

theorem Decodes.getElem? {text : List Char} {ds : List (List Deltas)} (h : Decodes text ds)
    {i : Nat} {line : List Char} (hi : (text.splitOn ';')[i]? = some line) :
    ∃ l, ds[i]? = some l ∧ (segmentTexts line).map Quantity.decode = l.map .ok :=
  getElem?_of_map_eq_map h hi

theorem decodes_of_readDeltas {text : List Char} {ds : List (List Deltas)}
    (h : readDeltas text = .ok ds) : Decodes text ds :=
  map_eq_map_of_imp (fun _ _ => map_eq_map_of_imp fun _ _ hd => (readSegment_eq_ok_iff.1 hd).2)
    (readDeltas_eq_ok_iff.1 h)

/-! ### Sums of fields -/

/-- The sum of the fields with number `k`, over the segments that have one. -/
def fieldSum (k : Nat) (ds : List Deltas) : Int := (ds.filterMap (·[k]?)).sum

/-- The segments of the lines before and those of a line up to number `j`. -/
def upTo (before : List (List Deltas)) (line : List Deltas) (j : Nat) : List Deltas :=
  before.flatten ++ line.take (j + 1)

@[simp] theorem fieldSum_nil (k : Nat) : fieldSum k [] = 0 := rfl

theorem fieldSum_cons (k : Nat) (d : Deltas) (ds : List Deltas) :
    fieldSum k (d :: ds) = d.getD k 0 + fieldSum k ds := by
  rw [fieldSum, List.filterMap_cons, List.getD_eq_getElem?_getD]
  cases d[k]? with
  | none => exact (zero_add _).symm
  | some v => exact List.sum_cons

theorem foldl_advance (t : Totals) (ds : List Deltas) :
    ds.foldl Totals.advance t =
      ⟨t.file + fieldSum 1 ds, t.sourceLine + fieldSum 2 ds, t.sourceColumn + fieldSum 3 ds,
        t.name + fieldSum 4 ds⟩ := by
  induction ds generalizing t with
  | nil => simp
  | cons d ds ih => simp [ih, Totals.advance, fieldSum_cons, add_assoc]

theorem placeLine_eq_mapIdx (t : Totals) (column : Int) (ds : List Deltas) :
    placeLine t column ds = ds.mapIdx fun j d =>
      ((ds.take (j + 1)).foldl Totals.advance t).segment (column + fieldSum 0 (ds.take (j + 1))) d := by
  induction ds generalizing t column with
  | nil => rfl
  | cons d ds ih =>
    rw [placeLine, ih, List.mapIdx_cons]
    simp [fieldSum_cons, add_assoc]

theorem place_eq_mapIdx (t : Totals) (ds : List (List Deltas)) :
    place t ds = ds.mapIdx fun i line => line.mapIdx fun j d =>
      ((upTo (ds.take i) line j).foldl Totals.advance t).segment (fieldSum 0 (line.take (j + 1))) d := by
  induction ds generalizing t with
  | nil => rfl
  | cons line ds ih =>
    rw [place, ih, placeLine_eq_mapIdx, List.mapIdx_cons]
    simp [upTo]

theorem getElem?_place_length (t : Totals) (ds : List (List Deltas)) (i : Nat) :
    (place t ds)[i]?.map List.length = ds[i]?.map List.length := by
  rw [place_eq_mapIdx, List.getElem?_mapIdx, Option.map_map]
  exact congrArg (Option.map · _) (funext fun line => List.length_mapIdx)

theorem getElem?_place (t : Totals) (ds : List (List Deltas)) (n : Nat) :
    (place t ds)[n]? =
      ds[n]?.map (placeLine ((ds.take n).flatten.foldl Totals.advance t) 0) := by
  induction ds generalizing t n with
  | nil => rfl
  | cons line ds ih =>
    cases n with
    | zero => rfl
    | succ n =>
      rw [place, List.getElem?_cons_succ, ih, List.take_succ_cons, List.flatten_cons,
        List.foldl_append, List.getElem?_cons_succ]

/-! ### Fields without influence -/

theorem advance_take (t : Totals) (d : Deltas) : t.advance (d.take 5) = t.advance d := by
  simp [Totals.advance]

theorem placeLine_take (t : Totals) (column : Int) (ds : List Deltas) :
    placeLine t column (ds.map (·.take 5)) = placeLine t column ds := by
  induction ds generalizing t column with
  | nil => rfl
  | cons d ds ih =>
    have hcolumn : (d.take 5).getD 0 0 = d.getD 0 0 := by simp
    have hname : 4 < (d.take 5).length ↔ 4 < d.length := by simp
    simp only [List.map_cons, placeLine, ih, advance_take, hcolumn, Totals.segment, hname]

/-- Fields after the fifth have no influence. -/
theorem place_take (t : Totals) (ds : List (List Deltas)) :
    place t (ds.map (·.map (·.take 5))) = place t ds := by
  induction ds generalizing t with
  | nil => rfl
  | cons line ds ih =>
    rw [List.map_cons, place, placeLine_take, place, List.foldl_map]
    simp only [advance_take, ih]

end CodeMap.Mappings

namespace CodeMap
open Mappings

theorem exists_deltas_of_chart {d : Document} {text : String} {c : Chart}
    (hd : d.mappings = some text) (hc : d.chart = .ok c) :
    ∃ ds, readDeltas text.toList = .ok ds ∧ c.lines = place {} ds := by
  rw [Document.chart_of_mappings hd] at hc
  obtain ⟨lines, hread, rfl⟩ := map_eq_ok_iff.1 hc
  obtain ⟨ds, hds, rfl⟩ := map_eq_ok_iff.1 hread
  exact ⟨ds, hds, rfl⟩

theorem exists_decodes_of_chart {d : Document} {text : String} {c : Chart}
    (hd : d.mappings = some text) (hc : d.chart = .ok c) :
    ∃ ds, Decodes text.toList ds ∧ c.lines = place {} ds := by
  obtain ⟨ds, hds, hlines⟩ := exists_deltas_of_chart hd hc
  exact ⟨ds, decodes_of_readDeltas hds, hlines⟩

/-- The lines of a chart are the fields of the mappings text, added up: there is a line for every
part between semicolons, with a segment for every part between commas if it is not empty. The
generated column of a segment is the sum over the segments of its line up to it; the other
coordinates are sums over all segments up to it that have the field. Another text with the same
first five fields everywhere has the same lines. -/
theorem chart_lines_eq_prefix_sums {d : Document} {text : String} {c : Chart}
    (hd : d.mappings = some text) (hc : d.chart = .ok c) :
    c.lines.length = text.toList.count ';' + 1 ∧
    (∀ (i : Nat) (line : List Char), (text.toList.splitOn ';')[i]? = some line →
      c.lines[i]?.map List.length = some (if line = [] then 0 else line.count ',' + 1)) ∧
    ∃ ds, Decodes text.toList ds ∧
      c.lines = (ds.mapIdx fun i line => line.mapIdx fun j fields =>
        { generatedColumn := fieldSum 0 (line.take (j + 1))
          file := fieldSum 1 (upTo (ds.take i) line j)
          sourceLine := fieldSum 2 (upTo (ds.take i) line j)
          sourceColumn := fieldSum 3 (upTo (ds.take i) line j)
          name := if 5 ≤ fields.length then some (fieldSum 4 (upTo (ds.take i) line j))
            else none }) ∧
      ∀ (d' : Document) (text' : String) (c' : Chart) (ds' : List (List Deltas)),
        d'.mappings = some text' → d'.chart = .ok c' → Decodes text'.toList ds' →
        ds'.map (·.map (·.take 5)) = ds.map (·.map (·.take 5)) → c'.lines = c.lines := by
  obtain ⟨ds, hdec, hlines⟩ := exists_decodes_of_chart hd hc
  refine ⟨?_, fun i line hi => ?_, ds, hdec, ?_, fun d' text' c' ds' hd' hc' hdec' htake => ?_⟩
  · rw [hlines, place_eq_mapIdx, List.length_mapIdx, hdec.length]
  · obtain ⟨l, hl, hmap⟩ := hdec.getElem? hi
    have hcount : l.length = (segmentTexts line).length := by
      simpa using (congrArg List.length hmap).symm
    rw [hlines, getElem?_place_length, hl, Option.map_some, hcount, length_segmentTexts]
  · rw [hlines, place_eq_mapIdx]
    simp only [foldl_advance, Totals.segment, zero_add]
    rfl
  · obtain ⟨ds'', hdec'', hlines'⟩ := exists_decodes_of_chart hd' hc'
    rw [hlines', hlines, hdec''.unique hdec', ← place_take, htake, place_take]

theorem chart_lines_eq_prefix_sums_mixed :
    (⟨3, "", "", [], [], some "AAAAA,CAAC;;EACACCE,A"⟩ : Document).chart =
      .ok ⟨[[⟨0, 0, 0, 0, some 0⟩, ⟨1, 0, 0, 1, none⟩], [],
        [⟨2, 0, 1, 1, some 1⟩, ⟨2, 0, 1, 1, none⟩]], [], []⟩ ∧
    ([[⟨0, 0, 0, 0, some 0⟩, ⟨1, 0, 0, 1, none⟩], [],
        [⟨2, 0, 1, 1, some 1⟩, ⟨2, 0, 1, 1, none⟩]] : List Line).length =
      "AAAAA,CAAC;;EACACCE,A".toList.count ';' + 1 ∧
    ∃ ds, Decodes "AAAAA,CAAC;;EACACCE,A".toList ds ∧
      ([[⟨0, 0, 0, 0, some 0⟩, ⟨1, 0, 0, 1, none⟩], [],
          [⟨2, 0, 1, 1, some 1⟩, ⟨2, 0, 1, 1, none⟩]] : List Line) =
        ds.mapIdx fun i line => line.mapIdx fun j fields =>
          { generatedColumn := fieldSum 0 (line.take (j + 1))
            file := fieldSum 1 (upTo (ds.take i) line j)
            sourceLine := fieldSum 2 (upTo (ds.take i) line j)
            sourceColumn := fieldSum 3 (upTo (ds.take i) line j)
            name := if 5 ≤ fields.length then some (fieldSum 4 (upTo (ds.take i) line j))
              else none } := by
  have h := chart_lines_eq_prefix_sums
    (d := ⟨3, "", "", [], [], some "AAAAA,CAAC;;EACACCE,A"⟩)
    (c := ⟨[[⟨0, 0, 0, 0, some 0⟩, ⟨1, 0, 0, 1, none⟩], [],
      [⟨2, 0, 1, 1, some 1⟩, ⟨2, 0, 1, 1, none⟩]], [], []⟩) rfl rfl
  obtain ⟨hlength, -, ds, hdec, hlines, -⟩ := h
  exact ⟨rfl, hlength, ds, hdec, hlines⟩

end CodeMap
