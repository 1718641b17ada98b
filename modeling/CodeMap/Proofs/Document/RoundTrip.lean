import CodeMap.Proofs.Json.RoundTrip
import CodeMap.Proofs.Loading.Validation

/-! # Writing and loading documents

`read_write`: the text of a document is read as its members. `load_write_round_trip` says that a
document of the supported version is loaded from its text unchanged, with the chart of its
mappings. -/

namespace CodeMap
namespace Document

theorem fits_textArray (room : Nat) (texts : List String) : Json.Fits (room + 1) (textArray texts) := by
  refine .array fun v hv => ?_
  obtain ⟨s, -, rfl⟩ := List.mem_map.1 hv
  exact .text s

theorem fits_members (limits : Json.Limits) {d : Document}
    (h : (Nat.toDigits 10 d.version.natAbs).length ≤ Json.maxDigits) :
    Json.Fits limits.depth (.object d.members) := by
  obtain ⟨room, hroom⟩ := Nat.exists_eq_add_of_le' limits.two_le_depth
  rw [hroom]
  refine .object fun m hm => ?_
  simp only [members, List.mem_append, List.mem_cons, List.not_mem_nil, or_false, Option.mem_toList,
    Option.map_eq_some_iff] at hm
  rcases hm with ((rfl | rfl | rfl | rfl) | ⟨text, -, rfl⟩) | rfl
  · exact .int h
  · exact .text d.file
  · exact fits_textArray _ d.sources
  · exact fits_textArray _ d.names
  · exact .text text
  · exact .text d.sourceRoot

theorem merged_members (d : Document) : (Json.object d.members).merged = .object d.members := by
  have hkeys : (d.members.map Prod.fst).Nodup := by
    unfold members
    cases d.mappings <;> simp [textArray]
  have hvalues : Json.mergedMembers d.members = d.members := by
    unfold members
    cases d.mappings <;>
      simp [textArray, Json.mergedMembers, Json.mergedItems_texts, Json.merged]
  rw [Json.merged, hvalues, Json.dedup_of_nodup hkeys]

theorem read_write (limits : Json.Limits) {d : Document}
    (h : (Nat.toDigits 10 d.version.natAbs).length ≤ Json.maxDigits) :
    Json.read limits d.write = .ok (.object d.members) := by
  rw [write, Json.read_compress (fits_members limits h), merged_members]

/-- The members that are written for a document hold its fields. -/
theorem holds_members (d : Document) : Holds d.members d := by
  constructor
  case sources =>
    have hlookup : d.members.lookup "sources" = some (textArray d.sources) := by
      simp [members, List.lookup_cons]
    exact hlookup ▸ .texts d.sources
  case names =>
    have hlookup : d.members.lookup "names" = some (textArray d.names) := by
      simp [members, List.lookup_cons]
    exact hlookup ▸ .texts d.names
  all_goals
    unfold members
    cases d.mappings <;> simp [textUnder, List.lookup_cons]

theorem load_write {limits : Json.Limits} {d : Document} (h : d.version = 3) :
    load limits d.write = .ok d := by
  have hdigits : (Nat.toDigits 10 d.version.natAbs).length ≤ Json.maxDigits := by
    rw [h]
    decide
  have hread := read_write limits hdigits
  have hholds := holds_members d
  have hversion : d.members.lookup "version" = some (.int 3) := by rw [hholds.version, h]
  exact (load_eq_ok_iff_holds hread hversion).2 hholds

end Document

theorem LoadedMap.load_of_document {limits : Json.Limits} {text : String} {d : Document} {c : Chart}
    (hd : Document.load limits text = .ok d) (hc : d.chart = .ok c) : load limits text = .ok ⟨d, c⟩ :=
  load_eq_ok_iff.2 ⟨hd, hc⟩

/-- A document of the supported version is loaded from the text that is written for it, whatever
characters its texts hold and whatever the limits are, and its sources come behind the source root.
If its mappings make a chart, the map that is loaded from the text consists of the document and the
chart. -/
theorem load_write_round_trip (limits : Json.Limits) (file root mappings : String)
    (sources names : List String) :
    Document.load limits (Document.write ⟨3, file, root, sources, names, some mappings⟩) =
      .ok ⟨3, file, root, sources, names, some mappings⟩ ∧
    Document.resolvedSources ⟨3, file, root, sources, names, some mappings⟩ =
      sources.map (root ++ ·) ∧
    ∀ c, Document.chart ⟨3, file, root, sources, names, some mappings⟩ = .ok c →
      ∃ m, LoadedMap.load limits (Document.write ⟨3, file, root, sources, names, some mappings⟩) =
          .ok m ∧
        m.document = ⟨3, file, root, sources, names, some mappings⟩ ∧ m.chart = c ∧
        m.chart.sources = sources.map (root ++ ·) ∧ m.chart.names = names := by
  have hload : Document.load limits (Document.write ⟨3, file, root, sources, names, some mappings⟩) =
      .ok ⟨3, file, root, sources, names, some mappings⟩ := Document.load_write rfl
  refine ⟨hload, rfl, fun c hc => ⟨_, LoadedMap.load_of_document hload hc, rfl, rfl, ?_⟩⟩
  rw [Document.chart_of_mappings rfl] at hc
  obtain ⟨lines, -, rfl⟩ := map_eq_ok_iff.1 hc
  exact ⟨rfl, rfl⟩

theorem load_write_round_trip_escapes :
    Document.chart ⟨3, "\"\\\n", "é/", ["😀", "\x00"], [], some "AACA;"⟩ =
      .ok ⟨[[⟨0, 0, 1, 0, none⟩], []], ["é/😀", "é/\x00"], []⟩ ∧
    ∃ m, LoadedMap.load .standard (Document.write
        ⟨3, "\"\\\n", "é/", ["😀", "\x00"], [], some "AACA;"⟩) = .ok m ∧
      m.document.file = "\"\\\n" ∧ m.chart.sources = ["é/😀", "é/\x00"] ∧
      m.chart.lineCount = 2 := by
  have hchart : Document.chart ⟨3, "\"\\\n", "é/", ["😀", "\x00"], [], some "AACA;"⟩ =
      .ok ⟨[[⟨0, 0, 1, 0, none⟩], []], ["é/😀", "é/\x00"], []⟩ := rfl
  obtain ⟨m, hload, hdocument, hchart', hsources, -⟩ :=
    (load_write_round_trip .standard "\"\\\n" "é/" "AACA;" ["😀", "\x00"] []).2.2 _ hchart
  exact ⟨hchart, m, hload, by rw [hdocument], hsources, by rw [hchart']; rfl⟩

end CodeMap
