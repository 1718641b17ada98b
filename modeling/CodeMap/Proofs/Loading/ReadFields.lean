import CodeMap.Proofs.Json.LastValue
import CodeMap.Proofs.Loading.Outcome

/-! # What loading reads

Of the object that a text holds, loading reads the last values of its fields. Two texts that agree
on them have the same outcome, whatever else they hold and in whatever order
(`load_eq_of_same_last_values`). -/

namespace CodeMap

namespace Document

/-- Two lists of members agree on what a document is made from; the older spelling of the source
root counts only if neither has the newer one. -/
structure SameFields (members members' : List (String × Json)) : Prop where
  version : members.lookup "version" = members'.lookup "version"
  file : members.lookup "file" = members'.lookup "file"
  sources : members.lookup "sources" = members'.lookup "sources"
  names : members.lookup "names" = members'.lookup "names"
  mappings : members.lookup "mappings" = members'.lookup "mappings"
  sourceRoot : members.lookup "sourceRoot" = members'.lookup "sourceRoot"
  older : members.lookup "sourceRoot" = none →
    members.lookup "source_root" = members'.lookup "source_root"

namespace SameFields
variable {members members' : List (String × Json)}

theorem sourceRootOf? (h : SameFields members members') :
    Document.sourceRootOf? members = Document.sourceRootOf? members' := by
  rw [Document.sourceRootOf?, Document.sourceRootOf?, ← h.sourceRoot]
  cases hroot : members.lookup "sourceRoot" with
  | none => rw [h.older hroot]
  | some v => rfl

theorem ofMembers (h : SameFields members members') :
    Document.ofMembers members = Document.ofMembers members' := by
  simp only [Document.ofMembers, h.version, h.file, h.sources, h.names, h.mappings, h.sourceRootOf?]

theorem ofSupported (h : SameFields members members') :
    Document.ofSupported members = Document.ofSupported members' := by
  by_cases hversion : members.lookup "version" = some (.int supportedVersion)
  · rw [ofSupported_of_supported hversion, ofSupported_of_supported (h.version ▸ hversion),
      h.ofMembers]
  · rw [ofSupported_of_unsupported hversion, ofSupported_of_unsupported (h.version ▸ hversion),
      h.version]

end SameFields

section
variable {limits : Json.Limits} {text text' : String} {members members' : List (String × Json)}

theorem load_of_parse (h : Json.parse limits text = .ok (.object members)) :
    load limits text = ofSupported (Json.dedup (Json.mergedMembers members)) := by
  have hread : Json.read limits text = .ok (.object (Json.dedup (Json.mergedMembers members))) := by
    rw [Json.read, h]
    rfl
  rw [load_of_ok hread, ofJson]

theorem load_eq_of_sameFields (h : Json.parse limits text = .ok (.object members))
    (h' : Json.parse limits text' = .ok (.object members'))
    (hfields : SameFields (Json.dedup (Json.mergedMembers members))
      (Json.dedup (Json.mergedMembers members'))) : load limits text = load limits text' := by
  rw [load_of_parse h, load_of_parse h', hfields.ofSupported]

end

end Document

/-- Two texts with objects that agree on the last value of each field of a document have the same
outcome: the same map, so that every query has the same answer, or the same fault, so that the same
failure is reported. The older spelling of the source root counts only where the newer one is
missing. The members are those of the texts, where a key may occur more than once. A surrogate alone
in one of them is replaced (`Json.character`), so this is said of members without one. -/
theorem load_eq_of_same_last_values {limits : Json.Limits} {text text' : String}
    {members members' : List (String × Json)} (h : Json.parse limits text = .ok (.object members))
    (h' : Json.parse limits text' = .ok (.object members'))
    (hfields : ∀ key ∈ ["version", "file", "sources", "names", "mappings", "sourceRoot"],
      Json.lastValue? key members = Json.lastValue? key members')
    (holder : Json.lastValue? "sourceRoot" members = none →
      Json.lastValue? "source_root" members = Json.lastValue? "source_root" members') :
    LoadedMap.load limits text = LoadedMap.load limits text' ∧
      reported? limits text = reported? limits text' := by
  have hsame : Document.SameFields (Json.dedup (Json.mergedMembers members))
      (Json.dedup (Json.mergedMembers members')) := by
    constructor <;> simp only [Json.lookup_merged]
    case older => exact holder
    all_goals exact hfields _ (by decide)
  have hload : LoadedMap.load limits text = LoadedMap.load limits text' := by
    rw [LoadedMap.load, LoadedMap.load, Document.load_eq_of_sameFields h h' hsame]
  exact ⟨hload, by rw [reported?, reported?, hload]⟩

theorem load_eq_of_same_last_values_reordered :
    LoadedMap.load .standard (Json.object [("version", .int 2), ("source_root", .text "a/"),
        ("x", .null), ("version", .int 3), ("mappings", .text "AAAA,"),
        ("sourceRoot", .int 0)]).compress =
      LoadedMap.load .standard (Json.object [("mappings", .null), ("sourceRoot", .int 0),
        ("mappings", .text "AAAA,"), ("version", .int 3), ("source_root", .text "b/")]).compress := by
  have hfits : Json.Fits Json.Limits.standard.depth (.object [("version", .int 2),
      ("source_root", .text "a/"), ("x", .null), ("version", .int 3), ("mappings", .text "AAAA,"),
      ("sourceRoot", .int 0)]) := by
    refine .object fun m hm => ?_
    simp only [List.mem_cons, List.not_mem_nil, or_false] at hm
    rcases hm with rfl | rfl | rfl | rfl | rfl | rfl
    exacts [.int (by decide), .text _, .null, .int (by decide), .text _, .int (by decide)]
  have hfits' : Json.Fits Json.Limits.standard.depth (.object [("mappings", .null),
      ("sourceRoot", .int 0), ("mappings", .text "AAAA,"), ("version", .int 3),
      ("source_root", .text "b/")]) := by
    refine .object fun m hm => ?_
    simp only [List.mem_cons, List.not_mem_nil, or_false] at hm
    rcases hm with rfl | rfl | rfl | rfl | rfl
    exacts [.null, .int (by decide), .text _, .int (by decide), .text _]
  refine (load_eq_of_same_last_values (Json.parse_compress hfits) (Json.parse_compress hfits')
    (fun key hkey => ?_) nofun).1
  simp only [List.mem_cons, List.not_mem_nil, or_false] at hkey
  rcases hkey with rfl | rfl | rfl | rfl | rfl | rfl <;> rfl

end CodeMap
