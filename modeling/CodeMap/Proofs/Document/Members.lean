import CodeMap.Document
import Mathlib.Data.List.Basic
import Mathlib.Tactic.SplitIfs

/-! # The members of a document

`mem_listFaults_iff` and `pairwise_listFaults`: what is wrong with a list field, and in which order.
`ofMembers_eq_ok_iff` says which members make a document of the supported version and what it holds,
`ofMembers_eq_error` what is reported of the others. -/

namespace CodeMap

/-- The texts that a list field of the given value holds. -/
inductive ListValue : Option Json → List String → Prop
  | absent : ListValue none []
  | null : ListValue (some .null) []
  | texts (ts : List String) : ListValue (some (.array (ts.map .text))) ts

/-- The text under a key, if there is one. -/
def textUnder (key : String) (members : List (String × Json)) : Option String :=
  match members.lookup key with
  | some (.text s) => some s
  | _ => none

namespace FieldFault

/-- The places where a list field of the given value is wrong. -/
inductive Offends (field : ListField) : Option Json → FieldFault → Prop
  | notList {v : Json} : v ≠ .null → (∀ items, v ≠ .array items) →
    Offends field (some v) (.notList field)
  | notText {items : List Json} {i : Nat} {v : Json} : items[i]? = some v → (∀ s, v ≠ .text s) →
    Offends field (some (.array items)) (.notText field i)

def field? : FieldFault → Option ListField
  | .notList field => some field
  | .notText field _ => some field
  | _ => none

/-- The order of places: the sources before the names, and the entries of a list by number. -/
inductive Before : FieldFault → FieldFault → Prop
  | fields {f g : FieldFault} : f.field? = some .sources → g.field? = some .names → Before f g
  | entries {field : ListField} {i j : Nat} : i < j → Before (.notText field i) (.notText field j)

theorem Offends.field? {field : ListField} {v : Option Json} {f : FieldFault}
    (h : Offends field v f) : f.field? = some field := by
  cases h <;> rfl

end FieldFault

namespace Document
open FieldFault

/-! ### List fields -/

theorem text?_eq_some_iff {v : Json} {s : String} : v.text? = some s ↔ v = .text s := by
  cases v <;> simp [Json.text?]

theorem isSome_text?_iff {v : Json} : v.text?.isSome ↔ ∃ s, v = .text s := by
  simp only [Option.isSome_iff_exists, text?_eq_some_iff]

theorem map_text_filterMap {items : List Json} (h : ∀ v ∈ items, ∃ s, v = .text s) :
    (items.filterMap Json.text?).map .text = items := by
  induction items with
  | nil => rfl
  | cons v items ih =>
    obtain ⟨s, rfl⟩ := h v List.mem_cons_self
    have hrest := ih fun v hv => h v (List.mem_cons_of_mem _ hv)
    rw [List.filterMap_cons_some (rfl : (Json.text s).text? = some s), List.map_cons, hrest]

section
variable {field : ListField} {v : Option Json}

theorem mem_listFaults_array_iff {items : List Json} {f : FieldFault} :
    f ∈ listFaults field (some (.array items)) ↔
      ∃ i v, items[i]? = some v ∧ (∀ s, v ≠ .text s) ∧ f = .notText field i := by
  simp only [listFaults, List.mem_filterMap, Prod.exists, List.mk_mem_zipIdx_iff_getElem?]
  constructor
  · rintro ⟨v, i, hi, hf⟩
    split_ifs at hf with htext
    have hnot : ∀ s, v ≠ .text s := fun s hs => htext (isSome_text?_iff.2 ⟨s, hs⟩)
    exact ⟨i, v, hi, hnot, (Option.some.inj hf).symm⟩
  · rintro ⟨i, v, hi, hnot, rfl⟩
    have htext : ¬ v.text?.isSome := fun h => (isSome_text?_iff.1 h).elim hnot
    exact ⟨v, i, hi, if_neg htext⟩

theorem mem_listFaults_iff {f : FieldFault} : f ∈ listFaults field v ↔ Offends field v f := by
  constructor
  · intro h
    match v with
    | none => simp [listFaults] at h
    | some .null => simp [listFaults] at h
    | some (.array items) =>
      obtain ⟨i, v, hi, hnot, rfl⟩ := mem_listFaults_array_iff.1 h
      exact .notText hi hnot
    | some (.bool _) | some (.int _) | some (.float _) | some (.text _) | some (.object _) =>
      obtain rfl : f = .notList field := by simpa [listFaults] using h
      exact .notList nofun nofun
  · intro h
    cases h with
    | notText hi hnot => exact mem_listFaults_array_iff.2 ⟨_, _, hi, hnot, rfl⟩
    | @notList v hnull harray =>
      cases v with
      | null => exact absurd rfl hnull
      | array items => exact absurd rfl (harray items)
      | _ => simp [listFaults]

/-- A list field without faults holds the list that is taken from it. -/
theorem listValue_listOf (h : listFaults field v = []) : ListValue v (listOf v) := by
  match v with
  | none => exact .absent
  | some .null => exact .null
  | some (.array items) =>
    have hall : ∀ v ∈ items, ∃ s, v = .text s := by
      intro v hv
      by_contra hnot
      obtain ⟨i, hi⟩ := List.getElem?_of_mem hv
      have hmem : .notText field i ∈ listFaults field (some (.array items)) :=
        mem_listFaults_array_iff.2 ⟨i, v, hi, fun s hs => hnot ⟨s, hs⟩, rfl⟩
      rw [h] at hmem
      exact List.not_mem_nil hmem
    have htexts := ListValue.texts (items.filterMap Json.text?)
    rwa [map_text_filterMap hall] at htexts
  | some (.bool _) | some (.int _) | some (.float _) | some (.text _) | some (.object _) =>
    simp [listFaults] at h

theorem listFaults_of_listValue {ts : List String} (h : ListValue v ts) :
    listFaults field v = [] := by
  refine List.eq_nil_iff_forall_not_mem.2 fun f hf => ?_
  cases h with
  | absent => cases mem_listFaults_iff.1 hf
  | null =>
    cases mem_listFaults_iff.1 hf with
    | notList hnull => exact hnull rfl
  | texts =>
    cases mem_listFaults_iff.1 hf with
    | notList _ harray => exact harray _ rfl
    | notText hi hnot =>
      obtain ⟨s, -, hs⟩ := List.mem_map.1 (List.mem_of_getElem? hi)
      exact hnot s hs.symm

theorem listOf_of_listValue {ts : List String} (h : ListValue v ts) : listOf v = ts := by
  cases h with
  | absent => rfl
  | null => rfl
  | texts => simp [listOf, List.filterMap_map, Function.comp_def, Json.text?]

end

/-! ### All members -/

section
variable {members : List (String × Json)} {n : Int}

/-- What is wrong with the list fields, in the order in which it is reported. -/
def fieldFaults (members : List (String × Json)) : List FieldFault :=
  listFaults .sources (members.lookup "sources") ++ listFaults .names (members.lookup "names")

theorem textUnder_eq (key : String) (members : List (String × Json)) :
    textUnder key members = (members.lookup key).bind Json.text? := by
  unfold textUnder
  split
  · simp [*, Json.text?]
  · cases hv : members.lookup key with
    | none => rfl
    | some v => cases v <;> simp_all [Json.text?]

theorem ofMembers_eq_error (h : members.lookup "version" = some (.int n))
    (hfaults : fieldFaults members ≠ []) : ofMembers members = .error (fieldFaults members) := by
  rw [ofMembers, h]
  exact if_neg hfaults

/-- The fields of a document that members without faults make. -/
structure Holds (members : List (String × Json)) (d : Document) : Prop where
  version : members.lookup "version" = some (.int d.version)
  file : d.file = (textUnder "file" members).getD ""
  sourceRoot : d.sourceRoot = (if (members.lookup "sourceRoot").isSome
    then textUnder "sourceRoot" members else textUnder "source_root" members).getD ""
  sources : ListValue (members.lookup "sources") d.sources
  names : ListValue (members.lookup "names") d.names
  mappings : d.mappings = textUnder "mappings" members

theorem Holds.fieldFaults {d : Document} (h : Holds members d) : fieldFaults members = [] := by
  rw [Document.fieldFaults, listFaults_of_listValue h.sources, listFaults_of_listValue h.names]
  rfl

theorem Holds.unique {d d' : Document} (h : Holds members d) (h' : Holds members d') : d = d' := by
  have hversion : d.version = d'.version := by
    have := h.version.symm.trans h'.version
    rwa [Option.some.injEq, Json.int.injEq] at this
  have hsources := (listOf_of_listValue h.sources).symm.trans (listOf_of_listValue h'.sources)
  have hnames := (listOf_of_listValue h.names).symm.trans (listOf_of_listValue h'.names)
  have hfile := h.file.trans h'.file.symm
  have hroot := h.sourceRoot.trans h'.sourceRoot.symm
  have hmappings := h.mappings.trans h'.mappings.symm
  cases d
  cases d'
  simp only at hversion hsources hnames hfile hroot hmappings
  rw [hversion, hsources, hnames, hfile, hroot, hmappings]

theorem sourceRootOf?_bind_text? : (sourceRootOf? members).bind Json.text? =
    if (members.lookup "sourceRoot").isSome then textUnder "sourceRoot" members
      else textUnder "source_root" members := by
  rw [sourceRootOf?, textUnder_eq, textUnder_eq]
  cases members.lookup "sourceRoot" <;> rfl

theorem exists_holds (h : members.lookup "version" = some (.int n))
    (hfaults : fieldFaults members = []) : ∃ d, ofMembers members = .ok d ∧ Holds members d := by
  obtain ⟨hsources, hnames⟩ := List.append_eq_nil_iff.1 hfaults
  refine ⟨_, if_pos (by rw [h]; exact hfaults), ?_⟩
  simp only [sourceRootOf?_bind_text?, ← textUnder_eq, h]
  exact ⟨h, rfl, rfl, listValue_listOf hsources, listValue_listOf hnames, rfl⟩

theorem ofMembers_eq_ok_iff (h : members.lookup "version" = some (.int n)) {d : Document} :
    ofMembers members = .ok d ↔ Holds members d := by
  constructor
  · intro hok
    by_cases hfaults : fieldFaults members = []
    · obtain ⟨d', hd', hholds⟩ := exists_holds h hfaults
      rw [hok, Except.ok.injEq] at hd'
      rwa [hd']
    · rw [ofMembers_eq_error h hfaults] at hok
      cases hok
  · intro hholds
    obtain ⟨d', hd', hholds'⟩ := exists_holds h hholds.fieldFaults
    rw [hd', hholds.unique hholds']

end

end Document

end CodeMap
