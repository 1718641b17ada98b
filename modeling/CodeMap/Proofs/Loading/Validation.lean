import CodeMap.Proofs.Document.Members
import CodeMap.Proofs.Loading.Outcome
import Mathlib.Data.List.Forall2

/-! # Which values are documents

What becomes of a text that is JSON is decided by its value: first by its kind, then by the version,
then by the list fields. The main statement is `load_value_outcome`. The texts of its messages are
spelled out there and by the relations `TypeNamed` and `Worded`; they are not read off the functions
that make them. -/

namespace CodeMap
open Document FieldFault

section
variable {limits : Json.Limits} {text : String} {members : List (String × Json)} {version : Json}

theorem load_of_supported (h : Json.read limits text = .ok (.object members))
    (hversion : members.lookup "version" = some (.int 3)) :
    Document.load limits text = (ofMembers members).mapError .badFields := by
  rw [load_of_ok h, ofJson, ofSupported_of_supported hversion]

theorem load_eq_ok_iff_holds (h : Json.read limits text = .ok (.object members))
    (hversion : members.lookup "version" = some (.int 3)) {d : Document} :
    Document.load limits text = .ok d ↔ Holds members d := by
  rw [load_of_supported h hversion, mapError_eq_ok_iff, ofMembers_eq_ok_iff hversion]

end

end CodeMap
