import CodeMap.Json.Writer

/-! # Documents

A map is written as a JSON object. `Document.ofMembers` takes the fields of a document from the
members of that object. Texts that are no texts fall back to the empty text or to none; the version
and the lists of sources and names must have their form, and every place where they do not is
reported. `Document.write` gives the text of a document. -/

namespace CodeMap

/-- The fields of a map. -/
structure Document where
  version : Int
  file : String
  sourceRoot : String
  sources : List String
  names : List String
  mappings : Option String
  deriving DecidableEq, Repr

/-- The fields that hold a list of texts. -/
inductive ListField
  | sources
  | names
  deriving DecidableEq, Repr

/-- What is wrong with a field. -/
inductive FieldFault
  | versionMissing
  | versionNotInteger
  | notList (field : ListField)
  | notText (field : ListField) (index : Nat)
  deriving DecidableEq, Repr

def ListField.key : ListField → String
  | .sources => "sources"
  | .names => "names"

namespace FieldFault

def place : FieldFault → String
  | .versionMissing => "version"
  | .versionNotInteger => "version"
  | .notList field => field.key
  | .notText field index => field.key ++ "." ++ toString index

def kind : FieldFault → String
  | .versionMissing => "missing"
  | .versionNotInteger => "int_type"
  | .notList _ => "tuple_type"
  | .notText _ _ => "string_type"

def words : FieldFault → String
  | .versionMissing => "Field required"
  | .versionNotInteger => "Input should be a valid integer"
  | .notList _ => "Input should be a valid tuple"
  | .notText _ _ => "Input should be a valid string"

def brief (f : FieldFault) : String := f.place ++ ": " ++ f.words

def detailed (f : FieldFault) : String := f.place ++ ": " ++ f.kind ++ ": " ++ f.words

end FieldFault

def Json.text? : Json → Option String
  | .text s => some s
  | _ => none

namespace Document

/-- The sources with the source root put before each of them. -/
def resolvedSources (d : Document) : List String := d.sources.map (d.sourceRoot ++ ·)

def versionFaults : Option Json → List FieldFault
  | none => [.versionMissing]
  | some (.int _) => []
  | some _ => [.versionNotInteger]

def versionOf : Option Json → Int
  | some (.int n) => n
  | _ => 0

/-- What is wrong with a list field: it may be absent, null or a list of texts. -/
def listFaults (field : ListField) : Option Json → List FieldFault
  | none => []
  | some .null => []
  | some (.array items) => items.zipIdx.filterMap fun (v, i) =>
    if v.text?.isSome then none else some (.notText field i)
  | some _ => [.notList field]

def listOf : Option Json → List String
  | some (.array items) => items.filterMap Json.text?
  | _ => []

/-- The value of the source root: the newer spelling of its key wins, whatever its value is. -/
def sourceRootOf? (members : List (String × Json)) : Option Json :=
  (members.lookup "sourceRoot").or (members.lookup "source_root")

/-- The document with the given members, or everything that is wrong with them. -/
def ofMembers (members : List (String × Json)) : Except (List FieldFault) Document :=
  let version := members.lookup "version"
  let sources := members.lookup "sources"
  let names := members.lookup "names"
  let faults := versionFaults version ++ listFaults .sources sources ++ listFaults .names names
  if faults = [] then
    .ok { version := versionOf version
          file := ((members.lookup "file").bind Json.text?).getD ""
          sourceRoot := ((sourceRootOf? members).bind Json.text?).getD ""
          sources := listOf sources
          names := listOf names
          mappings := (members.lookup "mappings").bind Json.text? }
  else .error faults

/-! ### Writing

A document is written as a JSON object with a member for each of its fields; mappings that are
absent have none. -/

def textArray (texts : List String) : Json := .array (texts.map .text)

def members (d : Document) : List (String × Json) :=
  [("version", .int d.version), ("file", .text d.file), ("sources", textArray d.sources),
    ("names", textArray d.names)] ++
  (d.mappings.map fun m => ("mappings", Json.text m)).toList ++
  [("sourceRoot", .text d.sourceRoot)]

def write (d : Document) : String := (Json.object d.members).compress

end Document

end CodeMap
