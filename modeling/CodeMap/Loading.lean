import CodeMap.Chart
import CodeMap.Document
import CodeMap.Json.Reader
import CodeMap.Lookup.Generated
import CodeMap.Lookup.Source
import CodeMap.Mappings
import CodeMap.Text.Quoted

/-! # Loading a map

`LoadedMap.load` reads the text of a map: the JSON text, the fields of the document and the
mappings. The first of these that is at fault is the reason why there is no map. -/

namespace CodeMap

/-- The only version of maps that is read. -/
def supportedVersion : Int := 3

inductive LoadFault
  | unreadable (fault : Json.Fault)
  | notObject (value : Json)
  | unsupportedVersion (value : Json)
  | badFields (faults : List FieldFault)
  | badMappings (fault : Mappings.Fault)
  deriving Repr

namespace Document

/-- The document with the given members, if their version is supported. -/
def ofSupported (members : List (String × Json)) : Except LoadFault Document :=
  match members.lookup "version" with
  | some (.int n) =>
    if n = supportedVersion then (ofMembers members).mapError .badFields
    else .error (.unsupportedVersion (.int n))
  | version => .error (.unsupportedVersion (version.getD .null))

def ofJson : Json → Except LoadFault Document
  | .object members => ofSupported members
  | v => .error (.notObject v)

def load (limits : Json.Limits) (text : String) : Except LoadFault Document := do
  ofJson (← (Json.read limits text).mapError .unreadable)

/-- The chart of a document; without mappings it has no lines. -/
def chart (d : Document) : Except Mappings.Fault Chart := do
  let lines ← match d.mappings with
    | none => pure []
    | some text => Mappings.read text
  return { lines := lines, sources := d.resolvedSources, names := d.names }

theorem chart_of_mappings {d : Document} {text : String} (h : d.mappings = some text) :
    d.chart = (⟨·, d.resolvedSources, d.names⟩) <$> Mappings.read text := by
  simp only [chart, h]
  cases Mappings.read text <;> rfl

end Document

/-- A map with its document and its chart. -/
structure LoadedMap where
  document : Document
  chart : Chart
  deriving DecidableEq, Repr

namespace LoadedMap

def ofDocument (d : Document) : Except Mappings.Fault LoadedMap := (⟨d, ·⟩) <$> d.chart

def load (limits : Json.Limits) (text : String) : Except LoadFault LoadedMap := do
  let d ← Document.load limits text
  (ofDocument d).mapError .badMappings

/-- The generated position of a source position, in the file that the map is for. -/
def generatedPosition (m : LoadedMap) (line column : Int) : Option Location :=
  m.chart.generatedPosition m.document.file line column

def summary (m : LoadedMap) : String :=
  "SourceMap(file=" ++ Text.quoted m.document.file ++
    ", lines=" ++ toString m.chart.lineCount ++ ")"

end LoadedMap

end CodeMap
