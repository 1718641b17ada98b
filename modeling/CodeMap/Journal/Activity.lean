import CodeMap.Journal.State
import CodeMap.Loading
import CodeMap.Message

/-! # Logged activities

Loading a map, asking it for a generated position and filling a message give records of their own.
An `Activity` is one of these, or a record from outside, or a change of the configuration;
`State.perform` carries it out and tells what it gives and what it writes. A text is read within the
limits at the time of the activity. -/

namespace CodeMap.Journal

/-- Something that may be logged. -/
inductive Activity
  | configure (verbose toFile : Bool)
  | emit (record : Record)
  | load (limits : Json.Limits) (text : String)
  /-- Asks for a line and a column of at most `Json.maxDigits` digits, as JSON text can hold them:
  the record of longer ones is lost. -/
  | locate (limits : Json.Limits) (text : String) (line column : Int)
  /-- Fills the message of a written code, which must be known unless `raw`. -/
  | message (label : String) (args : Arguments) (raw : Bool)
  deriving Repr

inductive Outcome
  | nothing
  | summary (text : String)
  | location (found : Option Location)
  | message (text : String)
  | fault (fault : LoadFault)
  | unknownCode (label : String)
  deriving Repr

/-- What is said when a map is built. -/
def builtRecord (m : LoadedMap) : Record where
  logger := package ++ ".parser"
  level := debug
  message := "Built mapping index for " ++
    (if m.document.file = "" then "<unnamed>" else m.document.file) ++ ": " ++
    toString m.chart.lineCount ++ " lines, " ++ toString m.chart.sources.length ++ " sources, " ++
    toString m.chart.names.length ++ " names"

/-- What is said when no generated position is found, for integers of at most `Json.maxDigits`
digits. -/
def notFoundRecord (line column : Int) : Record where
  logger := package ++ ".backward"
  level := debug
  message := "No generated position for " ++ toString line ++ ":" ++ toString column

/-- What is said when a message lacks the value of a slot. -/
def missingRecord (name : String) : Record where
  logger := package ++ ".errors.codes"
  level := warning
  message := "Missing parameter for error message: " ++ Text.quoted name

namespace Activity

/-- What an activity gives and the records it makes. -/
def run : Activity → Outcome × List Record
  | .configure _ _ => (.nothing, [])
  | .emit record => (.nothing, [record])
  | .load limits text =>
    match LoadedMap.load limits text with
    | .error fault => (.fault fault, [])
    | .ok m => (.summary m.summary, [builtRecord m])
  | .locate limits text line column =>
    match LoadedMap.load limits text with
    | .error fault => (.fault fault, [])
    | .ok m =>
      let found := m.generatedPosition line column
      (.location found,
        builtRecord m :: if found.isNone then [notFoundRecord line column] else [])
  | .message label args raw =>
    match Code.ofLabel? label with
    | some code => (.message (code.message args), ((code.missing? args).map missingRecord).toList)
    | none => (if raw then .message unknownMessage else .unknownCode label, [])

end Activity

/-- Carries out an activity: the state after it, its outcome and its entries on the console. -/
def State.perform (s : State) : Activity → State × Outcome × List String
  | .configure verbose toFile =>
    let (s, entries) := s.configure verbose toFile
    (s, .nothing, entries)
  | activity =>
    let (outcome, records) := activity.run
    let (s, entries) := s.writeAll records
    (s, outcome, entries)

end CodeMap.Journal
