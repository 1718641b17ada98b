import CodeMap.Json.Shown

/-! # Numbered messages

Each condition that ends the reading of a map has a code, and each code a template: words with
slots in between. `Code.message` fills the slots with the values given for them; if one is missing,
the bare template is the message and `Code.missing?` names the slot. -/

namespace CodeMap

/-- The conditions that end the reading of a map. -/
inductive Code
  | unsupportedVersion
  | badCharacter
  | unfinishedValue
  | valueTooLarge
  | noColumn
  | badDocument
  deriving DecidableEq, Repr

inductive Piece
  | words (s : String)
  | slot (name : String)
  deriving DecidableEq, Repr

/-- The values given for the slots of a template. -/
abbrev Arguments := List (String × Json)

/-- A piece as it stands in the template. -/
def Piece.bare : Piece → String
  | .words s => s
  | .slot name => "\x7b" ++ name ++ "\x7d"

/-- A piece with its slot filled, if there is a value for it. -/
def Piece.filled? (args : Arguments) : Piece → Option String
  | .words s => some s
  | .slot name => (args.lookup name).map Json.shown

namespace Code

/-- Every code, in the order of their numbers. -/
def all : List Code :=
  [.unsupportedVersion, .badCharacter, .unfinishedValue, .valueTooLarge, .noColumn, .badDocument]

def label : Code → String
  | .unsupportedVersion => "M0001"
  | .badCharacter => "M0002"
  | .unfinishedValue => "M0003"
  | .valueTooLarge => "M0004"
  | .noColumn => "M0005"
  | .badDocument => "M0006"

/-- The code with a written form. -/
def ofLabel? (s : String) : Option Code := all.find? fun c => c.label = s

/-- What is wrong in general: the format of the map or its data. -/
def category : Code → String
  | .unsupportedVersion => "format"
  | _ => "data"

def template : Code → List Piece
  | .unsupportedVersion =>
    [.words "only V3 source maps are supported, got version ", .slot "version"]
  | .badCharacter =>
    [.words "invalid data in source map, base64 data out of range: '", .slot "char", .words "'"]
  | .unfinishedValue => [.words "invalid data in source map, continued value doesn't continue"]
  | .valueTooLarge => [.words "invalid data in source map, value is outside of 32-bit range"]
  | .noColumn => [.words "invalid data in source map, no starting column"]
  | .badDocument => [.words "invalid source map document: ", .slot "reason"]

/-- The first slot of the template without a value. -/
def missing? (code : Code) (args : Arguments) : Option String :=
  code.template.findSome? fun
    | .slot name => if (args.lookup name).isNone then some name else none
    | .words _ => none

/-- The message of a code: its template with every slot filled, or else bare. The values must have
few enough levels to be shown. -/
def message (code : Code) (args : Arguments) : String :=
  String.join ((code.template.mapM (Piece.filled? args)).getD (code.template.map Piece.bare))

/-- What is said of a value that is no code. -/
def unknownText (value : Json) : String := value.inner ++ " is not a valid ErrorCode"

end Code

/-- The message of a code that has no template. -/
def unknownMessage : String := "unknown error"

end CodeMap
