import CodeMap.Loading
import CodeMap.Message

/-! # Failures and reports

A map that cannot be read is reported as a failure: a numbered message with the version that is not
supported or, for faults in the mappings, with the generated line and the segment where reading
stopped. Two limits have no number and are reported as themselves: that of the digits of an integer,
and that of the levels of a version which the message would have to show. -/

namespace CodeMap

/-! ### Failures -/

inductive FailureKind
  | general
  | unsupportedFormat
  | invalidData
  deriving DecidableEq, Repr

structure Failure where
  kind : FailureKind
  code : Code
  text : String
  line : Option Int
  segment : Option Int
  /-- The version that is not supported. -/
  version : Option Json
  deriving Repr

namespace Failure

/-- A failure without a version and without a place in the mappings. -/
def new (kind : FailureKind) (code : Code) (args : Arguments) : Failure :=
  ⟨kind, code, code.message args, none, none, none⟩

/-- The same failure at a place in the mappings. -/
def locate (f : Failure) (line segment : Option Int) : Failure :=
  { f with line := line, segment := segment }

/-- The place of a failure in words: a segment is named only within a line. -/
def suffix (f : Failure) : String :=
  match f.line, f.segment with
  | none, _ => ""
  | some line, none => " (generated line " ++ toString line ++ ")"
  | some line, some segment =>
    " (generated line " ++ toString line ++ ", segment " ++ toString segment ++ ")"

def message (f : Failure) : String := f.text ++ f.suffix

end Failure

def Quantity.Fault.failure : Quantity.Fault → Failure
  | .badCharacter c => .new .invalidData .badCharacter [("char", .text (String.singleton c))]
  | .unfinished => .new .invalidData .unfinishedValue []
  | .tooLarge => .new .invalidData .valueTooLarge []

def Mappings.SegmentFault.failure : Mappings.SegmentFault → Failure
  | .quantity fault => fault.failure
  | .noColumn => .new .invalidData .noColumn []

@[simp] theorem Mappings.SegmentFault.failure_kind (e : SegmentFault) :
    e.failure.kind = .invalidData := by
  rcases e with (_ | _ | _) | _ <;> rfl

@[simp] theorem Mappings.SegmentFault.failure_line (e : SegmentFault) : e.failure.line = none := by
  rcases e with (_ | _ | _) | _ <;> rfl

/-- The failure of the mappings, at the segment that is refused. -/
def Mappings.Fault.failure (f : Mappings.Fault) : Failure :=
  f.cause.failure.locate (some f.line) (some f.segment)

@[simp] theorem Mappings.Fault.failure_kind (f : Fault) : f.failure.kind = .invalidData :=
  f.cause.failure_kind

def documentFailure (reason : String) : Failure :=
  .new .invalidData .badDocument [("reason", .text reason)]

/-- The failure of a version that is not supported, if it has not too many levels to be shown in the
message. -/
def versionFailure? (limits : Json.Limits) (version : Json) : Option Failure :=
  if version.levels ≤ limits.shown then
    some { Failure.new .unsupportedFormat .unsupportedVersion [("version", version)] with
      version := some version }
  else none

/-! ### Reports -/

/-- What is reported of a fault. -/
inductive Report
  | failure (f : Failure)
  | digitLimit (count : Nat)
  | levelLimit
  deriving Repr

def Report.message : Report → String
  | .failure f => f.message
  | .digitLimit count => (Json.Fault.tooManyDigits count).message
  | .levelLimit => "maximum recursion depth exceeded while getting the repr of an object"

/-- The report of a text that is no map. -/
def LoadFault.report (limits : Json.Limits) : LoadFault → Report
  | .unreadable (.tooManyDigits count) => .digitLimit count
  | .unreadable fault => .failure (documentFailure fault.message)
  | .notObject value =>
    .failure (documentFailure ("expected an object, got " ++ value.typeName))
  | .unsupportedVersion value =>
    ((versionFailure? limits value).map Report.failure).getD .levelLimit
  | .badFields faults =>
    .failure (documentFailure ("; ".intercalate (faults.map FieldFault.brief)))
  | .badMappings fault => .failure fault.failure

end CodeMap
