import CodeMap.Json.Lexeme

/-! # Reading JSON text

The reader takes one lexeme after the other and keeps what it has read of the containers around it
on a stack (`Frame`). Its state says what the grammar admits next, so the first place where the
text departs from the grammar is the place where it is refused. `parse` keeps the members of an
object as they are written; `read` merges those of one key. -/

namespace CodeMap.Json

/-- A container that is read in part: the items or members before the open one, last first. -/
inductive Frame
  | item (before : List Json)
  | member (before : List (String × Json)) (key : String)
  deriving Repr

/-- What the grammar admits next, inside the containers of a stack. -/
inductive State
  | value (stack : List Frame)
  | firstItem (stack : List Frame)
  | firstKey (stack : List Frame)
  | key (before : List (String × Json)) (stack : List Frame)
  | colon (before : List (String × Json)) (key : String) (stack : List Frame)
  | afterItem (items : List Json) (stack : List Frame)
  | afterMember (members : List (String × Json)) (stack : List Frame)
  | finished (value : Json)
  deriving Repr

inductive Refusal
  | unexpected
  | tooDeep (container : Container)
  deriving DecidableEq, Repr

namespace State

/-- What is missing if the text does not go on as it must. -/
def wanted : State → Cause
  | .value _ => .missingValue
  | .firstItem _ => .missingValue
  | .firstKey _ => .missingKey
  | .key _ _ => .missingKey
  | .colon _ _ _ => .missingColon
  | .afterItem _ _ => .missingComma
  | .afterMember _ _ => .missingComma
  | .finished _ => .extraData

def admitsValue : State → Bool
  | .value _ => true
  | .firstItem _ => true
  | _ => false

def admitsText : State → Bool
  | .firstKey _ => true
  | .key _ _ => true
  | s => s.admitsValue

/-- The state after a whole value. -/
def complete (value : Json) : List Frame → State
  | [] => .finished value
  | .item before :: stack => .afterItem (value :: before) stack
  | .member before k :: stack => .afterMember ((k, value) :: before) stack

/-- Opens a container if the limits leave room for it. -/
def enter (limits : Limits) (container : Container) (stack : List Frame) : Except Refusal State :=
  if stack.length < limits.depth then
    .ok (match container with
      | .array => .firstItem stack
      | .object => .firstKey stack)
  else .error (.tooDeep container)

def startValue (limits : Limits) (stack : List Frame) : Lexeme → Except Refusal State
  | .openArray => enter limits .array stack
  | .openObject => enter limits .object stack
  | .text s => .ok (complete (.text s) stack)
  | .scalar v => .ok (complete v stack)
  | _ => .error .unexpected

def startKey (before : List (String × Json)) (stack : List Frame) : Lexeme → Except Refusal State
  | .text s => .ok (.colon before s stack)
  | _ => .error .unexpected

/-- The state after one more lexeme. -/
def step (limits : Limits) : State → Lexeme → Except Refusal State
  | .value stack, l => startValue limits stack l
  | .firstItem stack, .closeArray => .ok (complete (.array []) stack)
  | .firstItem stack, l => startValue limits (.item [] :: stack) l
  | .firstKey stack, .closeObject => .ok (complete (.object []) stack)
  | .firstKey stack, l => startKey [] stack l
  | .key before stack, l => startKey before stack l
  | .colon before k stack, .colon => .ok (.value (.member before k :: stack))
  | .afterItem items stack, .comma => .ok (.value (.item items :: stack))
  | .afterItem items stack, .closeArray => .ok (complete (.array items.reverse) stack)
  | .afterMember members stack, .comma => .ok (.key members stack)
  | .afterMember members stack, .closeObject => .ok (complete (.object members.reverse) stack)
  | _, _ => .error .unexpected

end State

/-- The fault of a text `whole` that does not go on as it must where its suffix `here` begins. -/
def missing (whole : List Char) (state : State) (here : List Char) : Fault :=
  .malformed state.wanted (.before whole here)

/-- Reads the text `cs`, which ends `whole`, from a state on. -/
def readFrom (limits : Limits) (whole : List Char) (state : State) (cs : List Char) :
    Except Fault Json :=
  let here := cs.dropWhile isBlank
  match _h : scan here with
  | .nothing =>
    match state with
    | .finished v => .ok v
    | _ => .error (missing whole state here)
  | .lexeme l rest =>
    match state.step limits l with
    | .ok next => readFrom limits whole next rest
    | .error .unexpected => .error (missing whole state here)
    | .error (.tooDeep container) => .error (.tooDeep container)
  | .unknown => .error (missing whole state here)
  | .brokenText cause place =>
    .error (if state.admitsText then .malformed cause (.before whole place)
      else missing whole state here)
  | .longInteger digits =>
    .error (if state.admitsValue then .tooManyDigits digits else missing whole state here)
termination_by cs.length
decreasing_by
  have := scan_length _h
  have : here.length ≤ cs.length := (List.dropWhile_sublist isBlank).length_le
  omega

/-- The value of a text, with the members of objects as they are written. -/
def parse (limits : Limits) (text : String) : Except Fault Json :=
  match text.toList with
  | '\uFEFF' :: _ => .error (.malformed .byteOrderMark (.before [] []))
  | cs => readFrom limits cs (.value []) cs

def read (limits : Limits) (text : String) : Except Fault Json := merged <$> parse limits text

end CodeMap.Json
