import CodeMap.Journal.Tree

/-! # The state of logging

A logger passes a record that reaches its level on to its own handlers and to those of the loggers
above it, and each handler writes the records that reach its own level. Here the package logger may
have handlers for the console and the root logger handlers for the log file; a record that meets no
handler at all is written bare to the console if it is a warning. A logger keeps its verdict on a
level until some level is set, even if it has got another place in the tree meanwhile.

`State.configure` installs a handler for the console, which later calls use again, and once, if a
file is wanted, one for the file. -/

namespace CodeMap.Journal

/-! ### Records -/

/-- A record given by a logger. -/
structure Record where
  logger : String
  level : Int
  message : String
  deriving DecidableEq, Repr

def debug : Int := 10

def info : Int := 20

def warning : Int := 30

def levelName (level : Int) : String :=
  if level = 10 then "DEBUG"
  else if level = 20 then "INFO"
  else if level = 30 then "WARNING"
  else if level = 40 then "ERROR"
  else if level = 50 then "CRITICAL"
  else "Level " ++ toString level

namespace Record

/-- The entry of a record on the console. -/
def consoleForm (r : Record) : String := levelName r.level ++ ": " ++ r.message

/-- The entry of a record in the log file, without its time. -/
def fileForm (r : Record) : String := r.logger ++ " - " ++ levelName r.level ++ " - " ++ r.message

end Record

/-! ### Handlers -/

structure Handler where
  id : Nat
  level : Int
  deriving DecidableEq, Repr

/-- The loggers with their handlers and levels, and the entries in the log file. -/
structure State where
  loggers : Tree
  /-- The package logger's handlers, which write to the console. -/
  console : List Handler
  /-- The console handler that was installed last. -/
  remembered : Option Nat
  /-- A number above those of all handlers so far. -/
  nextId : Nat
  /-- The package logger's own level. -/
  packageLevel : Option Int
  rootLevel : Int
  /-- The root logger's handlers, which write to the file. -/
  root : List Handler
  file : List String
  /-- Whether a logger passes records of a level on, as far as it was asked since a level was set. -/
  verdicts : List ((String × Int) × Bool)
  deriving DecidableEq, Repr

inductive Delivery
  | console
  | file
  | bare
  deriving DecidableEq, Repr

namespace State

/-- The state before anything is configured, when an earlier handler may still be remembered. -/
def initial (remembered : Option Nat) : State where
  loggers := .initial
  console := []
  remembered := remembered
  nextId := (remembered.map (· + 1)).getD 0
  packageLevel := none
  rootLevel := warning
  root := []
  file := []
  verdicts := []

def inPackage (s : State) (logger : String) : Bool := s.loggers.isBelow package logger

/-- The level that a logger's records must reach. -/
def effectiveLevel (s : State) (logger : String) : Int :=
  if s.inPackage logger then s.packageLevel.getD s.rootLevel else s.rootLevel

/-- Whether a record is passed on to handlers: by an earlier verdict or else by its level. -/
def passes (s : State) (r : Record) : Bool :=
  (s.verdicts.lookup (r.logger, r.level)).getD (s.effectiveLevel r.logger ≤ r.level)

/-- The handlers that a logger's records meet, each with the way in which it writes. -/
def handlersOf (s : State) (logger : String) : List (Delivery × Handler) :=
  (if s.inPackage logger then s.console.map (.console, ·) else []) ++ s.root.map (.file, ·)

/-- The ways in which a record is written. -/
def deliveries (s : State) (r : Record) : List Delivery :=
  if s.passes r then
    match s.handlersOf r.logger with
    | [] => if warning ≤ r.level then [.bare] else []
    | handlers => (handlers.filter fun h => h.2.level ≤ r.level).map Prod.fst
  else []

/-- The entry that a record makes on the console, for one way of writing it. -/
def consoleForm? (r : Record) : Delivery → Option String
  | .console => some r.consoleForm
  | .bare => some r.message
  | .file => none

/-- The entry that a record makes in the file, for one way of writing it. -/
def fileForm? (r : Record) : Delivery → Option String
  | .file => some r.fileForm
  | _ => none

/-- The state after a record is written, and its entries on the console. -/
def write (s : State) (r : Record) : State × List String :=
  let s := { s with loggers := s.loggers.use r.logger }
  let ways := s.deliveries r
  ({ s with
      file := s.file ++ ways.filterMap (fileForm? r)
      verdicts := ((r.logger, r.level), s.passes r) :: s.verdicts },
    ways.filterMap (consoleForm? r))

/-- The state after some records are written, and their entries on the console. -/
def writeAll (s : State) : List Record → State × List String
  | [] => (s, [])
  | r :: rest =>
    let (s, entries) := s.write r
    let (s, more) := s.writeAll rest
    (s, entries ++ more)

/-- Opens the log file, unless the root logger has a handler. -/
def openFile (s : State) : State :=
  if s.root = [] then
    { s with
      root := [⟨s.nextId, 0⟩], nextId := s.nextId + 1, rootLevel := info, file := [], verdicts := [] }
  else s

/-- Installs a handler for the console, unless the remembered one is installed. -/
def ensureConsole (s : State) : State :=
  if s.console.any fun h => some h.id = s.remembered then s
  else { s with
    console := s.console ++ [⟨s.nextId, 0⟩], remembered := some s.nextId, nextId := s.nextId + 1 }

/-- Gives the remembered handler a level. -/
def setConsoleLevel (level : Int) (s : State) : State :=
  { s with console := s.console.map fun h =>
      if some h.id = s.remembered then { h with level := level } else h }

/-- What is said when records for diagnosis are turned on. -/
def verboseRecord : Record := ⟨package, debug, "Debug logging enabled."⟩

/-- Configures logging, and gives the entries on the console. -/
def configure (s : State) (verbose toFile : Bool) : State × List String :=
  let s := if toFile then s.openFile else s
  let s := s.ensureConsole.setConsoleLevel (if verbose then debug else info)
  if verbose then { s with packageLevel := some debug, verdicts := [] }.write verboseRecord
  else (s, [])

end State

end CodeMap.Journal

/-! ### Lines

A text is cut at its line breaks, a carriage return and the line feed behind it being one of them.
There is no empty line behind a break at the end. -/

namespace CodeMap.Text

def isLineBreak (c : Char) : Bool :=
  ['\n', '\r', '\x0b', '\x0c', '\x1c', '\x1d', '\x1e', '\x85', '\u2028', '\u2029'].contains c

/-- The lines of a text that goes on a line with the characters `start`, in reverse. -/
def linesFrom (start : List Char) : List Char → List (List Char)
  | [] => if start = [] then [] else [start.reverse]
  | '\r' :: '\n' :: rest => start.reverse :: linesFrom [] rest
  | c :: rest =>
    if isLineBreak c then start.reverse :: linesFrom [] rest else linesFrom (c :: start) rest

def lines (cs : List Char) : List (List Char) := linesFrom [] cs

end CodeMap.Text

namespace CodeMap.Journal

/-- The lines of some entries, each of which ends its last line. -/
def lines (entries : List String) : List String :=
  (Text.lines (entries.flatMap fun e => e.toList ++ ['\n'])).map String.ofList

end CodeMap.Journal
