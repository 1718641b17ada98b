import CodeMap.Journal.Activity
import Mathlib.Data.List.Basic

/-! # Levels and handlers after a run

The levels and handlers of a state depend on nothing but the configurations so far
(`settings_performAll`): the level of the console handler on the last one, the level of the package
logger on whether any was verbose, the root logger on whether any asked for a file. What holds along
a run is an `Invariant`; the one behind this statement is `Configured`. -/

namespace CodeMap.Journal

structure Call where
  verbose : Bool
  toFile : Bool
  deriving DecidableEq, Repr

/-- The level that a configuration gives to the console handler. -/
def Call.consoleLevel (c : Call) : Int := if c.verbose then debug else info

namespace Activity

/-- The configuration that an activity is, if it is one. -/
def call? : Activity → Option Call
  | .configure verbose toFile => some ⟨verbose, toFile⟩
  | _ => none

/-- The records that an activity makes, one of which tells of a verbose configuration. -/
def records : Activity → List Record
  | .configure verbose _ => if verbose then [State.verboseRecord] else []
  | activity => activity.run.2

end Activity

def calls (activities : List Activity) : List Call := activities.filterMap Activity.call?

theorem calls_cons (a : Activity) (as : List Activity) :
    calls (a :: as) = a.call?.toList ++ calls as := by
  cases h : a.call? <;> simp [calls, h]

theorem calls_append_singleton (as : List Activity) (a : Activity) :
    calls (as ++ [a]) = calls as ++ a.call?.toList := by
  rw [calls, List.filterMap_append]
  cases h : a.call? <;> simp [calls, h]

/-- The levels and handlers of the package logger and the root logger. -/
structure Settings where
  consoleLevels : List Int
  packageLevel : Option Int
  rootLevel : Int
  rootHandlers : Nat
  deriving DecidableEq, Repr

def settingsAfter (cs : List Call) : Settings where
  consoleLevels := (cs.getLast?.map Call.consoleLevel).toList
  packageLevel := if cs.any Call.verbose then some debug else none
  rootLevel := if cs.any Call.toFile then info else warning
  rootHandlers := if cs.any Call.toFile then 1 else 0

namespace State

def settings (s : State) : Settings where
  consoleLevels := s.console.map Handler.level
  packageLevel := s.packageLevel
  rootLevel := s.rootLevel
  rootHandlers := s.root.length

def performAll (s : State) (activities : List Activity) : State :=
  activities.foldl (fun s a => (s.perform a).1) s

/-- The state after a configuration, before it is told of. -/
def configured (s : State) (c : Call) : State :=
  let s := if c.toFile then s.openFile else s
  let s := s.ensureConsole.setConsoleLevel c.consoleLevel
  if c.verbose then { s with packageLevel := some debug, verdicts := [] } else s

/-- The state in which the records of an activity are written. -/
def prepared (s : State) (a : Activity) : State := a.call?.elim s s.configured

/-- An activity changes the configuration, if at all, and then writes its records. -/
theorem perform_eq (s : State) (a : Activity) :
    (s.perform a).1 = ((s.prepared a).writeAll a.records).1 ∧
      (s.perform a).2.2 = ((s.prepared a).writeAll a.records).2 := by
  cases a with
  | configure verbose toFile =>
    cases verbose
    · exact ⟨rfl, rfl⟩
    · exact ⟨rfl, (List.append_nil _).symm⟩
  | _ => exact ⟨rfl, rfl⟩

section
variable (s : State) (r : Record) (rs : List Record)

@[simp] theorem settings_write : (s.write r).1.settings = s.settings := rfl

@[simp] theorem settings_writeAll : (s.writeAll rs).1.settings = s.settings := by
  induction rs generalizing s with
  | nil => rfl
  | cons r rs ih => exact (ih (s.write r).1).trans (settings_write s r)

end

theorem settings_perform_of_call? {a : Activity} (h : a.call? = none) (s : State) :
    (s.perform a).1.settings = s.settings := by
  rw [(s.perform_eq a).1, settings_writeAll, prepared, h]
  rfl

end State

/-! ### Invariants of a run -/

/-- A property of states, by the configurations that led to them, that records and configurations
keep. -/
structure Invariant (P : List Call → State → Prop) : Prop where
  write : ∀ {cs : List Call} {s : State}, P cs s → ∀ r, P cs (s.write r).1
  configured : ∀ {cs : List Call} {s : State}, P cs s → ∀ c, P (cs ++ [c]) (s.configured c)

namespace Invariant
variable {P : List Call → State → Prop} {cs : List Call} {s : State}

theorem writeAll (hP : Invariant P) (h : P cs s) (rs : List Record) : P cs (s.writeAll rs).1 := by
  induction rs generalizing s with
  | nil => exact h
  | cons r rs ih =>
    show P cs ((s.write r).1.writeAll rs).1
    exact ih (hP.write h r)

theorem prepared (hP : Invariant P) (h : P cs s) (a : Activity) :
    P (cs ++ a.call?.toList) (s.prepared a) := by
  rw [State.prepared]
  cases a.call? with
  | none => rwa [Option.toList_none, List.append_nil]
  | some c => exact hP.configured h c

theorem perform (hP : Invariant P) (h : P cs s) (a : Activity) :
    P (cs ++ a.call?.toList) (s.perform a).1 := by
  rw [(s.perform_eq a).1]
  exact hP.writeAll (hP.prepared h a) a.records

theorem performAll (hP : Invariant P) (h : P cs s) (as : List Activity) :
    P (cs ++ calls as) (s.performAll as) := by
  induction as generalizing cs s with
  | nil => rwa [calls, List.filterMap_nil, List.append_nil]
  | cons a as ih =>
    rw [calls_cons, ← List.append_assoc]
    exact ih (hP.perform h a)

end Invariant

/-- The settings are those after the given configurations, and the console handler is remembered. -/
structure Configured (cs : List Call) (s : State) : Prop where
  settings : s.settings = settingsAfter cs
  remembered : ∀ h ∈ s.console, s.remembered = some h.id

namespace Configured
variable {cs : List Call} {s : State}

theorem initial (remembered : Option Nat) : Configured [] (State.initial remembered) :=
  ⟨rfl, nofun⟩

theorem console_eq (h : Configured cs s) :
    s.console.map Handler.level = (cs.getLast?.map Call.consoleLevel).toList :=
  congrArg Settings.consoleLevels h.settings

theorem packageLevel_eq (h : Configured cs s) :
    s.packageLevel = if cs.any Call.verbose then some debug else none :=
  congrArg Settings.packageLevel h.settings

theorem rootLevel_eq (h : Configured cs s) :
    s.rootLevel = if cs.any Call.toFile then info else warning :=
  congrArg Settings.rootLevel h.settings

theorem length_root (h : Configured cs s) :
    s.root.length = if cs.any Call.toFile then 1 else 0 :=
  congrArg Settings.rootHandlers h.settings

theorem root_eq_nil_iff (h : Configured cs s) : s.root = [] ↔ cs.any Call.toFile = false := by
  rw [← List.length_eq_zero_iff, h.length_root]
  cases cs.any Call.toFile <;> simp

theorem length_console_le (h : Configured cs s) : s.console.length ≤ 1 := by
  rw [← List.length_map (f := Handler.level), h.console_eq]
  cases cs.getLast?.map Call.consoleLevel <;> simp

end Configured

namespace State
variable {s : State}

/-- There is one console handler afterwards, and it is remembered, whatever was remembered before. -/
theorem setConsoleLevel_eq (hlength : s.console.length ≤ 1)
    (hremembered : ∀ h ∈ s.console, s.remembered = some h.id) (level : Int) :
    ∃ id next, s.ensureConsole.setConsoleLevel level =
      { s with console := [⟨id, level⟩], remembered := some id, nextId := next } := by
  match hconsole : s.console with
  | [] => exact ⟨s.nextId, s.nextId + 1, by simp [ensureConsole, setConsoleLevel, hconsole]⟩
  | [handler] =>
    have heq := hremembered handler (hconsole ▸ List.mem_cons_self)
    exact ⟨handler.id, s.nextId, by simp [ensureConsole, setConsoleLevel, hconsole, heq]⟩
  | _ :: _ :: _ =>
    rw [hconsole] at hlength
    simp at hlength

def opens (s : State) (c : Call) : Bool := c.toFile && decide (s.root = [])

theorem openFile_eq (s : State) (c : Call) : (if c.toFile then s.openFile else s) =
    if s.opens c then
      { s with
        root := [⟨s.nextId, 0⟩], nextId := s.nextId + 1, rootLevel := info, file := [], verdicts := [] }
    else s := by
  unfold opens openFile
  cases c.toFile
  · rfl
  · by_cases hroot : s.root = [] <;> simp [hroot]

theorem configured_eq (hlength : s.console.length ≤ 1)
    (hremembered : ∀ h ∈ s.console, s.remembered = some h.id) (c : Call) :
    ∃ id next, s.configured c =
      { loggers := s.loggers
        console := [⟨id, c.consoleLevel⟩]
        remembered := some id
        nextId := next
        packageLevel := if c.verbose then some debug else s.packageLevel
        rootLevel := if s.opens c then info else s.rootLevel
        root := if s.opens c then [⟨s.nextId, 0⟩] else s.root
        file := if s.opens c then [] else s.file
        verdicts := if s.opens c || c.verbose then [] else s.verdicts } := by
  rw [configured, openFile_eq]
  cases hopens : s.opens c
  · obtain ⟨id, next, heq⟩ := setConsoleLevel_eq hlength hremembered c.consoleLevel
    refine ⟨id, next, ?_⟩
    rw [if_neg Bool.false_ne_true, heq]
    cases c.verbose <;> rfl
  · -- the file is opened first: the rest is done to the state with the new root handler
    set t : State := { s with
      root := [⟨s.nextId, 0⟩], nextId := s.nextId + 1, rootLevel := info, file := [], verdicts := [] }
    obtain ⟨id, next, heq⟩ := setConsoleLevel_eq (s := t) hlength hremembered c.consoleLevel
    refine ⟨id, next, ?_⟩
    rw [if_pos rfl, heq]
    cases c.verbose <;> rfl

end State

namespace Configured
variable {cs : List Call} {s : State}

theorem opens_eq (h : Configured cs s) (c : Call) :
    s.opens c = (c.toFile && !cs.any Call.toFile) := by
  by_cases hroot : s.root = []
  · rw [State.opens, decide_eq_true hroot, h.root_eq_nil_iff.1 hroot]
    rfl
  · have hany : cs.any Call.toFile = true :=
      eq_true_of_ne_false (mt h.root_eq_nil_iff.2 hroot)
    rw [State.opens, decide_eq_false hroot, hany]
    rfl

theorem configured (h : Configured cs s) (c : Call) : Configured (cs ++ [c]) (s.configured c) := by
  obtain ⟨id, next, heq⟩ := State.configured_eq h.length_console_le h.remembered c
  have hopens := h.opens_eq c
  have hpackage := h.packageLevel_eq
  have hlevel := h.rootLevel_eq
  have hlength := h.length_root
  rw [heq]
  refine ⟨?_, fun handler hhandler => ?_⟩
  · simp only [State.settings, settingsAfter, hopens, hpackage, hlevel, List.any_append, List.any_cons,
      List.any_nil, Bool.or_false, List.getLast?_concat, apply_ite List.length, hlength]
    cases c.toFile <;> cases cs.any Call.toFile <;> cases c.verbose <;> simp
  · obtain rfl := List.mem_singleton.1 hhandler
    rfl

theorem invariant : Invariant Configured where
  write h _ := ⟨h.settings, h.remembered⟩
  configured h c := h.configured c

end Configured

/-- After any run, whichever handler was remembered before it, the levels and handlers are those that
its configurations lead to: no console handler before the first of them and one from then on, at the
level of the last one; a level of the package logger's own just if one was verbose; a handler and a
lower level of the root logger just if one asked for a file. No other activity changes any of this,
in whatever state. -/
theorem settings_performAll (remembered : Option Nat) (as : List Activity) :
    ((State.initial remembered).performAll as).settings =
      { consoleLevels := ((calls as).getLast?.map fun c => if c.verbose then debug else info).toList
        packageLevel := if (calls as).any Call.verbose then some debug else none
        rootLevel := if (calls as).any Call.toFile then info else warning
        rootHandlers := if (calls as).any Call.toFile then 1 else 0 } ∧
    ∀ (s : State) (a : Activity), a.call? = none → (s.perform a).1.settings = s.settings :=
  ⟨(Configured.invariant.performAll (Configured.initial remembered) as).settings,
    fun s _ h => s.settings_perform_of_call? h⟩

theorem settings_performAll_quiet_after_verbose :
    ((State.initial (some 7)).performAll
        [.configure true false, .emit ⟨"other", warning, "m"⟩, .configure false true]).settings =
      ⟨[info], some debug, info, 1⟩ ∧
    ∀ s : State, (s.perform (.emit ⟨"other", warning, "m"⟩)).1.settings = s.settings :=
  ⟨(settings_performAll (some 7) _).1, fun s => (settings_performAll none []).2 s _ rfl⟩

end CodeMap.Journal
