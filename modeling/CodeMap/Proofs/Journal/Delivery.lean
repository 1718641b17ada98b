import CodeMap.Proofs.Journal.Ancestry
import CodeMap.Proofs.Journal.Settings

/-! # Where records are written

Every record of a run is written once to the file and once to the console, or to one of them or to
neither, by rules that look at the configurations so far and at the name of its logger
(`fileEntries`, `consoleEntries`). A name that is `Ambiguous` does not tell where its logger is; even
then nothing is written twice. The main statement is `performAll_writes_once`. -/

namespace CodeMap.Journal

/-! ### The rules -/

/-- The level that records of a logger must reach after some configurations: a low one within the
package if one of them was verbose, and else the root logger's. -/
def levelAfter (cs : List Call) (logger : String) : Int :=
  if Within logger ∧ cs.any Call.verbose then debug
  else if cs.any Call.toFile then info else warning

def fileEntries (cs : List Call) (r : Record) : List String :=
  if levelAfter cs r.logger ≤ r.level ∧ cs.any Call.toFile then [r.fileForm] else []

/-- The entries of a record on the console: with its level if a configuration has given the package
a handler and the record is the package's, and bare for warnings that meet no handler. -/
def consoleEntries (cs : List Call) (r : Record) : List String :=
  if levelAfter cs r.logger ≤ r.level then
    match if Within r.logger then cs.getLast? else none with
    | some c => if c.consoleLevel ≤ r.level then [r.consoleForm] else []
    | none => if cs.any Call.toFile = false ∧ warning ≤ r.level then [r.message] else []
  else []

theorem debug_le_levelAfter (cs : List Call) (logger : String) : debug ≤ levelAfter cs logger := by
  unfold levelAfter
  split_ifs <;> decide

/-! ### States in a run -/

/-- A state that some configurations lead to. -/
structure Kept (cs : List Call) (s : State) : Prop extends Configured cs s where
  linked : s.loggers.Linked
  rootLevels : ∀ h ∈ s.root, h.level = 0
  file : s.root = [] → s.file = []
  verdicts : ∀ v ∈ s.verdicts, ¬ Ambiguous v.1.1 → v.2 = decide (levelAfter cs v.1.1 ≤ v.1.2)

namespace State

/-- The state in which a record has come to its logger. -/
def given (s : State) (r : Record) : State := { s with loggers := s.loggers.use r.logger }

theorem write_eq (s : State) (r : Record) : s.write r =
    ({ s.given r with
        file := s.file ++ ((s.given r).deliveries r).filterMap (fileForm? r)
        verdicts := ((r.logger, r.level), (s.given r).passes r) :: s.verdicts },
      ((s.given r).deliveries r).filterMap (consoleForm? r)) :=
  rfl

end State

namespace Kept
variable {cs : List Call} {s : State} {r : Record}

theorem initial (remembered : Option Nat) : Kept [] (State.initial remembered) :=
  ⟨Configured.initial remembered, Tree.linked_initial, nofun, fun _ => rfl, nofun⟩

theorem given (h : Kept cs s) (r : Record) : Kept cs (s.given r) :=
  ⟨⟨h.settings, h.remembered⟩, h.linked.use r.logger, h.rootLevels, h.file, h.verdicts⟩

theorem inPackage_given (h : Kept cs s) (hclear : ¬ Ambiguous r.logger) :
    (s.given r).inPackage r.logger = decide (Within r.logger) :=
  h.linked.isBelow_use hclear

theorem effectiveLevel_given (h : Kept cs s) (hclear : ¬ Ambiguous r.logger) :
    (s.given r).effectiveLevel r.logger = levelAfter cs r.logger := by
  have hpackage : (s.given r).packageLevel = _ := h.packageLevel_eq
  have hroot : (s.given r).rootLevel = _ := h.rootLevel_eq
  rw [State.effectiveLevel, h.inPackage_given hclear, hpackage, hroot, levelAfter]
  by_cases hwithin : Within r.logger <;> cases cs.any Call.verbose <;> simp [hwithin]

theorem passes_given (h : Kept cs s) (hclear : ¬ Ambiguous r.logger) :
    (s.given r).passes r = decide (levelAfter cs r.logger ≤ r.level) := by
  rw [State.passes, h.effectiveLevel_given hclear]
  cases hlookup : (s.given r).verdicts.lookup (r.logger, r.level) with
  | none => rfl
  | some verdict =>
    -- an answer given before is still right: it is dropped when a level changes
    obtain ⟨front, back, hsplit, -⟩ := List.lookup_eq_some_iff.1 hlookup
    exact h.verdicts ((r.logger, r.level), verdict)
      (hsplit ▸ List.mem_append_right front List.mem_cons_self) hclear

theorem console_cases (h : Kept cs s) : cs.getLast? = none ∧ s.console = [] ∨
    ∃ c handler, cs.getLast? = some c ∧ s.console = [handler] ∧ handler.level = c.consoleLevel := by
  have hlevels := h.console_eq
  cases hlast : cs.getLast? with
  | none =>
    rw [hlast] at hlevels
    exact .inl ⟨rfl, List.map_eq_nil_iff.1 hlevels⟩
  | some c =>
    rw [hlast] at hlevels
    obtain ⟨handler, hhandler, hlevel⟩ := List.map_eq_singleton_iff.1 hlevels
    exact .inr ⟨c, handler, rfl, hhandler, hlevel⟩

theorem root_cases (h : Kept cs s) : cs.any Call.toFile = false ∧ s.root = [] ∨
    ∃ handler, cs.any Call.toFile = true ∧ s.root = [handler] ∧ handler.level = 0 := by
  have hlength := h.length_root
  cases hfile : cs.any Call.toFile with
  | false => exact .inl ⟨rfl, h.root_eq_nil_iff.2 hfile⟩
  | true =>
    rw [hfile] at hlength
    obtain ⟨handler, hhandler⟩ := List.length_eq_one_iff.1 hlength
    exact .inr ⟨handler, rfl, hhandler, h.rootLevels handler (hhandler ▸ List.mem_cons_self)⟩

end Kept

/-! ### One record -/

namespace State
variable (s : State) (r : Record)

/-- The handlers for the console that a logger's records meet. -/
def consoleOf (s : State) (logger : String) : List Handler :=
  if s.inPackage logger then s.console else []

theorem handlersOf_eq_nil_iff (logger : String) :
    s.handlersOf logger = [] ↔ s.consoleOf logger = [] ∧ s.root = [] := by
  rw [handlersOf, consoleOf]
  split <;> simp

theorem filterMap_handlersOf (logger : String) (level : Int) (form : Delivery → Option String) :
    (((s.handlersOf logger).filter fun h => h.2.level ≤ level).map Prod.fst).filterMap form =
      ((s.consoleOf logger).filter fun h => h.level ≤ level).filterMap (fun _ => form .console) ++
        (s.root.filter fun h => h.level ≤ level).filterMap fun _ => form .file := by
  have hways : ∀ (d : Delivery) (handlers : List Handler),
      (((handlers.map (d, ·)).filter fun h => h.2.level ≤ level).map Prod.fst).filterMap form =
        (handlers.filter fun h => h.level ≤ level).filterMap fun _ => form d := by
    intro d handlers
    rw [List.filter_map, List.map_map, List.filterMap_map]
    rfl
  have hconsole : (if s.inPackage logger then s.console.map (Delivery.console, ·) else []) =
      (s.consoleOf logger).map (Delivery.console, ·) := by
    rw [consoleOf]
    split <;> rfl
  rw [handlersOf, hconsole, List.filter_append, List.map_append, List.filterMap_append, hways, hways]

theorem deliveries_of_passes {r : Record} (h : s.passes r = true) : s.deliveries r =
    if s.handlersOf r.logger = [] then if warning ≤ r.level then [.bare] else []
    else ((s.handlersOf r.logger).filter fun h => h.2.level ≤ r.level).map Prod.fst := by
  rw [deliveries, if_pos h]
  cases s.handlersOf r.logger <;> rfl

/-- The file has an entry for every handler of the root logger. -/
theorem file_deliveries : (s.deliveries r).filterMap (fileForm? r) =
    if s.passes r then (s.root.filter fun h => h.level ≤ r.level).map fun _ => r.fileForm else [] := by
  cases hpasses : s.passes r
  · rw [deliveries, hpasses]
    rfl
  rw [s.deliveries_of_passes hpasses, if_pos rfl]
  split
  · rename_i hnone
    rw [((s.handlersOf_eq_nil_iff _).1 hnone).2]
    split <;> rfl
  · rw [filterMap_handlersOf]
    simp [fileForm?]

/-- The console has an entry for every handler of the package logger, if the record is below it; a
warning without any handler has one as well. -/
theorem console_deliveries : (s.deliveries r).filterMap (consoleForm? r) =
    if s.passes r then
      if s.handlersOf r.logger = [] then if warning ≤ r.level then [r.message] else []
      else ((s.consoleOf r.logger).filter fun h => h.level ≤ r.level).map fun _ => r.consoleForm
    else [] := by
  cases hpasses : s.passes r
  · rw [deliveries, hpasses]
    rfl
  rw [s.deliveries_of_passes hpasses, if_pos rfl]
  split
  · split <;> rfl
  · rw [filterMap_handlersOf]
    simp [consoleForm?]

end State

namespace Kept
variable {cs : List Call} {s : State} {r : Record}

theorem consoleOf_given (h : Kept cs s) (hclear : ¬ Ambiguous r.logger) :
    (s.given r).consoleOf r.logger = if Within r.logger then s.console else [] := by
  rw [State.consoleOf, h.inPackage_given hclear]
  by_cases hwithin : Within r.logger <;> simp [hwithin, State.given]

theorem file_given (h : Kept cs s) (hclear : ¬ Ambiguous r.logger) :
    ((s.given r).deliveries r).filterMap (State.fileForm? r) = fileEntries cs r := by
  rw [State.file_deliveries, h.passes_given hclear, fileEntries]
  by_cases hlevel : levelAfter cs r.logger ≤ r.level
  swap
  · rw [decide_eq_false hlevel, if_neg Bool.false_ne_true, if_neg (fun hboth => hlevel hboth.1)]
  have hzero : (0 : Int) ≤ r.level := by
    have := debug_le_levelAfter cs r.logger
    unfold debug at this
    omega
  have hroot : (s.given r).root = s.root := rfl
  rw [decide_eq_true hlevel, if_pos rfl, hroot]
  rcases h.root_cases with ⟨hfile, hroot⟩ | ⟨handler, hfile, hroot, hlevel'⟩
  · rw [hfile, hroot, if_neg (fun hboth => Bool.false_ne_true hboth.2)]
    rfl
  · rw [hfile, hroot, if_pos ⟨hlevel, rfl⟩, List.filter_singleton]
    simp [hlevel', hzero]

theorem console_given (h : Kept cs s) (hclear : ¬ Ambiguous r.logger) :
    ((s.given r).deliveries r).filterMap (State.consoleForm? r) = consoleEntries cs r := by
  have hroot : (s.given r).root = s.root := rfl
  rw [State.console_deliveries, h.passes_given hclear, consoleEntries]
  by_cases hlevel : levelAfter cs r.logger ≤ r.level
  swap
  · rw [decide_eq_false hlevel, if_neg Bool.false_ne_true, if_neg hlevel]
  rw [decide_eq_true hlevel, if_pos rfl, if_pos hlevel]
  simp only [State.handlersOf_eq_nil_iff, h.consoleOf_given hclear, hroot, h.root_eq_nil_iff]
  rcases h.console_cases with ⟨hlast, hconsole⟩ | ⟨c, handler, hlast, hconsole, hhandler⟩
  · simp only [hlast, hconsole, ite_self, true_and, List.filter_nil, List.map_nil, ite_and]
  by_cases hwithin : Within r.logger
  · simp only [hwithin, hlast, hconsole, if_true, List.cons_ne_nil, false_and, if_false]
    by_cases hreaches : c.consoleLevel ≤ r.level <;> simp [hhandler, hreaches]
  · simp only [hwithin, if_false, true_and, List.filter_nil, List.map_nil, ite_and]

theorem write (h : Kept cs s) (r : Record) : Kept cs (s.write r).1 := by
  refine ⟨⟨h.settings, h.remembered⟩, h.linked.use r.logger, h.rootLevels, ?_, ?_⟩
  · intro hroot
    show s.file ++ ((s.given r).deliveries r).filterMap (State.fileForm? r) = []
    have hroot' : (s.given r).root = [] := hroot
    rw [State.file_deliveries, h.file hroot, hroot']
    exact ite_self _
  · intro v hv hclear
    rcases List.mem_cons.1 hv with rfl | hv
    · exact h.passes_given hclear
    · exact h.verdicts v hv hclear

theorem length_root_le (h : Kept cs s) : s.root.length ≤ 1 := by
  rw [h.length_root]
  split <;> decide

/-- A record makes at most one entry in each place, wherever its logger is. -/
theorem write_once (h : Kept cs s) (r : Record) :
    (∃ entries, (s.write r).1.file = s.file ++ entries ∧ entries.Sublist [r.fileForm] ∧
      (cs.any Call.toFile = false → entries = [])) ∧ (s.write r).2.length ≤ 1 := by
  have hfile := (s.given r).file_deliveries r
  have hconsole := (s.given r).console_deliveries r
  rw [State.write_eq]
  refine ⟨⟨_, rfl, ?_, fun hnone => ?_⟩, ?_⟩
  · rw [hfile]
    split
    · have hlength : ((s.given r).root.filter fun h => h.level ≤ r.level).length ≤ 1 :=
        Nat.le_trans (List.length_filter_le _ _) h.length_root_le
      rw [List.map_const']
      exact (List.replicate_sublist_replicate _).2 hlength
    · exact List.nil_sublist _
  · have hroot : (s.given r).root = [] := h.root_eq_nil_iff.2 hnone
    rw [hfile, hroot]
    exact ite_self _
  · show (((s.given r).deliveries r).filterMap (State.consoleForm? r)).length ≤ 1
    have hlength : ((s.given r).consoleOf r.logger).length ≤ 1 := by
      rw [State.consoleOf]
      split
      · exact h.length_console_le
      · exact Nat.zero_le 1
    rw [hconsole]
    split_ifs
    · exact Nat.le_refl 1
    · exact Nat.zero_le 1
    · rw [List.length_map]
      exact Nat.le_trans (List.length_filter_le _ _) hlength
    · exact Nat.zero_le 1

end Kept

/-! ### A run -/

theorem levelAfter_append {cs : List Call} {c : Call} (hverbose : c.verbose = false)
    (hopens : (c.toFile && !cs.any Call.toFile) = false) (logger : String) :
    levelAfter (cs ++ [c]) logger = levelAfter cs logger := by
  have hfile : (cs ++ [c]).any Call.toFile = cs.any Call.toFile := by
    rw [List.any_append, List.any_cons, List.any_nil, Bool.or_false]
    cases hany : cs.any Call.toFile
    · rw [hany, Bool.not_false, Bool.and_true] at hopens
      rw [hopens]
      rfl
    · rfl
  have hverbose' : (cs ++ [c]).any Call.verbose = cs.any Call.verbose := by
    rw [List.any_append, List.any_cons, List.any_nil, hverbose, Bool.or_false, Bool.or_false]
  rw [levelAfter, levelAfter, hfile, hverbose']

namespace Kept
variable {cs : List Call} {s : State}

/-- A configuration leaves the file as it is: it is empty when it is opened. -/
theorem file_configured (h : Kept cs s) (c : Call) : (s.configured c).file = s.file := by
  obtain ⟨id, next, heq⟩ := State.configured_eq h.length_console_le h.remembered c
  rw [heq]
  show (if s.opens c then [] else s.file) = s.file
  split
  · rename_i hopens
    have hroot : s.root = [] := by simpa using (Bool.and_eq_true_iff.1 hopens).2
    rw [h.file hroot]
  · rfl

theorem configured (h : Kept cs s) (c : Call) : Kept (cs ++ [c]) (s.configured c) := by
  have hfile := h.file_configured c
  have hconfigured := h.toConfigured.configured c
  have hopens := h.opens_eq c
  obtain ⟨id, next, heq⟩ := State.configured_eq h.length_console_le h.remembered c
  rw [heq] at hfile hconfigured ⊢
  refine ⟨hconfigured, h.linked, ?_, ?_, ?_⟩
  · intro handler hhandler
    have hmem : handler ∈ if s.opens c then [⟨s.nextId, 0⟩] else s.root := hhandler
    split at hmem
    · rw [List.mem_singleton.1 hmem]
    · exact h.rootLevels handler hmem
  · intro hroot
    have hnil : (if s.opens c then [⟨s.nextId, 0⟩] else s.root) = [] := hroot
    rw [hfile]
    split at hnil
    · cases hnil
    · exact h.file hnil
  · intro v hv hclear
    have hmem : v ∈ if s.opens c || c.verbose then [] else s.verdicts := hv
    split at hmem
    · cases hmem
    · -- the verdicts are kept only if no level changes
      rename_i hkept
      obtain ⟨hopen, hverbose⟩ := Bool.or_eq_false_iff.1 (eq_false_of_ne_true hkept)
      rw [levelAfter_append hverbose (hopens ▸ hopen)]
      exact h.verdicts v hmem hclear

theorem file_prepared (h : Kept cs s) (a : Activity) : (s.prepared a).file = s.file := by
  rw [State.prepared]
  cases a.call? with
  | none => rfl
  | some c => exact h.file_configured c

theorem invariant : Invariant Kept where
  write h r := h.write r
  configured h c := h.configured c

theorem writeAll_once (h : Kept cs s) (rs : List Record) :
    (∃ entries, (s.writeAll rs).1.file = s.file ++ entries ∧
      entries.Sublist (rs.map Record.fileForm) ∧ (cs.any Call.toFile = false → entries = [])) ∧
    (s.writeAll rs).2.length ≤ rs.length := by
  induction rs generalizing s with
  | nil => exact ⟨⟨[], (List.append_nil _).symm, List.nil_sublist _, fun _ => rfl⟩, Nat.le_refl 0⟩
  | cons r rs ih =>
    obtain ⟨⟨entries, hfile, hsub, hnone⟩, hlength⟩ := h.write_once r
    obtain ⟨⟨more, hfile', hsub', hnone'⟩, hlength'⟩ := ih (h.write r)
    refine ⟨⟨entries ++ more, ?_, hsub.append hsub', fun hcs => ?_⟩, ?_⟩
    · rw [← List.append_assoc, ← hfile]
      exact hfile'
    · rw [hnone hcs, hnone' hcs]
      rfl
    · show ((s.write r).2 ++ ((s.write r).1.writeAll rs).2).length ≤ rs.length + 1
      rw [List.length_append]
      omega

theorem writeAll_eq (h : Kept cs s) {rs : List Record} (hclear : ∀ r ∈ rs, ¬ Ambiguous r.logger) :
    (s.writeAll rs).1.file = s.file ++ rs.flatMap (fileEntries cs) ∧
      (s.writeAll rs).2 = rs.flatMap (consoleEntries cs) := by
  induction rs generalizing s with
  | nil => exact ⟨(List.append_nil _).symm, rfl⟩
  | cons r rs ih =>
    obtain ⟨hr, hrs⟩ := List.forall_mem_cons.1 hclear
    obtain ⟨hfile, hconsole⟩ := ih (h.write r) hrs
    have hfirst : (s.write r).1.file = s.file ++ fileEntries cs r := by
      rw [← h.file_given hr]
      rfl
    have hfirst' : (s.write r).2 = consoleEntries cs r := by
      rw [← h.console_given hr]
      rfl
    rw [List.flatMap_cons, List.flatMap_cons, ← List.append_assoc, ← hfirst, ← hfirst', ← hconsole]
    exact ⟨hfile, rfl⟩

end Kept

/-- Every record but one from outside comes from a logger of the package. -/
theorem Activity.logger_of_mem_records {a : Activity} {r : Record} (hr : r ∈ a.records) :
    r.logger ∈ packageLoggers ∨ a = .emit r := by
  cases a with
  | configure verbose toFile =>
    cases verbose
    · cases hr
    · obtain rfl := List.mem_singleton.1 hr
      exact .inl (by decide)
  | emit record =>
    obtain rfl := List.mem_singleton.1 hr
    exact .inr rfl
  | load text =>
    simp only [records, run] at hr
    split at hr
    · cases hr
    · obtain rfl := List.mem_singleton.1 hr
      exact .inl (by simp [builtRecord, packageLoggers])
  | locate text line column =>
    simp only [records, run] at hr
    split at hr
    · cases hr
    · rcases List.mem_cons.1 hr with rfl | hr
      · exact .inl (by simp [builtRecord, packageLoggers])
      · split at hr
        · obtain rfl := List.mem_singleton.1 hr
          exact .inl (by simp [notFoundRecord, packageLoggers])
        · cases hr
  | message label args raw =>
    simp only [records, run] at hr
    split at hr
    · obtain ⟨name, -, rfl⟩ := Option.map_eq_some_iff.1 (Option.mem_toList.1 hr)
      exact .inl (by simp [missingRecord, packageLoggers])
    · cases hr

theorem Activity.not_ambiguous_of_mem_records {a : Activity}
    (h : ∀ r, a = .emit r → ¬ Ambiguous r.logger) : ∀ r ∈ a.records, ¬ Ambiguous r.logger := by
  intro r hr
  have hpackage : ∀ name ∈ packageLoggers, ¬ Ambiguous name := by decide
  rcases logger_of_mem_records hr with hlogger | ha
  · exact hpackage r.logger hlogger
  · exact h r ha

/-- Whatever was configured, used and written before, a step only adds to the file, at most one entry
for each of its records there and on the console, and none to the file that no configuration, this
step's included, has asked for. Which entries these are is known of every record that the step makes,
the records of the package itself and those of any logger whose name is not ambiguous: just the ones
that the rules give, in the order of the records. The integers of a query are those that have a
record (`Activity.locate`). -/
theorem performAll_writes_once (remembered : Option Nat) (as : List Activity) (a : Activity) :
    let s := (State.initial remembered).performAll as
    let cs := calls (as ++ [a])
    (∃ entries, (s.perform a).1.file = s.file ++ entries ∧
      entries.Sublist (a.records.map Record.fileForm) ∧
      (cs.any Call.toFile = false → entries = [])) ∧
    (s.perform a).2.2.length ≤ a.records.length ∧
    ((∀ r, a = .emit r → ¬ Ambiguous r.logger) →
      (s.perform a).1.file = s.file ++ a.records.flatMap (fileEntries cs) ∧
      (s.perform a).2.2 = a.records.flatMap (consoleEntries cs)) := by
  intro s cs
  have hcs : calls as ++ a.call?.toList = cs := (calls_append_singleton as a).symm
  have hkept : Kept (calls as) s := Kept.invariant.performAll (Kept.initial remembered) as
  have hprepared : Kept cs (s.prepared a) := hcs ▸ Kept.invariant.prepared hkept a
  obtain ⟨hstate, hentries⟩ := s.perform_eq a
  rw [hstate, hentries, ← hkept.file_prepared a]
  obtain ⟨honce, hlength⟩ := hprepared.writeAll_once a.records
  exact ⟨honce, hlength, fun hclear => hprepared.writeAll_eq (Activity.not_ambiguous_of_mem_records hclear)⟩

theorem performAll_writes_once_debug_after_quiet :
    (¬ Ambiguous "sourcemapper.x") ∧
    (((State.initial none).performAll [.configure true false, .configure false true]).perform
      (.emit ⟨"sourcemapper.x", debug, "m"⟩)).1.file = ["sourcemapper.x - DEBUG - m"] ∧
    (((State.initial none).performAll [.configure true false, .configure false true]).perform
      (.emit ⟨"sourcemapper.x", debug, "m"⟩)).2.2 = [] := by
  have hclear : ¬ Ambiguous "sourcemapper.x" := by decide
  obtain ⟨-, -, hrules⟩ := performAll_writes_once none
    [.configure true false, .configure false true] (.emit ⟨"sourcemapper.x", debug, "m"⟩)
  obtain ⟨hfile, hconsole⟩ := hrules fun r hr => Activity.emit.inj hr ▸ hclear
  exact ⟨hclear, hfile.trans (by decide), hconsole.trans (by decide)⟩

/-- A logger whose name only begins with the package's is not below the package logger: its record
meets no handler, where the rules have one for it. -/
theorem bare_record_of_ambiguous_logger :
    Within "sourcemapper..x" ∧
    (((State.initial none).performAll [.configure false false]).perform
      (.emit ⟨"sourcemapper..x", warning, "t"⟩)).2.2 = ["t"] ∧
    consoleEntries (calls [.configure false false, .emit ⟨"sourcemapper..x", warning, "t"⟩])
      ⟨"sourcemapper..x", warning, "t"⟩ = ["WARNING: t"] := by
  decide

end CodeMap.Journal
