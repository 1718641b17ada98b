import CodeMap.Proofs.Json.LongInteger
import CodeMap.Proofs.Json.RoundTrip
import CodeMap.Proofs.Traversal
import CodeMap.Report

/-!
# What is reported of a text

`LoadedMap.load_eq_error_iff` lists the ways in which a text is no map. Each is reported as a failure
of one of two kinds, but for two limits: an integer of too many digits, and a version of too many
levels for the message that would show it. `load_reports_failure_iff` says of every text which of
them it is. The reader has more room than the message (`Json.Limits`), so there are texts of both
exceptions: `load_long_member` and `reported?_deep_version`.
-/

namespace CodeMap

section
variable {limits : Json.Limits} {text : String}

/-! ### The ways in which a text is no map -/

namespace Document

theorem ofSupported_of_supported {members : List (String × Json)}
    (h : members.lookup "version" = some (.int supportedVersion)) :
    ofSupported members = (ofMembers members).mapError .badFields := by
  simp [ofSupported, h]

theorem ofSupported_of_unsupported {members : List (String × Json)}
    (h : members.lookup "version" ≠ some (.int supportedVersion)) :
    ofSupported members = .error (.unsupportedVersion ((members.lookup "version").getD .null)) := by
  unfold ofSupported
  split
  · rename_i n hn
    rw [if_neg (by rintro rfl; exact h hn), hn]
    rfl
  · rfl

theorem load_of_error {fault : Json.Fault} (h : Json.read limits text = .error fault) :
    load limits text = .error (.unreadable fault) := by
  simp [load, h, Except.mapError, bind, Except.bind]

theorem load_of_ok {v : Json} (h : Json.read limits text = .ok v) : load limits text = ofJson v := by
  simp [load, h, Except.mapError, bind, Except.bind]

end Document

/-- A text that breaks the grammar or is nested too deeply. -/
def MalformedJson (limits : Json.Limits) (text : String) : Prop :=
  ∃ fault, Json.read limits text = .error fault ∧ ∀ n, fault ≠ .tooManyDigits n

/-- A text whose value is an object of another version, which can be shown. -/
def OtherVersion (limits : Json.Limits) (text : String) : Prop :=
  ∃ members, Json.read limits text = .ok (.object members) ∧
    members.lookup "version" ≠ some (.int supportedVersion) ∧
    ((members.lookup "version").getD .null).levels ≤ limits.shown

/-- A text whose value is an object of another version, which has too many levels to be shown. -/
def UnshownVersion (limits : Json.Limits) (text : String) : Prop :=
  ∃ members, Json.read limits text = .ok (.object members) ∧
    members.lookup "version" ≠ some (.int supportedVersion) ∧
    limits.shown < ((members.lookup "version").getD .null).levels

/-- A text whose value is no object, or one of the supported version with fields at fault. -/
def MalformedDocument (limits : Json.Limits) (text : String) : Prop :=
  (∃ v, Json.read limits text = .ok v ∧ ∀ members, v ≠ .object members) ∨
    ∃ members faults, Json.read limits text = .ok (.object members) ∧
      members.lookup "version" = some (.int supportedVersion) ∧
      Document.ofMembers members = .error faults

/-- A text with a document whose mappings are at fault. -/
def MalformedMappings (limits : Json.Limits) (text : String) : Prop :=
  ∃ d fault, Document.load limits text = .ok d ∧ d.chart = .error fault

namespace LoadedMap

theorem load_eq_error_iff_document {e : LoadFault} :
    load limits text = .error e ↔ Document.load limits text = .error e ∨
      ∃ d fault, Document.load limits text = .ok d ∧ d.chart = .error fault ∧
        e = .badMappings fault := by
  unfold load
  cases Document.load limits text with
  | error e' => simp [bind, Except.bind]
  | ok d =>
    cases hchart : d.chart <;>
      simp [ofDocument, hchart, bind, Except.bind, Except.mapError, Functor.map, Except.map, eq_comm]

theorem load_eq_ok_iff {m : LoadedMap} :
    load limits text = .ok m ↔
      Document.load limits text = .ok m.document ∧ m.document.chart = .ok m.chart := by
  unfold load
  cases Document.load limits text with
  | error fault => simp [bind, Except.bind]
  | ok d =>
    show (ofDocument d).mapError LoadFault.badMappings = .ok m ↔ _
    rw [mapError_eq_ok_iff, ofDocument, map_eq_ok_iff]
    constructor
    · rintro ⟨c, hc, rfl⟩
      exact ⟨rfl, hc⟩
    · rintro ⟨heq, hc⟩
      cases heq
      exact ⟨m.chart, hc, rfl⟩

/-- Every way in which a text is no map. -/
theorem load_eq_error_iff {e : LoadFault} :
    load limits text = .error e ↔
      (∃ fault, Json.read limits text = .error fault ∧ e = .unreadable fault) ∨
      (∃ v, Json.read limits text = .ok v ∧ (∀ members, v ≠ .object members) ∧ e = .notObject v) ∨
      (∃ members, Json.read limits text = .ok (.object members) ∧
        members.lookup "version" ≠ some (.int supportedVersion) ∧
        e = .unsupportedVersion ((members.lookup "version").getD .null)) ∨
      (∃ members faults, Json.read limits text = .ok (.object members) ∧
        members.lookup "version" = some (.int supportedVersion) ∧
        Document.ofMembers members = .error faults ∧ e = .badFields faults) ∨
      ∃ d fault, Document.load limits text = .ok d ∧ d.chart = .error fault ∧
        e = .badMappings fault := by
  rw [load_eq_error_iff_document, ← or_assoc, ← or_assoc, ← or_assoc]
  refine or_congr ?_ Iff.rfl
  cases hread : Json.read limits text with
  | error fault => simp [Document.load_of_error hread, eq_comm]
  | ok v =>
    rw [Document.load_of_ok hread]
    cases v with
    | object members =>
      by_cases hversion : members.lookup "version" = some (.int supportedVersion)
      · rw [Document.ofJson, Document.ofSupported_of_supported hversion]
        cases hmembers : Document.ofMembers members <;>
          simp [hversion, hmembers, Except.mapError, eq_comm]
      · rw [Document.ofJson, Document.ofSupported_of_unsupported hversion]
        simp [hversion, eq_comm]
    | _ => simp [Document.ofJson, eq_comm]

end LoadedMap

/-! ### Their reports -/

namespace LoadFault
variable {e : LoadFault} {v : Json}

/-- The failure of a version that can be shown keeps the version. -/
theorem report_of_shown (h : v.levels ≤ limits.shown) :
    ∃ f, (unsupportedVersion v).report limits = .failure f ∧ f.kind = .unsupportedFormat ∧
      f.code = .unsupportedVersion ∧
      f.message = "only V3 source maps are supported, got version " ++ v.shown ∧
      f.version = some v ∧ f.line = none ∧ f.segment = none := by
  refine ⟨_, by rw [report, versionFailure?, if_pos h]; rfl, rfl, rfl, ?_, rfl, rfl, rfl⟩
  simp [Failure.message, Failure.suffix, Failure.new, Code.message, Code.template, Piece.filled?]

theorem report_of_not_shown (h : limits.shown < v.levels) :
    (unsupportedVersion v).report limits = .levelLimit := by
  rw [report, versionFailure?, if_neg (Nat.not_le.2 h)]
  rfl

/-- What a fault is reported as: one of the two limits or a failure of one of the two kinds. -/
theorem report_cases (limits : Json.Limits) (e : LoadFault) :
    (∃ n, e = .unreadable (.tooManyDigits n) ∧ e.report limits = .digitLimit n) ∨
    (∃ v, e = .unsupportedVersion v ∧ limits.shown < v.levels ∧ e.report limits = .levelLimit) ∨
    (∃ v f, e = .unsupportedVersion v ∧ v.levels ≤ limits.shown ∧ e.report limits = .failure f ∧
      f.kind = .unsupportedFormat) ∨
    ∃ f, e.report limits = .failure f ∧ f.kind = .invalidData ∧
      (∀ n, e ≠ .unreadable (.tooManyDigits n)) ∧ ∀ v, e ≠ .unsupportedVersion v := by
  cases e with
  | unreadable fault =>
    cases fault with
    | tooManyDigits n => exact .inl ⟨n, rfl, rfl⟩
    | _ => exact .inr (.inr (.inr ⟨_, rfl, rfl, nofun, nofun⟩))
  | unsupportedVersion v =>
    rcases Nat.lt_or_ge limits.shown v.levels with hv | hv
    · exact .inr (.inl ⟨v, rfl, hv, report_of_not_shown hv⟩)
    · obtain ⟨f, hf, hkind, -⟩ := report_of_shown hv
      exact .inr (.inr (.inl ⟨v, f, rfl, hv, hf, hkind⟩))
  | badMappings fault =>
    exact .inr (.inr (.inr ⟨_, rfl, Mappings.Fault.failure_kind fault, nofun, nofun⟩))
  | _ => exact .inr (.inr (.inr ⟨_, rfl, rfl, nofun, nofun⟩))

theorem report_eq_digitLimit_iff {n : Nat} :
    e.report limits = .digitLimit n ↔ e = .unreadable (.tooManyDigits n) := by
  constructor
  · intro h
    rcases report_cases limits e with ⟨m, rfl, hr⟩ | ⟨v, -, -, hr⟩ | ⟨v, f, -, -, hr, -⟩ | ⟨f, hr, -⟩
    · obtain rfl := Report.digitLimit.inj (hr.symm.trans h)
      rfl
    all_goals cases hr.symm.trans h
  · rintro rfl
    rfl

theorem report_eq_levelLimit_iff :
    e.report limits = .levelLimit ↔ ∃ v, e = .unsupportedVersion v ∧ limits.shown < v.levels := by
  constructor
  · intro h
    rcases report_cases limits e with ⟨n, -, hr⟩ | ⟨v, he, hv, -⟩ | ⟨v, f, -, -, hr, -⟩ | ⟨f, hr, -⟩
    · cases hr.symm.trans h
    · exact ⟨v, he, hv⟩
    all_goals cases hr.symm.trans h
  · rintro ⟨v, rfl, hv⟩
    exact report_of_not_shown hv

theorem report_unsupportedFormat_iff :
    (∃ f, e.report limits = .failure f ∧ f.kind = .unsupportedFormat) ↔
      ∃ v, e = .unsupportedVersion v ∧ v.levels ≤ limits.shown := by
  constructor
  · rintro ⟨f, hf, hkind⟩
    rcases report_cases limits e with ⟨n, -, hr⟩ | ⟨v, -, -, hr⟩ | ⟨v, f', he, hv, -⟩ | ⟨f', hr, hdata, -⟩
    · cases hr.symm.trans hf
    · cases hr.symm.trans hf
    · exact ⟨v, he, hv⟩
    · obtain rfl := Report.failure.inj (hr.symm.trans hf)
      cases hkind.symm.trans hdata
  · rintro ⟨v, rfl, hv⟩
    obtain ⟨f, hf, hkind, -⟩ := report_of_shown hv
    exact ⟨f, hf, hkind⟩

theorem report_invalidData_iff :
    (∃ f, e.report limits = .failure f ∧ f.kind = .invalidData) ↔
      (∀ n, e ≠ .unreadable (.tooManyDigits n)) ∧ ∀ v, e ≠ .unsupportedVersion v := by
  constructor
  · rintro ⟨f, hf, hdata⟩
    rcases report_cases limits e with ⟨n, -, hr⟩ | ⟨v, -, -, hr⟩ | ⟨v, f', -, -, hr, hkind⟩ |
      ⟨f', -, -, hdigits, hversion⟩
    · cases hr.symm.trans hf
    · cases hr.symm.trans hf
    · obtain rfl := Report.failure.inj (hr.symm.trans hf)
      cases hkind.symm.trans hdata
    · exact ⟨hdigits, hversion⟩
  · rintro ⟨hdigits, hversion⟩
    rcases report_cases limits e with ⟨n, he, -⟩ | ⟨v, he, -⟩ | ⟨v, f, he, -⟩ | ⟨f, hr, hkind, -⟩
    · exact absurd he (hdigits n)
    · exact absurd he (hversion v)
    · exact absurd he (hversion v)
    · exact ⟨f, hr, hkind⟩

end LoadFault

/-- What is reported of a text, if it is no map. -/
def reported? (limits : Json.Limits) (text : String) : Option Report :=
  (errorOf? (LoadedMap.load limits text)).map (LoadFault.report limits)

theorem reported?_eq_none_iff :
    reported? limits text = none ↔ ∃ m, LoadedMap.load limits text = .ok m := by
  rw [reported?, Option.map_eq_none_iff, errorOf?_eq_none_iff]

theorem reported?_eq_some_iff {r : Report} :
    reported? limits text = some r ↔
      ∃ e, LoadedMap.load limits text = .error e ∧ e.report limits = r := by
  simp only [reported?, Option.map_eq_some_iff, errorOf?_eq_some_iff]

theorem exists_reported?_iff {kind : FailureKind} :
    (∃ f, reported? limits text = some (.failure f) ∧ f.kind = kind) ↔
      ∃ e, LoadedMap.load limits text = .error e ∧
        ∃ f, e.report limits = .failure f ∧ f.kind = kind := by
  simp only [reported?_eq_some_iff]
  constructor
  · rintro ⟨f, ⟨e, he, hf⟩, hkind⟩
    exact ⟨e, he, f, hf, hkind⟩
  · rintro ⟨e, he, f, hf, hkind⟩
    exact ⟨f, ⟨e, he, hf⟩, hkind⟩

theorem reported?_eq_digitLimit_iff {n : Nat} :
    reported? limits text = some (.digitLimit n) ↔ Json.MeetsLongInteger limits text n := by
  rw [reported?_eq_some_iff, ← Json.read_eq_tooManyDigits_iff]
  constructor
  · rintro ⟨e, he, hr⟩
    obtain rfl := LoadFault.report_eq_digitLimit_iff.1 hr
    simpa [LoadedMap.load_eq_error_iff] using he
  · intro h
    exact ⟨_, LoadedMap.load_eq_error_iff.2 (.inl ⟨_, h, rfl⟩), rfl⟩

/-- A version that is not supported is the fault of a text whose value is an object with it. -/
theorem exists_unsupportedVersion_iff (p : Json → Prop) :
    (∃ e, LoadedMap.load limits text = .error e ∧ ∃ v, e = .unsupportedVersion v ∧ p v) ↔
      ∃ members, Json.read limits text = .ok (.object members) ∧
        members.lookup "version" ≠ some (.int supportedVersion) ∧
        p ((members.lookup "version").getD .null) := by
  constructor
  · rintro ⟨_, he, v, rfl, hv⟩
    obtain ⟨members, hread, hversion, rfl⟩ := by simpa [LoadedMap.load_eq_error_iff] using he
    exact ⟨members, hread, hversion, hv⟩
  · rintro ⟨members, hread, hversion, hv⟩
    exact ⟨_, LoadedMap.load_eq_error_iff.2 (.inr (.inr (.inl ⟨members, hread, hversion, rfl⟩))),
      _, rfl, hv⟩

theorem reported?_eq_levelLimit_iff :
    reported? limits text = some .levelLimit ↔ UnshownVersion limits text := by
  rw [reported?_eq_some_iff]
  simp only [LoadFault.report_eq_levelLimit_iff]
  exact exists_unsupportedVersion_iff fun v => limits.shown < v.levels

theorem reported?_unsupportedFormat_iff :
    (∃ f, reported? limits text = some (.failure f) ∧ f.kind = .unsupportedFormat) ↔
      OtherVersion limits text := by
  rw [exists_reported?_iff]
  simp only [LoadFault.report_unsupportedFormat_iff]
  exact exists_unsupportedVersion_iff fun v => v.levels ≤ limits.shown

theorem reported?_invalidData_iff :
    (∃ f, reported? limits text = some (.failure f) ∧ f.kind = .invalidData) ↔
      MalformedJson limits text ∨ MalformedDocument limits text ∨ MalformedMappings limits text := by
  rw [exists_reported?_iff]
  simp only [LoadFault.report_invalidData_iff, LoadedMap.load_eq_error_iff]
  constructor
  · rintro ⟨e, ⟨fault, hread, rfl⟩ | ⟨v, hread, hv, rfl⟩ | ⟨_, -, -, rfl⟩ |
      ⟨members, faults, hread, hversion, hfaults, rfl⟩ | ⟨d, fault, hd, hchart, rfl⟩, hdigits, hother⟩
    · exact .inl ⟨fault, hread, fun n hn => hdigits n (by rw [hn])⟩
    · exact .inr (.inl (.inl ⟨v, hread, hv⟩))
    · exact absurd rfl (hother _)
    · exact .inr (.inl (.inr ⟨members, faults, hread, hversion, hfaults⟩))
    · exact .inr (.inr ⟨d, fault, hd, hchart⟩)
  · rintro (⟨fault, hread, hdigits⟩ | (⟨v, hread, hv⟩ | ⟨members, faults, hread, hversion, hfaults⟩) |
      ⟨d, fault, hd, hchart⟩)
    · exact ⟨_, .inl ⟨fault, hread, rfl⟩, fun n hn => hdigits n (LoadFault.unreadable.inj hn), nofun⟩
    · exact ⟨_, .inr (.inl ⟨v, hread, hv, rfl⟩), nofun, nofun⟩
    · exact ⟨_, .inr (.inr (.inr (.inl ⟨members, faults, hread, hversion, hfaults, rfl⟩))),
        nofun, nofun⟩
    · exact ⟨_, .inr (.inr (.inr (.inr ⟨d, fault, hd, hchart, rfl⟩))), nofun, nofun⟩

theorem reported?_cases (limits : Json.Limits) (text : String) :
    reported? limits text = none ∨ (∃ n, reported? limits text = some (.digitLimit n)) ∨
      reported? limits text = some .levelLimit ∨
      ∃ f, reported? limits text = some (.failure f) ∧
        (f.kind = .invalidData ∨ f.kind = .unsupportedFormat) := by
  cases hload : LoadedMap.load limits text with
  | ok m => exact .inl (reported?_eq_none_iff.2 ⟨m, hload⟩)
  | error e =>
    have hreported : reported? limits text = some (e.report limits) :=
      reported?_eq_some_iff.2 ⟨e, hload, rfl⟩
    rw [hreported]
    rcases e.report_cases limits with ⟨n, -, hr⟩ | ⟨v, -, -, hr⟩ | ⟨v, f, -, -, hr, hkind⟩ |
      ⟨f, hr, hkind, -⟩
    · exact .inr (.inl ⟨n, congrArg some hr⟩)
    · exact .inr (.inr (.inl (congrArg some hr)))
    · exact .inr (.inr (.inr ⟨f, congrArg some hr, .inr hkind⟩))
    · exact .inr (.inr (.inr ⟨f, congrArg some hr, .inl hkind⟩))

end

/-- Loading any text gives a map or a failure of one of two kinds: for another version, or for
malformed JSON, a malformed document or malformed mappings. The exceptions, whose reports are no
failures, are a text with an integer of too many digits and one whose version is not supported and
has too many levels to be shown. The call stack may leave any room. A surrogate alone in a text of
the map is replaced (`Json.character`), so this is said of maps without one. -/
theorem load_reports_failure_iff (limits : Json.Limits) (text : String) :
    ((∃ m, LoadedMap.load limits text = .ok m) ∨
      (∃ f, reported? limits text = some (.failure f) ∧
        (f.kind = .invalidData ∨ f.kind = .unsupportedFormat)) ↔
      (¬ ∃ n, Json.MeetsLongInteger limits text n) ∧ ¬ UnshownVersion limits text) ∧
    (∀ n, reported? limits text = some (.digitLimit n) ↔ Json.MeetsLongInteger limits text n) ∧
    (reported? limits text = some .levelLimit ↔ UnshownVersion limits text) ∧
    ((∃ f, reported? limits text = some (.failure f) ∧ f.kind = .unsupportedFormat) ↔
      OtherVersion limits text) ∧
    ((∃ f, reported? limits text = some (.failure f) ∧ f.kind = .invalidData) ↔
      MalformedJson limits text ∨ MalformedDocument limits text ∨ MalformedMappings limits text) := by
  refine ⟨?_, fun _ => reported?_eq_digitLimit_iff, reported?_eq_levelLimit_iff,
    reported?_unsupportedFormat_iff, reported?_invalidData_iff⟩
  simp only [← reported?_eq_digitLimit_iff, ← reported?_eq_levelLimit_iff, ← reported?_eq_none_iff]
  constructor
  · rintro (h | ⟨f, h, -⟩)
    · simp [h]
    · simp [h]
  · rintro ⟨hdigits, hlevels⟩
    rcases reported?_cases limits text with h | h | h | h
    · exact .inl h
    · exact absurd h hdigits
    · exact absurd h hlevels
    · exact .inr h

/-! ### Texts of the two exceptions -/

namespace Json

theorem reaches_member (limits : Limits) (cs : List Char) :
    Reaches limits (.value []) ("\x7b\"version\": 3, \"x\": ".toList ++ cs)
      (.value [.member [("version", .int 3)] "x"]) (' ' :: cs) := by
  have hopen : State.enter limits .object [] = .ok (.firstKey []) :=
    enter_of_lt .object (Nat.lt_of_lt_of_le Nat.two_pos limits.two_le_depth)
  have hversion : scan ("\"version\": 3, \"x\": ".toList ++ cs) =
      .lexeme (.text "version") (": 3, \"x\": ".toList ++ cs) := by cbv
  have hx : scan ("\"x\": ".toList ++ cs) = .lexeme (.text "x") (": ".toList ++ cs) := by cbv
  exact .step (l := .openObject) rfl hopen <| .step hversion rfl <| .step (l := .colon) rfl rfl <|
    .step (l := .scalar (.int 3)) rfl rfl <| .step (l := .comma) rfl rfl <| .step hx rfl <|
    .step (l := .colon) rfl rfl .here

end Json

/-- A document with nothing wrong but the digits of a member that nothing reads. -/
theorem load_long_member :
    reported? .standard (String.ofList ("\x7b\"version\": 3, \"x\": ".toList ++
      (List.replicate 4301 '1' ++ ['\x7d']))) = some (.digitLimit 4301) := by
  rw [reported?_eq_digitLimit_iff, Json.MeetsLongInteger, String.toList_ofList]
  have hgoes : ¬ Json.GoesOn ['\x7d'] := Json.floatPart?_eq_none_iff.1 rfl
  have hlong : Json.LongDigits (List.replicate 4301 '1' ++ ['\x7d']) 4301 :=
    Json.longDigits_replicate (by decide) (by simp) hgoes
  refine ⟨_, _, Json.reaches_member .standard _, rfl, .inl ?_⟩
  rwa [List.dropWhile_cons_of_pos rfl, hlong.dropWhile_isBlank]

namespace Json

/-- Null inside `n` arrays, one around the other. -/
def nested : Nat → Json
  | 0 => .null
  | n + 1 => .array [nested n]

theorem levels_nested (n : Nat) : (nested n).levels = n + 1 := by
  induction n with
  | zero => rfl
  | succ n ih => simp [nested, levels, itemLevels, ih]

theorem merged_nested (n : Nat) : (nested n).merged = nested n := by
  induction n with
  | zero => rfl
  | succ n ih => rw [nested, merged, mergedItems, ih, mergedItems]

theorem fits_nested {n room : Nat} (h : n ≤ room) : Fits room (nested n) := by
  induction n generalizing room with
  | zero => exact .null
  | succ n ih =>
    obtain ⟨k, rfl⟩ := Nat.exists_eq_add_of_le' h
    refine .array fun v hv => ?_
    obtain rfl := List.mem_singleton.1 hv
    exact ih (Nat.le_add_left n k)

end Json

/-- A version inside so many arrays that it can be read and not shown. -/
theorem reported?_deep_version (limits : Json.Limits) {n : Nat} (hshown : limits.shown ≤ n)
    (hdepth : n < limits.depth) :
    reported? limits (Json.object [("version", Json.nested n)]).compress = some .levelLimit := by
  obtain ⟨room, hroom⟩ := Nat.exists_eq_add_of_le' (Nat.succ_le_of_lt hdepth)
  have hfits : Json.Fits limits.depth (.object [("version", Json.nested n)]) := by
    rw [hroom]
    refine .object fun m hm => ?_
    obtain rfl := List.mem_singleton.1 hm
    exact Json.fits_nested (Nat.le_add_left n room)
  have hmerged : (Json.object [("version", Json.nested n)]).merged =
      .object [("version", Json.nested n)] := by
    rw [Json.merged, Json.mergedMembers, Json.merged_nested]
    rfl
  have hread := Json.read_compress hfits
  rw [hmerged] at hread
  refine reported?_eq_levelLimit_iff.2 ⟨_, hread, ?_, ?_⟩
  · rw [List.lookup_cons_self]
    cases n <;> simp [Json.nested]
  · rw [List.lookup_cons_self, Option.getD_some, Json.levels_nested]
    exact Nat.lt_succ_of_le hshown

end CodeMap
