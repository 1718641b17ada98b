import CodeMap.Proofs.Json.Number
import CodeMap.Proofs.Json.Reaches
import Mathlib.Tactic.SplitIfs

/-!
# Integers of too many digits

`scan_eq_longInteger_iff`: which texts start with such an integer. `read_eq_tooManyDigits_iff`: a
text is refused for one just when the reader comes to it, lexeme by lexeme (`Reaches`), where a
value may stand.
-/

namespace CodeMap.Json

/-! ### The integer -/

/-- A text that starts with `n` digits, too many for an integer, and whose digits end there and do
not go on to a fraction or an exponent. -/
def LongDigits (cs : List Char) (n : Nat) : Prop :=
  ∃ ds rest, cs = ds ++ rest ∧ ds.length = n ∧ maxDigits < n ∧ (∀ d ∈ ds, d.isDigit = true) ∧
    ds.head? ≠ some '0' ∧ ¬ StartsWithDigit rest ∧ ¬ GoesOn rest

/-- A text that starts with an integer of `n` digits, which are too many. -/
def LongInteger (cs : List Char) (n : Nat) : Prop :=
  LongDigits cs n ∨ ∃ after, cs = '-' :: after ∧ LongDigits after n

theorem LongDigits.startsWithDigit {cs : List Char} {n : Nat} (h : LongDigits cs n) :
    StartsWithDigit cs := by
  obtain ⟨ds, rest, rfl, rfl, hlong, hall, -⟩ := h
  cases ds with
  | nil => simp at hlong
  | cons d ds => exact ⟨d, _, rfl, hall d (List.mem_cons_self ..)⟩

theorem LongDigits.dropWhile_isBlank {cs : List Char} {n : Nat} (h : LongDigits cs n) :
    cs.dropWhile isBlank = cs :=
  h.startsWithDigit.dropWhile_isBlank

theorem longDigits_replicate {n : Nat} {rest : List Char} (hn : maxDigits < n)
    (hdigit : ¬ StartsWithDigit rest) (hgoes : ¬ GoesOn rest) :
    LongDigits (List.replicate n '1' ++ rest) n := by
  refine ⟨_, rest, rfl, List.length_replicate, hn, fun d hd => ?_, ?_, hdigit, hgoes⟩
  · rw [List.eq_of_mem_replicate hd]
    rfl
  · rw [List.head?_replicate]
    split <;> simp

theorem integerPart?_eq_some_iff {cs ds rest : List Char} (h : 1 < ds.length) :
    integerPart? cs = some (ds, rest) ↔ digits cs = (ds, rest) ∧ ds.head? ≠ some '0' := by
  have hnil : ds ≠ [] := List.ne_nil_of_length_pos (by omega)
  constructor
  · intro hpart
    unfold integerPart? at hpart
    split at hpart
    · obtain ⟨rfl, -⟩ := Prod.mk.inj (Option.some.inj hpart)
      simp at h
    · rename_i hzero
      split_ifs at hpart
      have hdigits := Option.some.inj hpart
      refine ⟨hdigits, fun hhead => ?_⟩
      obtain ⟨d, ds, rfl⟩ := List.exists_cons_of_ne_nil hnil
      obtain rfl : d = '0' := by simpa using hhead
      exact hzero _ (digits_eq_iff.1 hdigits).1
  · rintro ⟨hdigits, hhead⟩
    exact integerPart?_of_digits hdigits hnil hhead

theorem number_eq_longInteger_iff {negative : Bool} {cs : List Char} {n : Nat} :
    number negative cs = .longInteger n ↔ LongDigits cs n := by
  have hone : 1 < maxDigits := by decide
  unfold number
  constructor
  · intro h
    split at h
    · simp at h
    · rename_i ds rest hds
      split at h
      · simp at h
      · rename_i hfloat
        split at h
        · rename_i hlong
          obtain ⟨hdigits, hhead⟩ := (integerPart?_eq_some_iff (by omega)).1 hds
          obtain ⟨hcs, hall, hrest⟩ := digits_eq_iff.1 hdigits
          obtain rfl := Scanned.longInteger.inj h
          exact ⟨ds, rest, hcs, rfl, hlong, hall, hhead, hrest, floatPart?_eq_none_iff.1 hfloat⟩
        · simp at h
  · rintro ⟨ds, rest, hcs, rfl, hlong, hall, hhead, hrest, hgoes⟩
    have hds := (integerPart?_eq_some_iff (by omega)).2 ⟨digits_eq_iff.2 ⟨hcs, hall, hrest⟩, hhead⟩
    simp only [hds, floatPart?_eq_none_iff.2 hgoes, hlong, ↓reduceIte]

/-- A quoted text is a lexeme or broken. -/
theorem quoted_ne_longInteger (opening done cs : List Char) (n : Nat) :
    quoted opening done cs ≠ .longInteger n := by
  fun_induction quoted opening done cs with
  | case1 => simp
  | case2 _ _ _ _ _ ih => exact ih
  | case3 => simp

theorem scan_eq_longInteger_iff {cs : List Char} {n : Nat} :
    scan cs = .longInteger n ↔ LongInteger cs n := by
  constructor
  · intro h
    unfold scan at h
    split at h
    · simp at h
    · rename_i c rest
      split at h
      · exact (quoted_ne_longInteger _ _ _ _ h).elim
      · split at h
        · simp at h
        · split at h
          · simp at h
          · split at h
            · rename_i hc
              exact .inr ⟨rest, by rw [hc], number_eq_longInteger_iff.1 h⟩
            · exact .inl (number_eq_longInteger_iff.1 h)
  · rintro (h | ⟨after, rfl, h⟩)
    · rw [scan_of_startsWithDigit h.startsWithDigit]
      exact number_eq_longInteger_iff.2 h
    · rw [scan_minus h.startsWithDigit]
      exact number_eq_longInteger_iff.2 h

/-! ### The way to it -/

section
variable {limits : Limits} {whole cs : List Char} {s : State} {n : Nat}

theorem readFrom_of_longInteger (hscan : scan (cs.dropWhile isBlank) = .longInteger n)
    (hvalue : s.admitsValue = true) :
    readFrom limits whole s cs = .error (.tooManyDigits n) := by
  fun_cases readFrom limits whole s cs <;> simp_all +zetaDelta

/-- Reading stops at an integer of too many digits just when the reader comes to it where a value
may stand. -/
theorem readFrom_eq_tooManyDigits_iff :
    readFrom limits whole s cs = .error (.tooManyDigits n) ↔ ∃ s' cs', Reaches limits s cs s' cs' ∧
      s'.admitsValue = true ∧ LongInteger (cs'.dropWhile isBlank) n := by
  simp only [← scan_eq_longInteger_iff]
  constructor
  · intro h
    fun_induction readFrom limits whole s cs with
    | case3 s cs here l rest hscan next hstep ih =>
      obtain ⟨s', cs', hreach, hlong⟩ := ih h
      exact ⟨s', cs', .step hscan hstep hreach, hlong⟩
    | case7 s cs here cause place hscan => split at h <;> simp [missing] at h
    | case8 s cs here k hscan =>
      split at h
      · rename_i hvalue
        obtain rfl := Fault.tooManyDigits.inj (Except.error.inj h)
        exact ⟨s, cs, .here, hvalue, hscan⟩
      · simp [missing] at h
    | _ => simp [missing] at h
  · rintro ⟨s', cs', hreach, hvalue, hscan⟩
    rw [readFrom_of_reaches hreach, readFrom_of_longInteger hscan hvalue]

/-- Within the text there is an integer of `n` digits, too many, and all before it is in order: the
reader comes to it where a value may stand. -/
def MeetsLongInteger (limits : Limits) (text : String) (n : Nat) : Prop :=
  ∃ s cs, Reaches limits (.value []) text.toList s cs ∧ s.admitsValue = true ∧
    LongInteger (cs.dropWhile isBlank) n

theorem read_eq_tooManyDigits_iff {text : String} :
    read limits text = .error (.tooManyDigits n) ↔ MeetsLongInteger limits text n := by
  have hread : read limits text = .error (.tooManyDigits n) ↔
      parse limits text = .error (.tooManyDigits n) := by
    unfold read
    cases parse limits text <;> simp [Functor.map, Except.map]
  rw [hread, MeetsLongInteger, parse]
  split
  · rename_i rest htext
    simp only [Except.error.injEq, reduceCtorEq, false_iff, htext]
    rintro ⟨s, cs, hreach, -, hlong⟩
    obtain ⟨-, rfl⟩ := hreach.of_byteOrderMark
    have hmark : scan (('\uFEFF' :: rest).dropWhile isBlank) = .unknown := rfl
    exact Scanned.noConfusion (hmark.symm.trans (scan_eq_longInteger_iff.2 hlong))
  · exact readFrom_eq_tooManyDigits_iff

end

end CodeMap.Json
