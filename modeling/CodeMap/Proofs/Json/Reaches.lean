import CodeMap.Json.Reader

/-! # The way of the reader

`Reaches` says that the reader comes from one state to another by whole lexemes. It goes on from
there as it would have started there (`readFrom_of_reaches`), so a text whose end is reached is read
(`parse_of_reaches`). The limits matter only where a container is opened (`enter_of_lt`). -/

namespace CodeMap.Json

/-- The reader comes from the state `s` before the text `cs` to another one by whole lexemes, each
of which the grammar and the limits admit. -/
inductive Reaches (limits : Limits) : State → List Char → State → List Char → Prop
  | here {s : State} {cs : List Char} : Reaches limits s cs s cs
  | step {s next s' : State} {l : Lexeme} {cs rest cs' : List Char} :
    scan (cs.dropWhile isBlank) = .lexeme l rest → s.step limits l = .ok next →
    Reaches limits next rest s' cs' → Reaches limits s cs s' cs'

section
variable {limits : Limits} {whole cs rest cs' : List Char} {s next s' : State} {l : Lexeme}
  {stack : List Frame}

theorem enter_of_lt (container : Container) (h : stack.length < limits.depth) :
    State.enter limits container stack =
      .ok (match container with
        | .array => .firstItem stack
        | .object => .firstKey stack) :=
  if_pos h

theorem readFrom_of_step (hscan : scan (cs.dropWhile isBlank) = .lexeme l rest)
    (hstep : s.step limits l = .ok next) :
    readFrom limits whole s cs = readFrom limits whole next rest := by
  fun_cases readFrom limits whole s cs <;> simp_all +zetaDelta

theorem readFrom_of_reaches (h : Reaches limits s cs s' cs') :
    readFrom limits whole s cs = readFrom limits whole s' cs' := by
  induction h with
  | here => rfl
  | step hscan hstep _ ih => rw [readFrom_of_step hscan hstep, ih]

namespace Reaches

theorem trans {s'' : State} {cs'' : List Char} (h : Reaches limits s cs s' cs')
    (h' : Reaches limits s' cs' s'' cs'') : Reaches limits s cs s'' cs'' := by
  induction h with
  | here => exact h'
  | step hscan hstep _ ih => exact .step hscan hstep (ih h')

theorem lexeme {c : Char} (hc : isBlank c = false) (hscan : scan (c :: cs) = .lexeme l rest)
    (hstep : s.step limits l = .ok next) : Reaches limits s (c :: cs) next rest := by
  refine .step ?_ hstep .here
  rwa [List.dropWhile_cons_of_neg (by simp [hc])]

/-- A blank before a lexeme is passed over. -/
theorem blank (hne : s ≠ s') (h : Reaches limits s cs s' cs') :
    Reaches limits s (' ' :: cs) s' cs' := by
  cases h with
  | here => exact absurd rfl hne
  | step hscan hstep hrest => exact .step hscan hstep hrest

/-- The first item of an array may be read like any other value. -/
theorem firstItem (hne : .value (.item [] :: stack) ≠ s')
    (h : Reaches limits (.value (.item [] :: stack)) cs s' cs') :
    Reaches limits (.firstItem stack) cs s' cs' := by
  cases h with
  | here => exact absurd rfl hne
  | @step _ _ _ l _ _ _ hscan hstep hrest =>
    refine .step hscan ?_ hrest
    cases l with
    | closeArray => cases hstep
    | _ => exact hstep

/-- A byte order mark is no lexeme, so the reader comes no further. -/
theorem of_byteOrderMark (h : Reaches limits s ('\uFEFF' :: cs) s' cs') :
    s' = s ∧ cs' = '\uFEFF' :: cs := by
  have hmark : scan (('\uFEFF' :: cs).dropWhile isBlank) = .unknown := rfl
  cases h with
  | here => exact ⟨rfl, rfl⟩
  | step hlexeme => exact Scanned.noConfusion (hmark.symm.trans hlexeme)

end Reaches

theorem parse_of_reaches {text : String} {v : Json}
    (h : Reaches limits (.value []) text.toList (.finished v) []) : parse limits text = .ok v := by
  unfold parse
  split
  · rename_i rest htext
    rw [htext] at h
    exact State.noConfusion h.of_byteOrderMark.1
  · rw [readFrom_of_reaches h, readFrom]
    rfl

end

end CodeMap.Json
