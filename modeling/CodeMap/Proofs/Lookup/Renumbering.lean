import CodeMap.Lookup.Generated
import Mathlib.Data.List.Basic
import Mathlib.Logic.Function.Basic

/-! # Renumbering generated lines

The search for a generated position compares line numbers only with one another, so it finds the
same place when the lines are given other numbers (`search_map`). Where its lines are joined to
others, it goes on with the fallback that it had (`search_append`). -/

namespace CodeMap

/-- The fallback with other line numbers. -/
def Fallback.map (g : Nat → Nat) : Fallback → Fallback
  | .none => .none
  | .one line => .one (g line)
  | .two first second => .two (g first) (g second)

namespace Find

/-- The outcome with other line numbers. -/
def map (g : Nat → Nat) : Find → Find
  | .searching fallback => .searching (fallback.map g)
  | .exact line column => .exact (g line) column
  | .stopped fallback => .stopped (fallback.map g)

/-- Goes on with the fallback unless the search has ended. -/
def goOn (next : Fallback → Find) : Find → Find
  | .searching fallback => next fallback
  | found => found

theorem position?_map (g : Nat → Nat) (f : Find) :
    (f.map g).position? = f.position?.map fun (n, column) => (g n, column) := by
  rcases f with (_ | _ | _) | _ | (_ | _ | _) <;> rfl

end Find

section
variable {g : Nat → Nat} (line column : Int)

theorem Fallback.note_map (hg : Function.Injective g) (n : Nat) (fallback : Fallback) :
    (fallback.map g).note (g n) = (fallback.note n).map g := by
  cases fallback with
  | none => rfl
  | one first =>
    by_cases h : first = n
    · simp [map, note, h]
    · have hne : g first ≠ g n := fun heq => h (hg heq)
      simp [map, note, h, hne]
  | two => rfl

theorem Fallback.map_eq_none_iff {fallback : Fallback} : fallback.map g = .none ↔ fallback = .none := by
  cases fallback <;> simp [map]

theorem searchLine_cons (n : Nat) (fallback : Fallback) (before : Option Int) (s : Segment)
    (rest : Line) :
    searchLine line column n fallback before (s :: rest) =
      if s.sourceLine = line then
        if s.sourceColumn ≤ column then
          searchLine line column n fallback (some s.sourceColumn) rest
        else before.elim (searchLine line column n (fallback.note n) none rest) fun start =>
          .exact n (column - start)
      else if line < s.sourceLine ∧ fallback ≠ .none then .stopped fallback
      else searchLine line column n fallback before rest := by
  cases before <;> rfl

theorem searchLine_map (hg : Function.Injective g) (n : Nat) (fallback : Fallback)
    (before : Option Int) (segments : Line) :
    searchLine line column (g n) (fallback.map g) before segments =
      (searchLine line column n fallback before segments).map g := by
  induction segments generalizing fallback before with
  | nil => rfl
  | cons s rest ih =>
    rw [searchLine_cons, searchLine_cons]
    split_ifs with hline hcolumn hlater hlater' hlater'
    · exact ih fallback (some s.sourceColumn)
    · cases before with
      | some start => rfl
      | none => rw [Fallback.note_map hg]; exact ih (fallback.note n) none
    · rfl
    · exact absurd ⟨hlater.1, fun h => hlater.2 (Fallback.map_eq_none_iff.2 h)⟩ hlater'
    · exact absurd ⟨hlater'.1, fun h => hlater'.2 (Fallback.map_eq_none_iff.1 h)⟩ hlater
    · exact ih fallback before

theorem search_cons (n : Nat) (fallback : Fallback) (segments : Line) (rest : List Line) :
    search line column n fallback (segments :: rest) =
      (searchLine line column n fallback none segments).goOn
        (search line column (n + 1) · rest) := by
  rw [search]
  cases searchLine line column n fallback none segments <;> rfl

theorem search_append (n : Nat) (fallback : Fallback) (front back : List Line) :
    search line column n fallback (front ++ back) =
      (search line column n fallback front).goOn
        (search line column (n + front.length) · back) := by
  induction front generalizing n fallback with
  | nil => rfl
  | cons segments front ih =>
    rw [List.cons_append, search_cons, search_cons]
    cases searchLine line column n fallback none segments with
    | searching fallback' =>
      have hlength : n + (segments :: front).length = n + 1 + front.length := by
        rw [List.length_cons]; omega
      rw [hlength]
      exact ih (n + 1) fallback'
    | exact => rfl
    | stopped => rfl

/-- Lines without segments change nothing but the numbers of the lines behind them. -/
theorem search_replicate_nil (n k : Nat) (fallback : Fallback) (back : List Line) :
    search line column n fallback (List.replicate k [] ++ back) =
      search line column (n + k) fallback back := by
  induction k generalizing n with
  | zero => rfl
  | succ k ih =>
    rw [List.replicate_succ, List.cons_append, search_cons, Nat.add_comm k 1, ← Nat.add_assoc]
    exact ih (n + 1)

/-- Where every line has another number, so has the line that is found. -/
theorem search_map (hg : Function.Injective g) {n m : Nat} (fallback : Fallback)
    {lines : List Line} (h : ∀ i < lines.length, g (n + i) = m + i) :
    search line column m (fallback.map g) lines =
      (search line column n fallback lines).map g := by
  induction lines generalizing n m fallback with
  | nil => rfl
  | cons segments lines ih =>
    have hfirst : g n = m := h 0 (Nat.succ_pos _)
    have hrest : ∀ i < lines.length, g (n + 1 + i) = m + 1 + i := by
      intro i hi
      have := h (i + 1) (Nat.succ_lt_succ hi)
      rwa [Nat.add_comm i 1, ← Nat.add_assoc, ← Nat.add_assoc] at this
    rw [search_cons, search_cons, ← hfirst, searchLine_map line column hg, hfirst]
    cases searchLine line column n fallback none segments with
    | searching fallback' => exact ih fallback' hrest
    | exact => rfl
    | stopped => rfl

end

end CodeMap
