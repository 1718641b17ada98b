import Mathlib.Data.List.Basic

/-! # Traversals that may fail

`List.mapM` in `Except` stops at the first failure. `errorOf?_mapM` says which one that is and
`mapM_eq_ok_iff` what there is if none occurs. -/

namespace CodeMap

/-- The error that a computation ends with, if it does. -/
def errorOf? {ε α : Type} : Except ε α → Option ε
  | .ok _ => none
  | .error e => some e

section
variable {ε ε' α β : Type}

@[simp] theorem errorOf?_ok (a : α) : errorOf? (.ok a : Except ε α) = none := rfl

@[simp] theorem errorOf?_error (e : ε) : errorOf? (.error e : Except ε α) = some e := rfl

theorem errorOf?_eq_none_iff {x : Except ε α} : errorOf? x = none ↔ ∃ a, x = .ok a := by
  cases x <;> simp

theorem errorOf?_eq_some_iff {x : Except ε α} {e : ε} : errorOf? x = some e ↔ x = .error e := by
  cases x <;> simp

@[simp] theorem errorOf?_map (f : α → β) (x : Except ε α) : errorOf? (f <$> x) = errorOf? x := by
  cases x <;> rfl

@[simp] theorem errorOf?_mapError (f : ε → ε') (x : Except ε α) :
    errorOf? (x.mapError f) = (errorOf? x).map f := by
  cases x <;> rfl

theorem map_eq_ok_iff {f : α → β} {x : Except ε α} {b : β} :
    f <$> x = .ok b ↔ ∃ a, x = .ok a ∧ f a = b := by
  cases x <;> simp [Functor.map, Except.map]

theorem mapError_eq_ok_iff {f : ε → ε'} {x : Except ε α} {a : α} :
    x.mapError f = .ok a ↔ x = .ok a := by
  cases x <;> simp [Except.mapError]

/-- A traversal fails with the first error in the order of the list. -/
theorem errorOf?_mapM (f : α → Except ε β) (l : List α) :
    errorOf? (l.mapM f) = l.findSome? fun a => errorOf? (f a) := by
  induction l with
  | nil => rfl
  | cons a l ih =>
    rw [List.mapM_cons, List.findSome?_cons, ← ih]
    cases f a with
    | error e => rfl
    | ok b => cases l.mapM f <;> rfl

theorem findSome?_flatMap (f : α → List β) (g : β → Option ε) (l : List α) :
    (l.flatMap f).findSome? g = l.findSome? fun a => (f a).findSome? g := by
  induction l with
  | nil => rfl
  | cons a l ih =>
    rw [List.flatMap_cons, List.findSome?_append, ih, List.findSome?_cons]
    cases (f a).findSome? g <;> rfl

theorem mapM_eq_ok_iff {f : α → Except ε β} {l : List α} {bs : List β} :
    l.mapM f = .ok bs ↔ l.map f = bs.map .ok := by
  induction l generalizing bs with
  | nil => cases bs <;> simp [pure, Except.pure]
  | cons a l ih =>
    rw [List.mapM_cons, List.map_cons]
    cases f a with
    | error e => cases bs <;> simp [bind, Except.bind]
    | ok b =>
      cases bs with
      | nil => cases l.mapM f <;> simp [bind, Except.bind, pure, Except.pure]
      | cons b' bs =>
        have := @ih bs
        cases h : l.mapM f <;> simp_all [bind, Except.bind, pure, Except.pure]

theorem map_eq_map_of_imp {γ δ : Type} {f : α → γ} {f' : β → γ} {g : α → δ} {g' : β → δ}
    (hfg : ∀ a b, f a = f' b → g a = g' b) {l : List α} {bs : List β}
    (h : l.map f = bs.map f') : l.map g = bs.map g' := by
  induction l generalizing bs with
  | nil => cases bs <;> simp_all
  | cons a l ih =>
    cases bs with
    | nil => simp at h
    | cons b bs =>
      obtain ⟨hab, h⟩ := List.cons.inj h
      rw [List.map_cons, List.map_cons, hfg a b hab, ih h]

theorem getElem?_of_map_eq_map {γ : Type} {f : α → γ} {g : β → γ} {l : List α} {bs : List β}
    (h : l.map f = bs.map g) {i : Nat} {a : α} (hi : l[i]? = some a) :
    ∃ b, bs[i]? = some b ∧ f a = g b := by
  have hget := congrArg (·[i]?) h
  simp only [List.getElem?_map, hi, Option.map_some] at hget
  obtain ⟨b, hb, heq⟩ := Option.map_eq_some_iff.1 hget.symm
  exact ⟨b, hb, heq.symm⟩

theorem exists_mem_of_map_eq_map {γ : Type} {f : α → γ} {g : β → γ} {l : List α} {bs : List β}
    (h : l.map f = bs.map g) {b : β} (hb : b ∈ bs) : ∃ a ∈ l, f a = g b :=
  List.mem_map.1 (h ▸ List.mem_map_of_mem hb)

/-- Numbering the elements of a list changes its traversal in the errors only. -/
theorem mapM_zipIdx_eq_ok_iff {γ : Type} {f : α → Nat → Except ε β} {g : α → γ} {h : β → γ}
    (hf : ∀ a n b, f a n = .ok b ↔ g a = h b) {l : List α} {k : Nat} {bs : List β} :
    (l.zipIdx k).mapM (fun (a, n) => f a n) = .ok bs ↔ l.map g = bs.map h := by
  rw [mapM_eq_ok_iff]
  induction l generalizing k bs with
  | nil => cases bs <;> simp
  | cons a l ih => cases bs <;> simp [hf, ih]

end

end CodeMap
