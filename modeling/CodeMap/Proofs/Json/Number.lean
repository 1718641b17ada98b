import CodeMap.Json.Lexeme
import Mathlib.Data.List.TakeWhile

/-! # Numbers in JSON text

Where the digits at the front of a text end (`digits_eq_iff`), and by which text behind them they
become part of a floating-point number (`floatPart?_eq_none_iff`). A text that starts with a digit
is scanned as a number (`scan_of_startsWithDigit`, `scan_minus`). -/

namespace CodeMap.Json

/-! ### Digits -/

/-- A text that starts with a digit. -/
def StartsWithDigit (cs : List Char) : Prop := ∃ d rest, cs = d :: rest ∧ d.isDigit = true

@[simp] theorem startsWithDigit_cons {c : Char} {cs : List Char} :
    StartsWithDigit (c :: cs) ↔ c.isDigit = true := by
  simp [StartsWithDigit]

theorem digits_fst_eq_nil_iff {cs : List Char} : (digits cs).1 = [] ↔ ¬ StartsWithDigit cs := by
  unfold digits StartsWithDigit
  cases cs <;> simp [List.takeWhile_cons]

theorem digits_eq_iff {cs ds rest : List Char} :
    digits cs = (ds, rest) ↔
      cs = ds ++ rest ∧ (∀ d ∈ ds, d.isDigit = true) ∧ ¬ StartsWithDigit rest := by
  constructor
  · intro h
    obtain ⟨rfl, rfl⟩ := Prod.mk.inj h
    refine ⟨List.takeWhile_append_dropWhile.symm, fun d hd => List.mem_takeWhile_imp hd, ?_⟩
    rintro ⟨d, after, hd, hdigit⟩
    have := List.head?_dropWhile_not Char.isDigit cs
    simp [hd, hdigit] at this
  · rintro ⟨rfl, hds, hrest⟩
    replace hrest : rest.takeWhile Char.isDigit = [] := digits_fst_eq_nil_iff.2 hrest
    have hdrop := List.takeWhile_append_dropWhile (p := Char.isDigit) (l := rest)
    rw [hrest, List.nil_append] at hdrop
    rw [digits, List.takeWhile_append_of_pos hds, List.dropWhile_append_of_pos hds, hrest, hdrop,
      List.append_nil]

/-- A text by which the digits before it become part of a floating-point number. -/
inductive GoesOn : List Char → Prop
  | fraction {cs : List Char} : StartsWithDigit cs → GoesOn ('.' :: cs)
  | exponent {e : Char} {cs : List Char} : e = 'e' ∨ e = 'E' → StartsWithDigit cs → GoesOn (e :: cs)
  | minusExponent {e : Char} {cs : List Char} : e = 'e' ∨ e = 'E' → StartsWithDigit cs →
    GoesOn (e :: '-' :: cs)
  | plusExponent {e : Char} {cs : List Char} : e = 'e' ∨ e = 'E' → StartsWithDigit cs →
    GoesOn (e :: '+' :: cs)

theorem fractionPart?_eq_none_iff {cs : List Char} :
    fractionPart? cs = none ↔ ∀ rest, cs = '.' :: rest → ¬ StartsWithDigit rest := by
  unfold fractionPart?
  split
  · simp [digits_fst_eq_nil_iff]
  · simp_all

theorem startsWithDigit_exponentSign {cs : List Char} :
    StartsWithDigit (exponentSign cs).2 ↔
      StartsWithDigit cs ∨ ∃ rest, (cs = '-' :: rest ∨ cs = '+' :: rest) ∧ StartsWithDigit rest := by
  unfold exponentSign
  split
  · simp [Char.isDigit]
  · simp [Char.isDigit]
  · simp_all

theorem exponentPart?_eq_none_iff {cs : List Char} :
    exponentPart? cs = none ↔ ∀ e rest, cs = e :: rest → e = 'e' ∨ e = 'E' →
      ¬ StartsWithDigit (exponentSign rest).2 := by
  unfold exponentPart?
  cases cs with
  | nil => simp
  | cons e rest => by_cases he : e = 'e' ∨ e = 'E' <;> simp [he, digits_fst_eq_nil_iff]

theorem floatPart?_eq_none_iff {cs : List Char} : floatPart? cs = none ↔ ¬ GoesOn cs := by
  have hparts : floatPart? cs = none ↔ fractionPart? cs = none ∧ exponentPart? cs = none := by
    unfold floatPart?
    cases fractionPart? cs with
    | none => simp
    | some fraction => cases h : exponentPart? fraction.2 <;> simp [h]
  rw [hparts, fractionPart?_eq_none_iff, exponentPart?_eq_none_iff]
  constructor
  · rintro ⟨hfraction, hexponent⟩ h
    cases h with
    | fraction hd => exact hfraction _ rfl hd
    | exponent he hd => exact hexponent _ _ rfl he (startsWithDigit_exponentSign.2 (.inl hd))
    | minusExponent he hd =>
      exact hexponent _ _ rfl he (startsWithDigit_exponentSign.2 (.inr ⟨_, .inl rfl, hd⟩))
    | plusExponent he hd =>
      exact hexponent _ _ rfl he (startsWithDigit_exponentSign.2 (.inr ⟨_, .inr rfl, hd⟩))
  · refine fun h => ⟨?_, ?_⟩
    · rintro rest rfl hd
      exact h (.fraction hd)
    · rintro e rest rfl he hd
      rcases startsWithDigit_exponentSign.1 hd with hd | ⟨rest, rfl | rfl, hd⟩
      · exact h (.exponent he hd)
      · exact h (.minusExponent he hd)
      · exact h (.plusExponent he hd)

/-! ### The lexeme -/

theorem integerPart?_of_digits {cs ds rest : List Char} (h : digits cs = (ds, rest))
    (hne : ds ≠ []) (hhead : ds.head? ≠ some '0') : integerPart? cs = some (ds, rest) := by
  unfold integerPart?
  split
  · obtain ⟨hcs, -, -⟩ := digits_eq_iff.1 h
    obtain ⟨d, ds, rfl⟩ := List.exists_cons_of_ne_nil hne
    exact absurd (congrArg some (List.cons.inj hcs).1.symm) hhead
  · rw [h, if_neg hne]

theorem StartsWithDigit.dropWhile_isBlank {cs : List Char} (h : StartsWithDigit cs) :
    cs.dropWhile isBlank = cs := by
  obtain ⟨d, rest, rfl, hd⟩ := h
  refine List.dropWhile_cons_of_neg fun hblank => ?_
  simp only [isBlank, Bool.or_eq_true, decide_eq_true_eq] at hblank
  rcases hblank with ((rfl | rfl) | rfl) | rfl <;> exact absurd hd (by decide)

theorem exists_of_mem_words {w : List Char × Json} (h : w ∈ words) :
    ∃ a b rest, w.1 = a :: b :: rest ∧ a.isDigit = false ∧ b.isDigit = false := by
  simp only [words, List.mem_cons, List.not_mem_nil, or_false] at h
  rcases h with rfl | rfl | rfl | rfl | rfl | rfl <;> exact ⟨_, _, _, rfl, rfl, rfl⟩

/-- No word starts with a digit, nor with a sign and a digit. -/
theorem word?_eq_none {cs : List Char} (h : StartsWithDigit cs ∨ StartsWithDigit cs.tail) :
    word? cs = none := by
  rw [word?, List.find?_eq_none]
  intro w hw hprefix
  obtain ⟨a, b, rest, hab, ha, hb⟩ := exists_of_mem_words hw
  obtain ⟨after, rfl⟩ := List.isPrefixOf_iff_prefix.1 hprefix
  rw [hab] at h
  simp [ha, hb] at h

theorem punctuation?_eq_none {c : Char} (h : c.isDigit = true) : punctuation? c = none := by
  unfold punctuation?
  split <;> first | rfl | exact absurd h (by decide)

theorem scan_of_startsWithDigit {cs : List Char} (h : StartsWithDigit cs) :
    scan cs = number false cs := by
  have hword := word?_eq_none (.inl h)
  obtain ⟨d, rest, rfl, hd⟩ := h
  have hquote : d ≠ '"' := by rintro rfl; exact absurd hd (by decide)
  have hminus : d ≠ '-' := by rintro rfl; exact absurd hd (by decide)
  simp only [scan, hquote, hminus, punctuation?_eq_none hd, hword, ↓reduceIte]

theorem scan_minus {cs : List Char} (h : StartsWithDigit cs) : scan ('-' :: cs) = number true cs := by
  have hword : word? ('-' :: cs) = none := word?_eq_none (.inr h)
  have hpunctuation : punctuation? '-' = none := rfl
  simp only [scan, hpunctuation, hword, Char.reduceEq, ↓reduceIte]

end CodeMap.Json
