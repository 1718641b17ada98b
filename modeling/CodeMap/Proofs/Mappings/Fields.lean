import CodeMap.Mappings
import Mathlib.Data.List.Basic

/-! # Splitting at a separator

How many fields there are and how they go on when text is put behind. -/

namespace CodeMap.Text
variable {α : Type} [DecidableEq α] {a : α}

theorem length_splitOn (a : α) (xs : List α) : (xs.splitOn a).length = xs.count a + 1 := by
  induction xs with
  | nil => rfl
  | cons x xs ih =>
    rw [List.splitOn_cons_eq_if_modifyHead]
    by_cases h : x = a <;> simp [h, ih]

theorem not_mem_of_mem_splitOn {xs l : List α} (h : l ∈ xs.splitOn a) : a ∉ l := by
  induction xs generalizing l with
  | nil => simp_all
  | cons x xs ih =>
    rw [List.splitOn_cons_eq_if_modifyHead] at h
    by_cases hx : x = a
    · rcases List.mem_cons.1 (by simpa [hx] using h) with rfl | h
      · simp
      · exact ih h
    · obtain ⟨f, fs, hf⟩ := List.exists_cons_of_ne_nil (List.splitOn_ne_nil a xs)
      rcases List.mem_cons.1 (by simpa [hx, hf] using h) with rfl | h
      · simpa [Ne.symm hx] using ih (l := f) (by simp [hf])
      · exact ih (by simp [hf, h])

/-- The last field holds no separator and has one field before it for each of them. -/
theorem exists_last_field (a : α) (xs : List α) :
    ∃ init last, xs.splitOn a = init ++ [last] ∧ a ∉ last ∧ init.length = xs.count a := by
  rcases List.eq_nil_or_concat' (xs.splitOn a) with h | ⟨init, last, h⟩
  · exact absurd h (List.splitOn_ne_nil a xs)
  · have hlen := length_splitOn a xs
    rw [h, List.length_append, List.length_singleton] at hlen
    exact ⟨init, last, h, not_mem_of_mem_splitOn (h ▸ by simp : last ∈ xs.splitOn a), Nat.succ.inj hlen⟩

/-- Text without a separator that is put in front belongs to the first field. -/
theorem splitOn_append_of_not_mem {xs : List α} (h : a ∉ xs) (ys : List α) :
    (xs ++ ys).splitOn a = (ys.splitOn a).modifyHead (xs ++ ·) := by
  induction xs with
  | nil => exact (congrFun List.modifyHead_id _).symm
  | cons x xs ih =>
    obtain ⟨hx, hxs⟩ : a ≠ x ∧ a ∉ xs := by simpa using h
    rw [List.cons_append, List.splitOn_cons_eq_if_modifyHead, ih hxs, if_neg (by simpa using hx.symm),
      List.modifyHead_modifyHead]
    rfl

/-- Text that is put behind goes on with the last field. -/
theorem splitOn_append {xs last : List α} {init : List (List α)} (ys : List α)
    (h : xs.splitOn a = init ++ [last]) :
    (xs ++ ys).splitOn a = init ++ (last ++ ys).splitOn a := by
  have hx : xs = [a].intercalate (init ++ [last]) := by rw [← h, List.intercalate_splitOn]
  have hmem : ∀ l ∈ init ++ [last], a ∉ l := fun l hl => not_mem_of_mem_splitOn (h ▸ hl)
  clear h
  induction init generalizing xs with
  | nil => simp [hx]
  | cons f init ih =>
    rw [List.cons_append, List.intercalate_cons_of_ne_nil (by simp), List.append_assoc,
      List.singleton_append] at hx
    rw [hx, List.append_assoc, List.cons_append,
      List.splitOn_append_cons_self_of_not_mem (hmem f (by simp)),
      ih rfl fun l hl => hmem l (List.mem_cons_of_mem f hl), List.cons_append]

theorem flatten_sublist_intercalate {β : Type} (sep : List β) (ls : List (List β)) :
    ls.flatten.Sublist (sep.intercalate ls) := by
  induction ls with
  | nil => exact List.Sublist.slnil
  | cons l ls ih =>
    rcases eq_or_ne ls [] with rfl | hne
    · simp
    · rw [List.intercalate_cons_of_ne_nil hne, List.append_assoc, List.flatten_cons]
      exact (List.Sublist.refl l).append (ih.trans (List.sublist_append_right sep _))

/-- The fields, one behind the other, are the text without some characters. -/
theorem flatten_splitOn_sublist (a : α) (xs : List α) : (xs.splitOn a).flatten.Sublist xs := by
  have h := flatten_sublist_intercalate [a] (xs.splitOn a)
  rwa [List.intercalate_splitOn] at h

/-! ### Joining -/

variable {sep : Char} {front back : List (List Char)}

theorem joinFields_cons (f : List Char) (h : back ≠ []) :
    joinFields sep (f :: back) = f ++ sep :: joinFields sep back := by
  rw [joinFields, List.intercalate_cons_of_ne_nil h, List.append_assoc]
  rfl

theorem joinFields_append (hfront : front ≠ []) (hback : back ≠ []) :
    joinFields sep (front ++ back) = joinFields sep front ++ sep :: joinFields sep back := by
  induction front with
  | nil => exact absurd rfl hfront
  | cons f front ih =>
    by_cases hnil : front = []
    · have hsingle : joinFields sep [f] = f := List.intercalate_singleton
      rw [hnil, List.singleton_append, joinFields_cons f hback, hsingle]
    · have hne : front ++ back ≠ [] := List.append_ne_nil_of_right_ne_nil front hback
      rw [List.cons_append, joinFields_cons f hne, ih hnil, joinFields_cons f hnil, List.append_assoc]
      rfl

/-- Every empty field in front of others is one separator more. -/
theorem joinFields_replicate_append (n : Nat) (h : back ≠ []) :
    joinFields sep (List.replicate n [] ++ back) = List.replicate n sep ++ joinFields sep back := by
  induction n with
  | zero => rfl
  | succ n ih =>
    have hne : List.replicate n [] ++ back ≠ [] := List.append_ne_nil_of_right_ne_nil _ h
    rw [List.replicate_succ, List.cons_append, joinFields_cons [] hne, ih]
    rfl

/-- Every empty field behind others is one separator more. -/
theorem joinFields_append_replicate (h : front ≠ []) (n : Nat) :
    joinFields sep (front ++ List.replicate n []) = joinFields sep front ++ List.replicate n sep := by
  induction n with
  | zero => simp
  | succ n ih =>
    have hne : front ++ List.replicate n [] ≠ [] := List.append_ne_nil_of_left_ne_nil h _
    rw [List.replicate_succ', ← List.append_assoc, joinFields_append hne (List.cons_ne_nil [] []), ih,
      List.replicate_succ', List.append_assoc]
    rfl

theorem mem_joinFields {c : Char} {fs : List (List Char)} (h : c ∈ joinFields sep fs) :
    c = sep ∨ ∃ f ∈ fs, c ∈ f := by
  induction fs with
  | nil => simp [joinFields] at h
  | cons f fs ih =>
    cases fs with
    | nil => exact .inr ⟨f, List.mem_singleton_self f, by simpa [joinFields] using h⟩
    | cons g fs =>
      rw [joinFields, List.intercalate_cons_cons, List.append_assoc, List.mem_append] at h
      rcases h with h | h
      · exact .inr ⟨f, List.mem_cons_self, h⟩
      · rcases List.mem_cons.1 h with rfl | h
        · exact .inl rfl
        · exact (ih h).imp_right fun ⟨f', hf', hc⟩ => ⟨f', List.mem_cons_of_mem f hf', hc⟩

end CodeMap.Text
