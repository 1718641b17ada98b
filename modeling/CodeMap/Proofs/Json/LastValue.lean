import CodeMap.Json.Value
import Mathlib.Data.List.Basic

/-! # The last value of a key

Merging the members of an object keeps the last value of each key and nothing else of them
(`lookup_merged`): neither the order of the members nor the earlier values of a key can be seen
through a lookup. -/

namespace CodeMap.Json

/-- The last value that members give to a key, with the objects inside it merged. -/
def lastValue? (key : String) (members : List (String × Json)) : Option Json :=
  (members.reverse.lookup key).map merged

section
variable {key k : String} {v : Json} {members : List (String × Json)}

theorem lookup_cons_of_ne (h : key ≠ k) (v : Json) (members : List (String × Json)) :
    ((k, v) :: members).lookup key = members.lookup key := by
  rw [List.lookup_cons, beq_false_of_ne h]

theorem lookup_put_self : (put key v members).lookup key = some v := by
  induction members with
  | nil => exact List.lookup_cons_self
  | cons m members ih =>
    rw [put]
    split
    · exact List.lookup_cons_self
    · rename_i hne
      rw [lookup_cons_of_ne (Ne.symm hne)]
      exact ih

theorem lookup_put_of_ne (h : key ≠ k) : (put k v members).lookup key = members.lookup key := by
  induction members with
  | nil => exact lookup_cons_of_ne h v []
  | cons m members ih =>
    obtain ⟨k', v'⟩ := m
    rw [put]
    split
    · rename_i heq
      obtain rfl : k' = k := heq
      rw [lookup_cons_of_ne h, lookup_cons_of_ne h]
    · by_cases hk : key = k'
      · subst hk
        rw [List.lookup_cons_self, List.lookup_cons_self]
      · rw [lookup_cons_of_ne hk, lookup_cons_of_ne hk]
        exact ih

/-- A value that is put in later hides those before it. -/
theorem lookup_foldl_put (done : List (String × Json)) :
    (members.foldl (fun done (k, v) => put k v done) done).lookup key =
      (members.reverse.lookup key).or (done.lookup key) := by
  induction members generalizing done with
  | nil => rfl
  | cons m members ih =>
    obtain ⟨k, v⟩ := m
    rw [List.foldl_cons, List.reverse_cons, List.lookup_append, Option.or_assoc]
    show (members.foldl (fun done (k, v) => put k v done) (put k v done)).lookup key = _
    rw [ih]
    by_cases h : key = k
    · subst h
      rw [lookup_put_self, List.lookup_cons_self, Option.some_or]
    · rw [lookup_put_of_ne h, lookup_cons_of_ne h]
      rfl

theorem mergedMembers_eq_map : mergedMembers members = members.map fun m => (m.1, m.2.merged) := by
  induction members with
  | nil => rfl
  | cons m members ih => rw [mergedMembers, ih, List.map_cons]

theorem lookup_map_snd (f : Json → Json) :
    (members.map fun m => (m.1, f m.2)).lookup key = (members.lookup key).map f := by
  induction members with
  | nil => rfl
  | cons m members ih =>
    obtain ⟨k, v⟩ := m
    rw [List.map_cons]
    by_cases h : key = k
    · subst h
      rw [List.lookup_cons_self, List.lookup_cons_self, Option.map_some]
    · rw [lookup_cons_of_ne h, lookup_cons_of_ne h]
      exact ih

/-- What an object holds under a key after merging is the key's last value. -/
theorem lookup_merged (key : String) (members : List (String × Json)) :
    (dedup (mergedMembers members)).lookup key = lastValue? key members := by
  rw [dedup, lookup_foldl_put, mergedMembers_eq_map, ← List.map_reverse, lookup_map_snd]
  exact Option.or_none

end

end CodeMap.Json
