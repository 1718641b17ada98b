import CodeMap.Proofs.Quantity.RoundTrip
import CodeMap.Report

/-! # Canonical text of quantities

What is written is the shortest text that is read as the same integers. A text is written again as it
was if and only if it is canonical: no group stands for a negative zero, and none ends without payload
behind other characters. `encode_canonical` states this and both round trips with their limit. -/

namespace CodeMap.Quantity

theorem encodeTotal_of_lt {n : Nat} (h : n < 32) : encodeTotal n = [Base64.digit n] := by
  rw [encodeTotal, if_pos h]

/-- A total takes no more characters than five bits each need. -/
theorem length_encodeTotal_le {n k : Nat} (hk : k ≠ 0) (h : n < 32 ^ k) :
    (encodeTotal n).length ≤ k := by
  induction n using encodeTotal.induct generalizing k with
  | case1 n hlt =>
    rw [encodeTotal_of_lt hlt]
    exact Nat.pos_of_ne_zero hk
  | case2 n hlt ih =>
    obtain ⟨j, rfl⟩ := Nat.exists_eq_succ_of_ne_zero hk
    have hj : j ≠ 0 := by
      rintro rfl
      exact hlt (by simpa using h)
    rw [encodeTotal, if_neg hlt, List.length_cons]
    exact Nat.succ_le_succ (ih hj (Nat.div_lt_of_lt_mul (by rwa [← Nat.pow_succ'])))

/-! ### The last character of a group -/

section
variable {pending : List Char} {c : Char}

theorem digit_payload (h : Continues c) : Base64.digit (32 + payload c) = c := by
  obtain ⟨d, hd, hge⟩ := continues_iff.1 h
  have hlt := Base64.value?_lt hd
  have heq : 32 + d % 32 = d := by omega
  rw [payload_eq hd, heq, Base64.digit_of_value? hd]

theorem digit_payload_of_ends (h : Ends c) : Base64.digit (payload c) = c := by
  obtain ⟨d, hd, hlt⟩ := ends_iff.1 h
  rw [payload_eq hd, Nat.mod_eq_of_lt hlt, Base64.digit_of_value? hd]

theorem payload_lt (c : Char) : payload c < 32 := Nat.mod_lt _ (by decide)

theorem total_pos (hc : Ends c) (hne : c ≠ 'A') : 0 < total (pending ++ [c]) := by
  have hpayload : 0 < payload c := by
    refine Nat.pos_of_ne_zero fun hzero => hne ?_
    rw [← digit_payload_of_ends hc, hzero]
    rfl
  rw [total_append, total_singleton]
  exact Nat.add_pos_right _ (Nat.mul_pos (Nat.pow_pos (by decide)) hpayload)

/-- A group is the shortest one with its total if it is one character or its last one has payload. -/
theorem encodeTotal_total (hpending : ∀ a ∈ pending, Continues a) (hc : Ends c)
    (hshort : pending = [] ∨ c ≠ 'A') : encodeTotal (total (pending ++ [c])) = pending ++ [c] := by
  induction pending with
  | nil =>
    rw [List.nil_append, total_singleton, encodeTotal_of_lt (payload_lt c),
      digit_payload_of_ends hc]
  | cons a pending ih =>
    obtain ⟨ha, hpending⟩ := List.forall_mem_cons.1 hpending
    have hne : c ≠ 'A' := hshort.resolve_left (List.cons_ne_nil _ _)
    have hlt := payload_lt a
    have hpos : 0 < total (pending ++ [c]) := total_pos hc hne
    have hmod : (payload a + 32 * total (pending ++ [c])) % 32 = payload a := by omega
    have hdiv : (payload a + 32 * total (pending ++ [c])) / 32 = total (pending ++ [c]) := by omega
    rw [List.cons_append, total_cons, encodeTotal, if_neg (by omega), hmod, hdiv,
      digit_payload ha, ih hpending (.inr hne)]

theorem total_append_A (pending : List Char) : total (pending ++ ['A']) = total pending := by
  rw [total_append]
  exact Nat.add_zero _

end

/-! ### Writing a group again -/

theorem toTotal_ofTotal (n : Nat) : toTotal (ofTotal n) = if n = 1 then 0 else n := by
  unfold toTotal ofTotal
  split_ifs <;> omega

/-- The shortest group for the integer that a group stands for. -/
def canonical (g : List Char) : List Char := encodeTotal (toTotal (ofTotal (total g)))

theorem encode_values (gs : List (List Char)) : encode (values gs) = (gs.map canonical).flatten := by
  rw [← flatten_encodedGroups, encodedGroups, values, List.map_map]
  rfl

theorem isGroup_of_mem_map_canonical {gs : List (List Char)} {g : List Char}
    (h : g ∈ gs.map canonical) : IsGroup g := by
  obtain ⟨g, -, rfl⟩ := List.mem_map.1 h
  exact isGroup_encodeTotal _

section
variable {g : List Char}

theorem length_canonical_le_of_lt {k : Nat} (hk : k ≠ 0) (h : total g < 32 ^ k) :
    (canonical g).length ≤ k := by
  refine length_encodeTotal_le hk (Nat.lt_of_le_of_lt ?_ h)
  rw [toTotal_ofTotal]
  split <;> omega

theorem length_canonical_le (hg : IsGroup g) : (canonical g).length ≤ g.length :=
  length_canonical_le_of_lt (List.length_eq_zero_iff.not.2 hg.ne_nil) (total_lt g)

theorem canonical_append_A_ne {pending : List Char} (hne : pending ≠ []) :
    canonical (pending ++ ['A']) ≠ pending ++ ['A'] := by
  intro heq
  have hlt : total (pending ++ ['A']) < 32 ^ pending.length := by
    rw [total_append_A]
    exact total_lt pending
  have hle := length_canonical_le_of_lt (List.length_eq_zero_iff.not.2 hne) hlt
  rw [heq, List.length_append, List.length_singleton] at hle
  exact Nat.not_succ_le_self _ hle

/-- The total of a negative zero is the only one that is not written again. -/
theorem canonical_eq_iff_of_shortest (h : encodeTotal (total g) = g) :
    canonical g = g ↔ g ≠ ['B'] := by
  rw [canonical, toTotal_ofTotal]
  split_ifs with hone
  · have hB : g = ['B'] := by
      rw [← h, hone, encodeTotal_of_lt (by decide)]
      rfl
    rw [hB, encodeTotal_of_lt (by decide)]
    decide
  · refine iff_of_true h ?_
    rintro rfl
    exact hone rfl

/-- A group is changed if it stands for a negative zero or is longer than it needs to be. -/
theorem canonical_eq_iff (hg : IsGroup g) :
    canonical g = g ↔ g ≠ ['B'] ∧ ¬ (2 ≤ g.length ∧ g.getLast? = some 'A') := by
  obtain ⟨pending, c, hpending, hc, rfl⟩ := hg
  have hpadded : 2 ≤ (pending ++ [c]).length ∧ (pending ++ [c]).getLast? = some 'A' ↔
      pending ≠ [] ∧ c = 'A' := by
    rw [List.getLast?_concat, Option.some_inj, List.length_append, ← List.length_pos_iff]
    exact and_congr_left fun _ => Nat.succ_le_succ_iff
  rw [hpadded]
  by_cases h : pending ≠ [] ∧ c = 'A'
  · obtain ⟨hne, rfl⟩ := h
    exact iff_of_false (canonical_append_A_ne hne) fun h' => h'.2 ⟨hne, rfl⟩
  · rw [and_iff_left h]
    refine canonical_eq_iff_of_shortest (encodeTotal_total hpending hc ?_)
    exact (Decidable.not_and_iff_or_not.1 h).imp_left Decidable.not_not.1

theorem flatten_map_canonical_eq_iff {gs : List (List Char)} (hgs : ∀ g ∈ gs, IsGroup g) :
    (gs.map canonical).flatten = gs.flatten ↔ ∀ g ∈ gs, canonical g = g := by
  constructor
  · intro h
    -- equal texts are cut into equal groups
    have hgroups := congrArg groups h
    rw [groups_flatten hgs, groups_flatten fun g => isGroup_of_mem_map_canonical] at hgroups
    exact List.map_inj_left.1 (hgroups.trans (List.map_id gs).symm)
  · intro h
    rw [List.map_congr_left h, List.map_id']

theorem length_flatten_map_canonical_le {gs : List (List Char)} (hgs : ∀ g ∈ gs, IsGroup g) :
    (gs.map canonical).flatten.length ≤ gs.flatten.length := by
  induction gs with
  | nil => exact Nat.le_refl 0
  | cons g gs ih =>
    obtain ⟨hg, hgs⟩ := List.forall_mem_cons.1 hgs
    rw [List.map_cons, List.flatten_cons, List.flatten_cons, List.length_append, List.length_append]
    exact Nat.add_le_add (length_canonical_le hg) (ih hgs)

end

theorem decode_encode_of_lt {vs : List Int} (h : ∃ v ∈ vs, maxValue < v.natAbs) :
    decode (encode vs) = .error .tooLarge := by
  obtain ⟨v, hv, hlt⟩ := h
  have hover : ∃ g ∈ encodedGroups vs, maxTotal < total g := by
    refine ⟨_, List.mem_map_of_mem hv, ?_⟩
    rw [total_encodeTotal]
    exact Nat.not_le.1 fun hle => Nat.not_le.2 hlt (toTotal_le_iff.1 hle)
  have hgroups : ∀ g ∈ encodedGroups vs, IsGroup g := fun g => isGroup_of_mem_encodedGroups
  have hdecode := decode_flatten_append hgroups (List.forall_mem_nil Continues) []
  rwa [if_pos (.inl hover), List.append_nil, List.append_nil, flatten_encodedGroups] at hdecode

/-- What a text holds is written with no more characters, and with the same ones if and only if every
group is the shortest for its integer. -/
theorem encode_of_decode {cs : List Char} {vs : List Int} (h : decode cs = .ok vs) :
    (encode vs).length ≤ cs.length ∧
      (encode vs = cs ↔ ∀ g ∈ groups cs, g ≠ ['B'] ∧ ¬ (2 ≤ g.length ∧ g.getLast? = some 'A')) := by
  obtain ⟨gs, rfl, hgs, -, rfl⟩ := decode_eq_ok_iff.1 h
  rw [encode_values, groups_flatten hgs, flatten_map_canonical_eq_iff hgs]
  exact ⟨length_flatten_map_canonical_le hgs, forall₂_congr fun g hg => canonical_eq_iff (hgs g hg)⟩

/-- Integers of at most 30 bits are read as they were written, a larger one is refused. A text that is
read is written again with no more characters and read as the same integers, and it is the text
written if and only if no group is a negative zero or ends without payload behind other characters. -/
theorem encode_canonical :
    (∀ vs : List Int, (∀ v ∈ vs, v.natAbs ≤ 2 ^ 30 - 1) → decode (encode vs) = .ok vs) ∧
    (∀ vs : List Int, (∃ v ∈ vs, 2 ^ 30 ≤ v.natAbs) →
      decode (encode vs) = .error .tooLarge ∧ Fault.tooLarge.failure.code.label = "M0004") ∧
    ∀ (cs : List Char) (vs : List Int), decode cs = .ok vs →
      decode (encode vs) = .ok vs ∧ (encode vs).length ≤ cs.length ∧
      (encode vs = cs ↔
        (∀ g ∈ groups cs, g ≠ ['B']) ∧ ¬ ∃ g ∈ groups cs, 2 ≤ g.length ∧ g.getLast? = some 'A') := by
  refine ⟨fun vs => decode_encode, fun vs hlarge => ⟨decode_encode_of_lt hlarge, rfl⟩, ?_⟩
  intro cs vs h
  obtain ⟨hlength, hsame⟩ := encode_of_decode h
  refine ⟨decode_encode (natAbs_le_of_decode h), hlength, hsame.trans ?_⟩
  rw [forall₂_and]
  push Not
  rfl

/-- The text starts with a zero of two characters and a negative zero. -/
theorem encode_canonical_padded_zeros :
    decode (encode [0, -3, 16]) = .ok [0, -3, 16] ∧
    decode (encode [5, -2 ^ 30]) = .error .tooLarge ∧
    decode ['g', 'A', 'B', 'D'] = .ok [0, 0, -1] ∧
    decode (encode [0, 0, -1]) = .ok [0, 0, -1] ∧ (encode [0, 0, -1]).length ≤ 4 ∧
    encode [0, 0, -1] ≠ ['g', 'A', 'B', 'D'] := by
  obtain ⟨hsmall, hlarge, htext⟩ := encode_canonical
  have hread : decode ['g', 'A', 'B', 'D'] = .ok [0, 0, -1] := by decide
  obtain ⟨hagain, hlength, hsame⟩ := htext _ _ hread
  refine ⟨hsmall _ (by decide), (hlarge _ (by decide)).1, hread, hagain, hlength, fun heq => ?_⟩
  exact absurd ((hsame.1 heq).1 ['B']) (by decide)

end CodeMap.Quantity
