import CodeMap.Quantity
import Mathlib.Data.List.SplitBy
import Mathlib.Data.Nat.Digits.Defs
import Mathlib.Tactic.Ring

/-! # Groups of characters

A group is a run of characters that continue it with one that ends it; `groups` cuts a text behind
every character that does not continue. The total of a group is the sum of the payloads of its
characters, each 32 times as much worth as the one before. Reading takes a whole group at a time
(`decode_group`), and a text is read if and only if it is made of groups with small totals
(`decode_eq_ok_iff`). -/

namespace CodeMap

theorem Base64.mem_alphabet_iff {c : Char} : c ∈ alphabet ↔ ∃ d, value? c = some d := by
  rw [value?, ← Option.isSome_iff_exists, List.isSome_idxOf?]

namespace Quantity

/-! ### Characters -/

/-- A character of the alphabet with its sixth bit set. -/
def Continues (c : Char) : Prop := ∃ d ∈ Base64.value? c, d.testBit 5 = true

/-- A character of the alphabet with its sixth bit clear. -/
def Ends (c : Char) : Prop := ∃ d ∈ Base64.value? c, d.testBit 5 = false

instance (c : Char) : Decidable (Continues c) := inferInstanceAs (Decidable (∃ d ∈ _, _))

instance (c : Char) : Decidable (Ends c) := inferInstanceAs (Decidable (∃ d ∈ _, _))

/-- The five low bits of a character of the alphabet. -/
def payload (c : Char) : Nat := (Base64.value? c).getD 0 % 32

theorem testBit_five : ∀ d < 64, d.testBit 5 = decide (32 ≤ d) := by decide

section
variable {c : Char}

theorem continues_iff : Continues c ↔ ∃ d, Base64.value? c = some d ∧ 32 ≤ d := by
  refine exists_congr fun d => and_congr_right fun hd => ?_
  rw [testBit_five d (Base64.value?_lt hd), decide_eq_true_iff]

theorem ends_iff : Ends c ↔ ∃ d, Base64.value? c = some d ∧ d < 32 := by
  refine exists_congr fun d => and_congr_right fun hd => ?_
  rw [testBit_five d (Base64.value?_lt hd), decide_eq_false_iff_not, Nat.not_le]

theorem Ends.not_continues (h : Ends c) : ¬ Continues c := by
  obtain ⟨d, hd, hclear⟩ := h
  rintro ⟨e, he, hset⟩
  rw [Option.mem_unique he hd, hclear] at hset
  cases hset

theorem mem_alphabet_iff : c ∈ Base64.alphabet ↔ Continues c ∨ Ends c := by
  rw [Base64.mem_alphabet_iff, continues_iff, ends_iff, ← exists_or]
  refine exists_congr fun d => ?_
  rw [← and_or_left, and_iff_left (Nat.lt_or_ge d 32).symm]

theorem payload_eq {d : Nat} (h : Base64.value? c = some d) : payload c = d % 32 := by
  rw [payload, h, Option.getD_some]

end

/-! ### Totals -/

/-- The sum of the payloads of some characters, the first one with the lowest bits. -/
def total (cs : List Char) : Nat := Nat.ofDigits 32 (cs.map payload)

theorem total_nil : total [] = 0 := rfl

theorem total_cons (c : Char) (cs : List Char) : total (c :: cs) = payload c + 32 * total cs := by
  rw [total, List.map_cons, Nat.ofDigits_cons, total]

theorem total_append (front back : List Char) :
    total (front ++ back) = total front + 32 ^ front.length * total back := by
  rw [total, List.map_append, Nat.ofDigits_append, List.length_map, total, total]

theorem total_singleton (c : Char) : total [c] = payload c := by
  rw [total_cons, total_nil, Nat.mul_zero, Nat.add_zero]

theorem total_lt (cs : List Char) : total cs < 32 ^ cs.length := by
  have hdigits : ∀ n ∈ cs.map payload, n < 32 := by
    intro n hn
    obtain ⟨c, -, rfl⟩ := List.mem_map.1 hn
    exact Nat.mod_lt _ (by decide)
  have hlt := Nat.ofDigits_lt_base_pow_length (by decide : 1 < 32) hdigits
  rwa [List.length_map] at hlt

theorem total_prefix_le {part cs : List Char} (h : part <+: cs) : total part ≤ total cs := by
  obtain ⟨back, rfl⟩ := h
  rw [total_append]
  exact Nat.le_add_right _ _

/-! ### Reading one character -/

theorem or_shiftLeft {bits sum : Nat} (h : sum < 2 ^ bits) (n : Nat) :
    sum ||| n <<< bits = sum + n * 2 ^ bits := by
  rw [Nat.or_comm, ← Nat.shiftLeft_add_eq_or_of_lt h, Nat.shiftLeft_eq, Nat.add_comm]

/-- One character of a group, as arithmetic: its payload is added above the bits read before. -/
theorem decodeFrom_cons {bits sum d : Nat} {c : Char} (rest : List Char) (h : sum < 2 ^ bits)
    (hc : Base64.value? c = some d) :
    decodeFrom bits sum (c :: rest) =
      if maxTotal < sum + payload c * 2 ^ bits then .error .tooLarge
      else if d < 32 then (ofTotal (sum + payload c * 2 ^ bits) :: ·) <$> decodeFrom 0 0 rest
      else decodeFrom (bits + 5) (sum + payload c * 2 ^ bits) rest := by
  rw [decodeFrom, hc, payload_eq hc]
  simp only [or_shiftLeft h]

theorem add_payload_lt {bits sum : Nat} (h : sum < 2 ^ bits) (c : Char) :
    sum + payload c * 2 ^ bits < 2 ^ (bits + 5) := by
  have hc : payload c * 2 ^ bits ≤ 31 * 2 ^ bits :=
    Nat.mul_le_mul_right _ (Nat.le_of_lt_succ (Nat.mod_lt _ (by decide)))
  rw [Nat.pow_add]
  omega

/-! ### Reading a group -/

/-- Characters that continue a group only add to its total. -/
theorem decodeFrom_of_continues {pending : List Char} (h : ∀ c ∈ pending, Continues c)
    {bits sum : Nat} (hlt : sum < 2 ^ bits) (hle : sum ≤ maxTotal) (rest : List Char) :
    decodeFrom bits sum (pending ++ rest) =
      if maxTotal < sum + total pending * 2 ^ bits then .error .tooLarge
      else decodeFrom (bits + 5 * pending.length) (sum + total pending * 2 ^ bits) rest := by
  -- the sum stays below `2 ^ bits`, so each payload is added and no bits are shared
  induction pending generalizing bits sum with
  | nil =>
    rw [total_nil, Nat.zero_mul, Nat.add_zero, if_neg (Nat.not_lt.2 hle)]
    rfl
  | cons c pending ih =>
    obtain ⟨hc, hpending⟩ := List.forall_mem_cons.1 h
    obtain ⟨d, hd, hge⟩ := continues_iff.1 hc
    have hsum : sum + payload c * 2 ^ bits + total pending * 2 ^ (bits + 5) =
        sum + total (c :: pending) * 2 ^ bits := by
      rw [total_cons]
      ring
    rw [List.cons_append, decodeFrom_cons _ hlt hd, if_neg (Nat.not_lt.2 hge)]
    split_ifs with hover hover' hover'
    · rfl
    · exact absurd (hsum ▸ Nat.lt_add_right _ hover) hover'
    · rw [ih hpending (add_payload_lt hlt c) (Nat.not_lt.1 hover), hsum, if_pos hover']
    · rw [ih hpending (add_payload_lt hlt c) (Nat.not_lt.1 hover), hsum, if_neg hover',
        List.length_cons]
      congr 1
      omega

theorem decode_of_continues {pending : List Char} (h : ∀ c ∈ pending, Continues c)
    (rest : List Char) :
    decode (pending ++ rest) =
      if maxTotal < total pending then .error .tooLarge
      else decodeFrom (5 * pending.length) (total pending) rest := by
  rw [decode, decodeFrom_of_continues h (by decide) (Nat.zero_le _), Nat.pow_zero, Nat.mul_one,
    Nat.zero_add, Nat.zero_add]

/-- Characters that continue a group with one that ends it. -/
def IsGroup (cs : List Char) : Prop :=
  ∃ pending c, (∀ a ∈ pending, Continues a) ∧ Ends c ∧ cs = pending ++ [c]

theorem decode_group {g : List Char} (hg : IsGroup g) (rest : List Char) :
    decode (g ++ rest) =
      if maxTotal < total g then .error .tooLarge
      else (ofTotal (total g) :: ·) <$> decode rest := by
  obtain ⟨pending, c, hpending, hc, rfl⟩ := hg
  obtain ⟨d, hd, hlt⟩ := ends_iff.1 hc
  have hpow : (2 : Nat) ^ (5 * pending.length) = 32 ^ pending.length := by rw [Nat.pow_mul]
  have htotal : total pending + payload c * 2 ^ (5 * pending.length) = total (pending ++ [c]) := by
    rw [total_append, total_singleton, hpow, Nat.mul_comm]
  have hbits : total pending < 2 ^ (5 * pending.length) := hpow ▸ total_lt pending
  rw [List.append_assoc, List.singleton_append, decode_of_continues hpending]
  split_ifs with hover hover' hover'
  · rfl
  · exact absurd (htotal ▸ Nat.lt_add_right _ hover) hover'
  · rw [decodeFrom_cons rest hbits hd, htotal, if_pos hover']
  · rw [decodeFrom_cons rest hbits hd, htotal, if_neg hover', if_pos hlt]
    rfl

/-- The integers that some groups stand for. -/
def values (gs : List (List Char)) : List Int := gs.map fun g => ofTotal (total g)

theorem decode_flatten_append {gs : List (List Char)} (hgs : ∀ g ∈ gs, IsGroup g)
    {pending : List Char} (hpending : ∀ c ∈ pending, Continues c) (rest : List Char) :
    decode (gs.flatten ++ (pending ++ rest)) =
      if (∃ g ∈ gs, maxTotal < total g) ∨ maxTotal < total pending then .error .tooLarge
      else (values gs ++ ·) <$> decodeFrom (5 * pending.length) (total pending) rest := by
  induction gs with
  | nil =>
    rw [List.flatten_nil, List.nil_append, decode_of_continues hpending]
    by_cases hover : maxTotal < total pending
    · rw [if_pos hover, if_pos (.inr hover)]
    · rw [if_neg hover, if_neg (by simpa using hover)]
      cases decodeFrom (5 * pending.length) (total pending) rest <;> rfl
  | cons g gs ih =>
    obtain ⟨hg, hgs⟩ := List.forall_mem_cons.1 hgs
    rw [List.flatten_cons, List.append_assoc, decode_group hg, ih hgs]
    simp only [List.exists_mem_cons_iff, or_assoc]
    by_cases hover : maxTotal < total g
    · rw [if_pos hover, if_pos (.inl hover)]
    simp only [hover, if_false, false_or]
    split_ifs
    · rfl
    · cases decodeFrom (5 * pending.length) (total pending) rest <;> rfl

/-- Groups with small totals are read, and reading starts anew behind them. -/
theorem decode_flatten_of_le {gs : List (List Char)} (hgs : ∀ g ∈ gs, IsGroup g)
    (hle : ∀ g ∈ gs, total g ≤ maxTotal) (rest : List Char) :
    decode (gs.flatten ++ rest) = (values gs ++ ·) <$> decode rest := by
  have hover : ¬ ((∃ g ∈ gs, maxTotal < total g) ∨ maxTotal < total []) := by
    rintro (⟨g, hg, hlt⟩ | hlt)
    · exact absurd (hle g hg) (Nat.not_le.2 hlt)
    · cases hlt
  have hread := decode_flatten_append hgs (List.forall_mem_nil Continues) rest
  rw [if_neg hover] at hread
  exact hread

/-! ### Reading a text -/

theorem alphabet_or_exists (cs : List Char) : (∀ c ∈ cs, c ∈ Base64.alphabet) ∨
    ∃ front c back, cs = front ++ c :: back ∧ (∀ a ∈ front, a ∈ Base64.alphabet) ∧
      c ∉ Base64.alphabet := by
  cases h : cs.find? (· ∉ Base64.alphabet) with
  | none => exact .inl (by simpa using h)
  | some c =>
    obtain ⟨hc, front, back, hsplit, hfront⟩ := List.find?_eq_some_iff_append.1 h
    exact .inr ⟨front, c, back, hsplit, by simpa using hfront, of_decide_eq_true hc⟩

/-- Characters of the alphabet are some groups and the start of one more. -/
theorem exists_groups {cs : List Char} (h : ∀ c ∈ cs, c ∈ Base64.alphabet) :
    ∃ (gs : List (List Char)) (pending : List Char), cs = gs.flatten ++ pending ∧ (∀ g ∈ gs, IsGroup g) ∧
      ∀ c ∈ pending, Continues c := by
  -- from the right: a character at the end either ends the last group or goes on in it
  induction cs using List.reverseRecOn with
  | nil => exact ⟨[], [], rfl, by simp, by simp⟩
  | append_singleton cs c ih =>
    obtain ⟨hcs, hc⟩ := List.forall_mem_append.1 h
    obtain ⟨gs, pending, rfl, hgs, hpending⟩ := ih hcs
    rcases mem_alphabet_iff.1 (hc c (List.mem_singleton_self c)) with hc | hc
    · exact ⟨gs, pending ++ [c], by simp, hgs, by simpa [or_imp, forall_and] using ⟨hpending, hc⟩⟩
    · refine ⟨gs ++ [pending ++ [c]], [], by simp, ?_, by simp⟩
      intro g hg
      rcases List.mem_append.1 hg with hg | hg
      · exact hgs g hg
      · exact ⟨pending, c, hpending, hc, List.mem_singleton.1 hg⟩

theorem decodeFrom_of_not_mem {c : Char} (h : c ∉ Base64.alphabet) (bits sum : Nat)
    (rest : List Char) : decodeFrom bits sum (c :: rest) = .error (.badCharacter c) := by
  have hnone : Base64.value? c = none := by
    rw [Option.eq_none_iff_forall_ne_some]
    intro d hd
    exact h (Base64.mem_alphabet_iff.2 ⟨d, hd⟩)
  rw [decodeFrom, hnone]

/-- A text is read if and only if it is made of groups with small totals. -/
theorem decode_eq_ok_iff {cs : List Char} {vs : List Int} : decode cs = .ok vs ↔
    ∃ gs : List (List Char), cs = gs.flatten ∧ (∀ g ∈ gs, IsGroup g) ∧
      (∀ g ∈ gs, total g ≤ maxTotal) ∧ vs = values gs := by
  constructor
  · intro h
    rcases alphabet_or_exists cs with halphabet | ⟨front, c, back, rfl, halphabet, hc⟩
    · obtain ⟨gs, pending, rfl, hgs, hpending⟩ := exists_groups halphabet
      rw [← List.append_nil pending, decode_flatten_append hgs hpending, decodeFrom] at h
      split_ifs at h with hover hbits
      · obtain rfl : pending = [] := List.length_eq_zero_iff.1 (by omega)
        refine ⟨gs, List.append_nil _, hgs, fun g hg => ?_, ?_⟩
        · exact Nat.not_lt.1 fun hlt => hover (.inl ⟨g, hg, hlt⟩)
        · exact (Except.ok.inj h).symm.trans (List.append_nil _)
      · cases h
    · obtain ⟨gs, pending, rfl, hgs, hpending⟩ := exists_groups halphabet
      rw [List.append_assoc, decode_flatten_append hgs hpending, decodeFrom_of_not_mem hc] at h
      split_ifs at h
      cases h
  · rintro ⟨gs, rfl, hgs, hle, rfl⟩
    have h := decode_flatten_of_le hgs hle []
    rw [List.append_nil] at h
    rw [h]
    exact congrArg Except.ok (List.append_nil (values gs))

/-! ### Cutting a text into its groups -/

/-- The runs of a text that end behind the characters that do not continue. -/
def groups (cs : List Char) : List (List Char) := cs.splitBy fun c _ => Continues c

theorem pairwise_of_continues {pending : List Char} (h : ∀ c ∈ pending, Continues c) :
    pending.Pairwise fun a _ => decide (Continues a) = true :=
  List.pairwise_of_forall_mem_list fun a ha _ _ => decide_eq_true (h a ha)

theorem isChain_append_singleton {pending : List Char} (h : ∀ c ∈ pending, Continues c) (c : Char) :
    (pending ++ [c]).IsChain fun a _ => decide (Continues a) = true :=
  (List.pairwise_append.2 ⟨pairwise_of_continues h, List.pairwise_singleton _ _,
    fun a ha _ _ => decide_eq_true (h a ha)⟩).isChain

theorem groups_of_continues {pending : List Char} (hne : pending ≠ [])
    (h : ∀ c ∈ pending, Continues c) : groups pending = [pending] :=
  List.splitBy_of_isChain hne (pairwise_of_continues h).isChain

theorem groups_append {g : List Char} (hg : IsGroup g) (rest : List Char) :
    groups (g ++ rest) = g :: groups rest := by
  obtain ⟨pending, c, hpending, hc, rfl⟩ := hg
  have hcut : ∀ x ∈ (pending ++ [c]).getLast?, ∀ y ∈ rest.head?, decide (Continues x) = false := by
    intro x hx y _
    rw [List.getLast?_concat, Option.mem_some_iff] at hx
    exact decide_eq_false (hx ▸ hc.not_continues)
  rw [groups, List.splitBy_append hcut,
    List.splitBy_of_isChain (by simp) (isChain_append_singleton hpending c)]
  rfl

theorem groups_flatten_append {gs : List (List Char)} (hgs : ∀ g ∈ gs, IsGroup g)
    (rest : List Char) : groups (gs.flatten ++ rest) = gs ++ groups rest := by
  induction gs with
  | nil => rfl
  | cons g gs ih =>
    obtain ⟨hg, hgs⟩ := List.forall_mem_cons.1 hgs
    rw [List.flatten_cons, List.append_assoc, groups_append hg, ih hgs, List.cons_append]

theorem groups_flatten {gs : List (List Char)} (hgs : ∀ g ∈ gs, IsGroup g) :
    groups gs.flatten = gs := by
  have h := groups_flatten_append hgs []
  rwa [List.append_nil, groups, groups, List.splitBy_nil, List.append_nil] at h

end Quantity

end CodeMap
