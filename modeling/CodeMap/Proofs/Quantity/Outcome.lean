import CodeMap.Proofs.Quantity.Groups
import CodeMap.Report

/-! # What becomes of a text of quantities

The groups of a text, with their totals, decide whether it is read and what is reported otherwise: the
fault that is met first from the left. `decode_outcome` states all four outcomes. -/

namespace CodeMap.Quantity

/-- A group of the text, or a part of one from its start, has a total of more than 31 bits. -/
def Overflows (cs : List Char) : Prop :=
  ∃ g ∈ groups cs, ∃ part, part <+: g ∧ 2 ^ 31 - 1 < total part

theorem overflows_iff {cs : List Char} : Overflows cs ↔ ∃ g ∈ groups cs, maxTotal < total g := by
  refine exists_congr fun g => and_congr_right fun _ => ⟨?_, fun hlt => ⟨g, List.prefix_rfl, hlt⟩⟩
  rintro ⟨part, hpart, hlt⟩
  exact Nat.lt_of_lt_of_le hlt (total_prefix_le hpart)

section
variable {gs : List (List Char)} {pending : List Char}

theorem overflows_append (hgs : ∀ g ∈ gs, IsGroup g) (hpending : ∀ c ∈ pending, Continues c) :
    Overflows (gs.flatten ++ pending) ↔
      (∃ g ∈ gs, maxTotal < total g) ∨ maxTotal < total pending := by
  rw [overflows_iff, groups_flatten_append hgs]
  rcases eq_or_ne pending [] with rfl | hne
  · simp [groups, total_nil]
  · rw [groups_of_continues hne hpending]
    simp [or_and_right, exists_or]

theorem ends_of_mem_getLast?_flatten (hgs : ∀ g ∈ gs, IsGroup g) {c : Char}
    (hc : c ∈ gs.flatten.getLast?) : Ends c := by
  rcases List.eq_nil_or_concat gs with rfl | ⟨init, g, rfl⟩
  · cases hc
  · obtain ⟨pending, last, -, hlast, rfl⟩ := hgs g (by simp)
    have hget : (init.concat (pending ++ [last])).flatten.getLast? = some last := by
      simp [List.concat_eq_append, ← List.append_assoc]
    rw [hget, Option.mem_some_iff] at hc
    exact hc ▸ hlast

/-- A text goes on inside a group if and only if its last character continues. -/
theorem pending_eq_nil_iff (hgs : ∀ g ∈ gs, IsGroup g) (hpending : ∀ c ∈ pending, Continues c) :
    pending = [] ↔ ∀ c ∈ (gs.flatten ++ pending).getLast?, ¬ Continues c := by
  constructor
  · rintro rfl c hc
    rw [List.append_nil] at hc
    exact (ends_of_mem_getLast?_flatten hgs hc).not_continues
  · intro h
    by_contra hne
    have hlast : pending.getLast hne ∈ (gs.flatten ++ pending).getLast? := by
      rw [List.getLast?_append_of_ne_nil _ hne]
      exact List.getLast?_eq_some_getLast hne
    exact h _ hlast (hpending _ (List.getLast_mem hne))

end

/-! ### The four outcomes -/

/-- What becomes of a text, by its characters and the totals of its groups. -/
inductive Judged (cs : List Char) : Except Fault (List Int) → Prop
  | complete (halphabet : ∀ c ∈ cs, c ∈ Base64.alphabet) (hlast : ∀ c ∈ cs.getLast?, ¬ Continues c)
      (hle : ∀ g ∈ groups cs, total g ≤ maxTotal) : Judged cs (.ok (values (groups cs)))
  | badCharacter (front : List Char) (c : Char) (back : List Char) (hcs : cs = front ++ c :: back)
      (hfront : ∀ a ∈ front, a ∈ Base64.alphabet) (hc : c ∉ Base64.alphabet)
      (hfits : ¬ Overflows front) : Judged cs (.error (.badCharacter c))
  | tooLarge (front back : List Char) (hcs : cs = front ++ back)
      (hfront : ∀ a ∈ front, a ∈ Base64.alphabet) (hover : Overflows front) :
      Judged cs (.error .tooLarge)
  | unfinished (halphabet : ∀ c ∈ cs, c ∈ Base64.alphabet) (hfits : ¬ Overflows cs)
      (hlast : ∃ c ∈ cs.getLast?, Continues c) : Judged cs (.error .unfinished)

section
variable {cs : List Char} {outcome : Except Fault (List Int)}

theorem exists_judged (cs : List Char) : ∃ outcome, Judged cs outcome := by
  rcases alphabet_or_exists cs with h | ⟨front, c, back, hcs, hfront, hc⟩
  · by_cases hover : Overflows cs
    · exact ⟨_, .tooLarge cs [] (List.append_nil cs).symm h hover⟩
    by_cases hlast : ∃ c ∈ cs.getLast?, Continues c
    · exact ⟨_, .unfinished h hover hlast⟩
    · refine ⟨_, .complete h (fun c hc hset => hlast ⟨c, hc, hset⟩) fun g hg => ?_⟩
      exact Nat.not_lt.1 fun hlt => hover (overflows_iff.2 ⟨g, hg, hlt⟩)
  · by_cases hover : Overflows front
    · exact ⟨_, .tooLarge front (c :: back) hcs hfront hover⟩
    · exact ⟨_, .badCharacter front c back hcs hfront hc hover⟩

theorem Judged.decode_eq (h : Judged cs outcome) : decode cs = outcome := by
  cases h with
  | complete halphabet hlast hle =>
    obtain ⟨gs, pending, rfl, hgs, hpending⟩ := exists_groups halphabet
    obtain rfl := (pending_eq_nil_iff hgs hpending).2 hlast
    rw [List.append_nil, groups_flatten hgs] at hle ⊢
    exact decode_eq_ok_iff.2 ⟨gs, rfl, hgs, hle, rfl⟩
  | badCharacter front c back hcs hfront hc hfits =>
    obtain ⟨gs, pending, rfl, hgs, hpending⟩ := exists_groups hfront
    rw [overflows_append hgs hpending] at hfits
    rw [hcs, List.append_assoc, decode_flatten_append hgs hpending, if_neg hfits,
      decodeFrom_of_not_mem hc]
    rfl
  | tooLarge front back hcs hfront hover =>
    obtain ⟨gs, pending, rfl, hgs, hpending⟩ := exists_groups hfront
    rw [hcs, List.append_assoc, decode_flatten_append hgs hpending,
      if_pos ((overflows_append hgs hpending).1 hover)]
  | unfinished halphabet hfits hlast =>
    obtain ⟨gs, pending, rfl, hgs, hpending⟩ := exists_groups halphabet
    have hne : pending ≠ [] := by
      rw [Ne, pending_eq_nil_iff hgs hpending]
      push Not
      exact hlast
    rw [overflows_append hgs hpending] at hfits
    rw [← List.append_nil pending, decode_flatten_append hgs hpending, if_neg hfits, decodeFrom,
      if_neg (by simpa using hne)]
    rfl

theorem decode_eq_iff : decode cs = outcome ↔ Judged cs outcome := by
  refine ⟨?_, Judged.decode_eq⟩
  rintro rfl
  obtain ⟨outcome, h⟩ := exists_judged cs
  rwa [h.decode_eq]

end

theorem values_eq (gs : List (List Char)) :
    values gs = gs.map fun g =>
      if total g % 2 = 0 then ((total g / 2 : Nat) : Int) else -(((total g - 1) / 2 : Nat) : Int) := by
  refine List.map_congr_left fun g _ => ?_
  unfold ofTotal
  split <;> split <;> omega

theorem Fault.message_badCharacter (c : Char) : (Fault.badCharacter c).failure.message =
    "invalid data in source map, base64 data out of range: '" ++ String.singleton c ++ "'" := by
  have hjoin (a b d : String) : String.join [a, b, d] = a ++ b ++ d := by simp [String.join]
  exact (String.append_empty).trans (hjoin _ _ _)

/-- A text is read if and only if it has characters of the alphabet only, does not end inside a group
and every group has a total of at most 31 bits; the integers are those of the totals, with the lowest
bit as the sign. Otherwise the fault met first from the left is reported: a character that is not in
the alphabet, if no total before it is too large; a total that is too large, if only characters of the
alphabet come before; or the end of the text inside a group. -/
theorem decode_outcome (cs : List Char) :
    (∀ vs, decode cs = .ok vs ↔
      (∀ c ∈ cs, c ∈ Base64.alphabet) ∧ (∀ c ∈ cs.getLast?, ¬ Continues c) ∧
      (∀ g ∈ groups cs, total g ≤ 2 ^ 31 - 1) ∧
      vs = (groups cs).map fun g =>
        if total g % 2 = 0 then ((total g / 2 : Nat) : Int)
        else -(((total g - 1) / 2 : Nat) : Int)) ∧
    (∀ c, decode cs = .error (.badCharacter c) ↔
      ∃ front back, cs = front ++ c :: back ∧ (∀ a ∈ front, a ∈ Base64.alphabet) ∧
        c ∉ Base64.alphabet ∧ ¬ Overflows front) ∧
    (decode cs = .error .tooLarge ↔
      ∃ front back, cs = front ++ back ∧ (∀ a ∈ front, a ∈ Base64.alphabet) ∧ Overflows front) ∧
    (decode cs = .error .unfinished ↔
      (∀ c ∈ cs, c ∈ Base64.alphabet) ∧ ¬ Overflows cs ∧ ∃ c ∈ cs.getLast?, Continues c) ∧
    (∀ c, (Fault.badCharacter c).failure.code.label = "M0002" ∧
      (Fault.badCharacter c).failure.message =
        "invalid data in source map, base64 data out of range: '" ++ String.singleton c ++ "'") ∧
    Fault.tooLarge.failure.code.label = "M0004" ∧ Fault.unfinished.failure.code.label = "M0003" := by
  simp only [decode_eq_iff]
  refine ⟨fun vs => ⟨?_, ?_⟩, fun c => ⟨?_, ?_⟩, ⟨?_, ?_⟩, ⟨?_, ?_⟩,
    fun c => ⟨rfl, Fault.message_badCharacter c⟩, rfl, rfl⟩
  · rintro ⟨halphabet, hlast, hle⟩
    exact ⟨halphabet, hlast, hle, values_eq _⟩
  · rintro ⟨halphabet, hlast, hle, rfl⟩
    exact values_eq _ ▸ .complete halphabet hlast hle
  · intro h
    cases h with
    | badCharacter front _ back hcs hfront hc hfits => exact ⟨front, back, hcs, hfront, hc, hfits⟩
  · rintro ⟨front, back, hcs, hfront, hc, hfits⟩
    exact .badCharacter front c back hcs hfront hc hfits
  · intro h
    cases h with
    | tooLarge front back hcs hfront hover => exact ⟨front, back, hcs, hfront, hover⟩
  · rintro ⟨front, back, hcs, hfront, hover⟩
    exact .tooLarge front back hcs hfront hover
  · intro h
    cases h with
    | unfinished halphabet hfits hlast => exact ⟨halphabet, hfits, hlast⟩
  · rintro ⟨halphabet, hfits, hlast⟩
    exact .unfinished halphabet hfits hlast

end CodeMap.Quantity
