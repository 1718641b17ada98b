import CodeMap.Proofs.Quantity.Outcome

/-! # Reading a text in parts

A text may be read up to any place and read on from there. Between two groups nothing is carried over
(`decode_append_of_ok`), a fault that was met stays (`decode_append_of_error`), and inside a group the
characters of the group are what is carried over (`exists_pending`). `decode_append` puts the three
together. -/

namespace CodeMap.Quantity
variable {front : List Char}

/-- Behind complete groups, reading starts anew. -/
theorem decode_append_of_ok {vs : List Int} (h : decode front = .ok vs) (back : List Char) :
    decode (front ++ back) = (vs ++ ·) <$> decode back := by
  obtain ⟨gs, rfl, hgs, hle, rfl⟩ := decode_eq_ok_iff.1 h
  exact decode_flatten_of_le hgs hle back

/-- A fault that lies inside the text is met whatever comes behind. -/
theorem decode_append_of_error {fault : Fault} (hne : fault ≠ .unfinished)
    (h : decode front = .error fault) (back : List Char) :
    decode (front ++ back) = .error fault := by
  rw [decode_eq_iff] at h ⊢
  cases h with
  | badCharacter before c behind hfront hbefore hc hfits =>
    refine .badCharacter before c (behind ++ back) ?_ hbefore hc hfits
    rw [hfront, List.append_assoc, List.cons_append]
  | tooLarge before behind hfront hbefore hover =>
    refine .tooLarge before (behind ++ back) ?_ hbefore hover
    rw [hfront, List.append_assoc]
  | unfinished => exact absurd rfl hne

/-- A text that ends inside a group is complete groups and the characters of the one that goes on. -/
theorem exists_pending (h : decode front = .error .unfinished) :
    ∃ done pending vs, front = done ++ pending ∧ decode done = .ok vs ∧
      (∀ c ∈ done.getLast?, ¬ Continues c) ∧ pending ≠ [] ∧ ∀ c ∈ pending, Continues c := by
  obtain ⟨halphabet, hfits, hlast⟩ : (∀ c ∈ front, c ∈ Base64.alphabet) ∧ ¬ Overflows front ∧
      ∃ c ∈ front.getLast?, Continues c := by
    cases decode_eq_iff.1 h with
    | unfinished halphabet hfits hlast => exact ⟨halphabet, hfits, hlast⟩
  obtain ⟨gs, pending, rfl, hgs, hpending⟩ := exists_groups halphabet
  rw [overflows_append hgs hpending] at hfits
  refine ⟨gs.flatten, pending, values gs, rfl, ?_, ?_, ?_, hpending⟩
  · refine decode_eq_ok_iff.2 ⟨gs, rfl, hgs, ?_, rfl⟩
    intro g hg
    exact Nat.not_lt.1 fun hover => hfits (.inl ⟨g, hg, hover⟩)
  · intro c hc
    exact (ends_of_mem_getLast?_flatten hgs hc).not_continues
  · rintro rfl
    obtain ⟨c, hc, hset⟩ := hlast
    exact (pending_eq_nil_iff hgs hpending).1 rfl c hc hset

/-- Reading a text with more behind it. If the text is complete, its integers come first and those of
the rest follow, or the fault of the rest is reported. A character out of the alphabet and a total
that is too large are reported as before. If the text ends inside a group, it is complete groups and
the characters that continue the last one, and reading goes on as if these stood in front of the
rest. -/
theorem decode_append (front : List Char) :
    (∀ vs, decode front = .ok vs → ∀ back, decode (front ++ back) = (vs ++ ·) <$> decode back) ∧
    (∀ fault, fault ≠ .unfinished → decode front = .error fault →
      ∀ back, decode (front ++ back) = .error fault) ∧
    (decode front = .error .unfinished → ∃ done pending vs,
      front = done ++ pending ∧ decode done = .ok vs ∧ (∀ c ∈ done.getLast?, ¬ Continues c) ∧
      pending ≠ [] ∧ (∀ c ∈ pending, Continues c) ∧
      ∀ back, decode (front ++ back) = (vs ++ ·) <$> decode (pending ++ back)) := by
  refine ⟨fun vs h => decode_append_of_ok h, fun fault hne h => decode_append_of_error hne h, ?_⟩
  intro h
  obtain ⟨done, pending, vs, rfl, hdone, hlast, hne, hpending⟩ := exists_pending h
  refine ⟨done, pending, vs, rfl, hdone, hlast, hne, hpending, ?_⟩
  intro back
  rw [List.append_assoc]
  exact decode_append_of_ok hdone (pending ++ back)

/-- The text `Dg` ends inside its second group, which `B` ends. -/
theorem decode_append_inside_group :
    decode "D".toList = .ok [-1] ∧ decode ("D".toList ++ "gB?".toList) = .error (.badCharacter '?') ∧
    decode "D?".toList = .error (.badCharacter '?') ∧
    decode ("D?".toList ++ "gB".toList) = .error (.badCharacter '?') ∧
    decode "Dg".toList = .error .unfinished ∧ decode ("Dg".toList ++ "BC".toList) = .ok [-1, 16, 1] ∧
    ∃ done pending vs, "Dg".toList = done ++ pending ∧ decode done = .ok vs ∧ pending ≠ [] ∧
      decode ("Dg".toList ++ "BC".toList) = (vs ++ ·) <$> decode (pending ++ "BC".toList) := by
  obtain ⟨done, pending, vs, hsplit, hdone, -, hne, -, hpending⟩ := (decode_append "Dg".toList).2.2 rfl
  refine ⟨rfl, ?_, rfl, ?_, rfl, rfl, done, pending, vs, hsplit, hdone, hne, hpending "BC".toList⟩
  · exact (decode_append "D".toList).1 [-1] rfl "gB?".toList
  · exact (decode_append "D?".toList).2.1 _ (by decide) rfl "gB".toList

end CodeMap.Quantity
