import CodeMap.Proofs.Quantity.Groups

/-! # Writing and reading quantities

What is written of an integer is one group (`isGroup_encodeTotal`) with its total
(`total_encodeTotal`), so what is written of small values is read again (`decode_encode`). For the
other way, `natAbs_le_of_decode` bounds the values that are read and `decode_eq_ok_nil_iff` says that
only the empty text holds none. -/

namespace CodeMap.Quantity

/-- The largest absolute value that a group can stand for. -/
def maxValue : Nat := 2 ^ 30 - 1

theorem ofTotal_toTotal (v : Int) : ofTotal (toTotal v) = v := by
  unfold ofTotal toTotal
  split <;> split <;> omega

theorem toTotal_le_iff {v : Int} : toTotal v ≤ maxTotal ↔ v.natAbs ≤ maxValue := by
  unfold toTotal maxTotal maxValue
  split <;> omega

theorem natAbs_ofTotal_le {sum : Nat} (h : sum ≤ maxTotal) : (ofTotal sum).natAbs ≤ maxValue := by
  unfold maxTotal at h
  unfold ofTotal maxValue
  split <;> omega

/-! ### The groups that are written -/

theorem ends_digit {n : Nat} (h : n < 32) : Ends (Base64.digit n) :=
  ends_iff.2 ⟨n, Base64.value?_digit n (by omega), h⟩

theorem continues_digit {n : Nat} (h : n < 32) : Continues (Base64.digit (32 + n)) :=
  continues_iff.2 ⟨32 + n, Base64.value?_digit _ (by omega), Nat.le_add_right 32 n⟩

theorem IsGroup.cons {c : Char} {g : List Char} (hc : Continues c) (hg : IsGroup g) :
    IsGroup (c :: g) := by
  obtain ⟨pending, last, hpending, hlast, rfl⟩ := hg
  exact ⟨c :: pending, last, List.forall_mem_cons.2 ⟨hc, hpending⟩, hlast, rfl⟩

theorem IsGroup.ne_nil {g : List Char} (hg : IsGroup g) : g ≠ [] := by
  obtain ⟨pending, last, -, -, rfl⟩ := hg
  simp

theorem IsGroup.mem_alphabet {g : List Char} (hg : IsGroup g) {c : Char} (hc : c ∈ g) :
    c ∈ Base64.alphabet := by
  obtain ⟨pending, last, hpending, hlast, rfl⟩ := hg
  rcases List.mem_append.1 hc with hc | hc
  · exact mem_alphabet_iff.2 (.inl (hpending c hc))
  · exact mem_alphabet_iff.2 (.inr (List.mem_singleton.1 hc ▸ hlast))

theorem isGroup_encodeTotal (n : Nat) : IsGroup (encodeTotal n) := by
  induction n using encodeTotal.induct with
  | case1 n hlt =>
    rw [encodeTotal, if_pos hlt]
    exact ⟨[], _, List.forall_mem_nil _, ends_digit hlt, rfl⟩
  | case2 n hlt ih =>
    rw [encodeTotal, if_neg hlt]
    exact ih.cons (continues_digit (Nat.mod_lt n (by decide)))

theorem total_encodeTotal (n : Nat) : total (encodeTotal n) = n := by
  induction n using encodeTotal.induct with
  | case1 n hlt =>
    rw [encodeTotal, if_pos hlt, total_singleton, payload_eq (Base64.value?_digit n (by omega)),
      Nat.mod_eq_of_lt hlt]
  | case2 n hlt ih =>
    rw [encodeTotal, if_neg hlt, total_cons, ih, payload_eq (Base64.value?_digit _ (by omega))]
    omega

/-- The groups that are written of a list of integers. -/
def encodedGroups (vs : List Int) : List (List Char) := vs.map fun v => encodeTotal (toTotal v)

theorem flatten_encodedGroups (vs : List Int) : (encodedGroups vs).flatten = encode vs :=
  List.flatMap_def.symm

theorem isGroup_of_mem_encodedGroups {vs : List Int} {g : List Char} (h : g ∈ encodedGroups vs) :
    IsGroup g := by
  obtain ⟨v, -, rfl⟩ := List.mem_map.1 h
  exact isGroup_encodeTotal _

theorem values_encodedGroups (vs : List Int) : values (encodedGroups vs) = vs := by
  rw [values, encodedGroups, List.map_map]
  simp [Function.comp_def, total_encodeTotal, ofTotal_toTotal]

theorem mem_alphabet_of_mem_encode {vs : List Int} {c : Char} (h : c ∈ encode vs) :
    c ∈ Base64.alphabet := by
  obtain ⟨v, -, hc⟩ := List.mem_flatMap.1 h
  exact (isGroup_encodeTotal _).mem_alphabet hc

theorem encode_ne_nil {vs : List Int} (h : vs ≠ []) : encode vs ≠ [] := by
  obtain ⟨v, vs, rfl⟩ := List.exists_cons_of_ne_nil h
  simp [encode, (isGroup_encodeTotal _).ne_nil]

/-! ### Reading what is written -/

theorem decode_encode {vs : List Int} (h : ∀ v ∈ vs, v.natAbs ≤ maxValue) :
    decode (encode vs) = .ok vs := by
  refine decode_eq_ok_iff.2 ⟨encodedGroups vs, (flatten_encodedGroups vs).symm,
    fun g => isGroup_of_mem_encodedGroups, fun g hg => ?_, (values_encodedGroups vs).symm⟩
  obtain ⟨v, hv, rfl⟩ := List.mem_map.1 hg
  rw [total_encodeTotal]
  exact toTotal_le_iff.2 (h v hv)

/-! ### The values that are read -/

theorem natAbs_le_of_decode {cs : List Char} {vs : List Int} (h : decode cs = .ok vs) :
    ∀ v ∈ vs, v.natAbs ≤ maxValue := by
  obtain ⟨gs, -, -, hle, rfl⟩ := decode_eq_ok_iff.1 h
  intro v hv
  obtain ⟨g, hg, rfl⟩ := List.mem_map.1 hv
  exact natAbs_ofTotal_le (hle g hg)

@[simp] theorem decode_nil : decode [] = .ok [] := rfl

theorem decode_eq_ok_nil_iff {cs : List Char} : decode cs = .ok [] ↔ cs = [] := by
  constructor
  · intro h
    obtain ⟨gs, rfl, -, -, hvalues⟩ := decode_eq_ok_iff.1 h
    obtain rfl : gs = [] := List.map_eq_nil_iff.1 hvalues.symm
    rfl
  · rintro rfl
    rfl

end CodeMap.Quantity
