import CodeMap.Proofs.Json.Number
import CodeMap.Proofs.Json.QuotedText
import CodeMap.Proofs.Json.Reaches

/-! # Reading what is written

`readsBack_of_fits`: from where a value may stand, the reader comes to the end of what is written
for a value and has read the value. The induction is on the value (`Fits`), with the containers
around it and the text behind it left open. `read_compress` states it of whole texts. -/

namespace CodeMap.Json

/-- A value that can be read back: it holds no floating-point number, its integers have few enough
digits, and at most `room` containers in it are open at once. -/
inductive Fits : Nat → Json → Prop
  | null {room : Nat} : Fits room .null
  | bool {room : Nat} (b : Bool) : Fits room (.bool b)
  | int {room : Nat} {n : Int} : (Nat.toDigits 10 n.natAbs).length ≤ maxDigits → Fits room (.int n)
  | text {room : Nat} (s : String) : Fits room (.text s)
  | array {room : Nat} {items : List Json} : (∀ v ∈ items, Fits room v) →
    Fits (room + 1) (.array items)
  | object {room : Nat} {members : List (String × Json)} : (∀ m ∈ members, Fits room m.2) →
    Fits (room + 1) (.object members)

/-! ### Integers -/

theorem head?_toDigits_ne {n : Nat} (h : 0 < n) : (Nat.toDigits 10 n).head? ≠ some '0' := by
  induction n using Nat.strongRecOn with
  | ind n ih =>
    by_cases hlt : n < 10
    · have hdigit : ∀ k < 10, 0 < k → Nat.digitChar k ≠ '0' := by decide
      rw [Nat.toDigits_of_lt_base hlt]
      simpa using hdigit n hlt h
    · have hne : Nat.toDigits 10 (n / 10) ≠ [] := Nat.toDigits_ne_nil
      have hhead := ih (n / 10) (by omega) (by omega)
      obtain ⟨d, ds, hds⟩ := List.exists_cons_of_ne_nil hne
      rw [hds] at hhead
      rwa [Nat.toDigits_of_base_le (by decide) (Nat.le_of_not_lt hlt), hds]

theorem natOfDigits_toDigits (n : Nat) : natOfDigits (Nat.toDigits 10 n) = n :=
  Nat.ofDigitChars_toDigits (by decide) (by decide)

section
variable {rest : List Char}

theorem integerPart?_toDigits (n : Nat) (h : ¬ StartsWithDigit rest) :
    integerPart? (Nat.toDigits 10 n ++ rest) = some (Nat.toDigits 10 n, rest) := by
  rcases Nat.eq_zero_or_pos n with rfl | hn
  · rfl
  · have hdigits : ∀ d ∈ Nat.toDigits 10 n, d.isDigit = true := fun d hd =>
      Nat.isDigit_of_mem_toDigits (by decide) (by decide) hd
    exact integerPart?_of_digits (digits_eq_iff.2 ⟨rfl, hdigits, h⟩) Nat.toDigits_ne_nil
      (head?_toDigits_ne hn)

/-- A text behind which an integer ends. -/
def Ends (rest : List Char) : Prop := ¬ StartsWithDigit rest ∧ ¬ GoesOn rest

theorem ends_nil : Ends [] := ⟨digits_fst_eq_nil_iff.1 rfl, floatPart?_eq_none_iff.1 rfl⟩

theorem ends_cons {c : Char} (h : c = ',' ∨ c = ']' ∨ c = '\x7d') (cs : List Char) :
    Ends (c :: cs) := by
  rcases h with rfl | rfl | rfl <;>
    exact ⟨digits_fst_eq_nil_iff.1 rfl, floatPart?_eq_none_iff.1 rfl⟩

theorem number_toDigits (negative : Bool) {n : Nat} (h : (Nat.toDigits 10 n).length ≤ maxDigits)
    (hrest : Ends rest) : number negative (Nat.toDigits 10 n ++ rest) =
      .lexeme (.scalar (.int (if negative then -n else n))) rest := by
  unfold number
  simp only [integerPart?_toDigits n hrest.1, floatPart?_eq_none_iff.2 hrest.2,
    natOfDigits_toDigits, Nat.not_lt.2 h, ↓reduceIte]

theorem startsWithDigit_toDigits (n : Nat) : StartsWithDigit (Nat.toDigits 10 n ++ rest) := by
  obtain ⟨d, ds, hds⟩ := List.exists_cons_of_ne_nil (Nat.toDigits_ne_nil (b := 10) (n := n))
  have hd : d ∈ Nat.toDigits 10 n := hds ▸ List.mem_cons_self
  exact ⟨d, ds ++ rest, by rw [hds]; rfl, Nat.isDigit_of_mem_toDigits (by decide) (by decide) hd⟩

/-- An integer is read as itself, and no blank stands before it. -/
theorem scan_writeInt {n : Int} (h : (Nat.toDigits 10 n.natAbs).length ≤ maxDigits)
    (hrest : Ends rest) :
    scan ((writeInt n ++ rest).dropWhile isBlank) = .lexeme (.scalar (.int n)) rest := by
  have hdigit : StartsWithDigit (Nat.toDigits 10 n.natAbs ++ rest) := startsWithDigit_toDigits _
  unfold writeInt
  split
  · have hneg : -(n.natAbs : Int) = n := by omega
    rw [List.cons_append, List.dropWhile_cons_of_neg (by decide), scan_minus hdigit,
      number_toDigits true h hrest, if_pos rfl, hneg]
  · have hpos : (n.natAbs : Int) = n := by omega
    rw [hdigit.dropWhile_isBlank, scan_of_startsWithDigit hdigit, number_toDigits false h hrest,
      if_neg Bool.false_ne_true, hpos]

end

/-! ### Values -/

section
variable {limits : Limits} {stack : List Frame} {room : Nat} {rest : List Char}

theorem value_ne_complete (before : List Frame) (v : Json) :
    State.value before ≠ State.complete v stack := by
  cases stack with
  | nil => exact State.noConfusion
  | cons frame stack => cases frame <;> exact State.noConfusion

/-- Reading comes from where a value may stand to the end of what is written for it, at any place
with enough room for its containers. -/
def ReadsBack (limits : Limits) (room : Nat) (v : Json) : Prop :=
  ∀ (stack : List Frame) (rest : List Char), stack.length + room ≤ limits.depth → Ends rest →
    Reaches limits (.value stack) (v.write ++ rest) (.complete v stack) rest

theorem reaches_colon {v : Json} (h : ReadsBack limits room v) (before : List (String × Json))
    (k : String) (hroom : stack.length + (room + 1) ≤ limits.depth) (hrest : Ends rest) :
    Reaches limits (.colon before k stack) (':' :: ' ' :: (v.write ++ rest))
      (.afterMember ((k, v) :: before) stack) rest := by
  have hvalue := h (.member before k :: stack) rest (by rw [List.length_cons]; omega) hrest
  have hcolon : Reaches limits (.colon before k stack) (':' :: ' ' :: (v.write ++ rest))
      (.value (.member before k :: stack)) (' ' :: (v.write ++ rest)) := .lexeme rfl rfl rfl
  exact hcolon.trans (hvalue.blank State.noConfusion)

theorem ends_writeItems (items : List Json) (rest : List Char) : Ends (writeItems items ++ rest) := by
  cases items with
  | nil => exact ends_cons (.inr (.inl rfl)) _
  | cons v items => exact ends_cons (.inl rfl) _

theorem ends_writeMembers (members : List (String × Json)) (rest : List Char) :
    Ends (writeMembers members ++ rest) := by
  cases members with
  | nil => exact ends_cons (.inr (.inr rfl)) _
  | cons m members => exact ends_cons (.inl rfl) _

theorem reaches_writeItems {items : List Json} (h : ∀ v ∈ items, ReadsBack limits room v)
    (hroom : stack.length + (room + 1) ≤ limits.depth) (before : List Json) (rest : List Char) :
    Reaches limits (.afterItem before stack) (writeItems items ++ rest)
      (.complete (.array (before.reverse ++ items)) stack) rest := by
  induction items generalizing before with
  | nil =>
    rw [List.append_nil]
    exact .lexeme rfl rfl rfl
  | cons v items ih =>
    have hcomma : Reaches limits (.afterItem before stack) (writeItems (v :: items) ++ rest)
        (.value (.item before :: stack)) (' ' :: (v.write ++ (writeItems items ++ rest))) := by
      rw [writeItems, List.cons_append, List.cons_append, List.append_assoc]
      exact .lexeme rfl rfl rfl
    have hvalue := h v List.mem_cons_self (.item before :: stack) (writeItems items ++ rest)
      (by rw [List.length_cons]; omega) (ends_writeItems items rest)
    have hitems := ih (fun w hw => h w (List.mem_cons_of_mem v hw)) (v :: before)
    rw [List.reverse_cons, List.append_assoc] at hitems
    exact hcomma.trans ((hvalue.blank (value_ne_complete _ v)).trans hitems)

theorem reaches_writeMembers {members : List (String × Json)}
    (h : ∀ m ∈ members, ReadsBack limits room m.2) (hroom : stack.length + (room + 1) ≤ limits.depth)
    (before : List (String × Json)) (rest : List Char) :
    Reaches limits (.afterMember before stack) (writeMembers members ++ rest)
      (.complete (.object (before.reverse ++ members)) stack) rest := by
  induction members generalizing before with
  | nil =>
    rw [List.append_nil]
    exact .lexeme rfl rfl rfl
  | cons m members ih =>
    obtain ⟨k, v⟩ := m
    have hcomma : Reaches limits (.afterMember before stack) (writeMembers ((k, v) :: members) ++ rest)
        (.key before stack) (' ' :: (writeText k ++ ':' :: ' ' ::
          (v.write ++ (writeMembers members ++ rest)))) := by
      simp only [writeMembers, List.cons_append, List.append_assoc]
      exact .lexeme rfl rfl rfl
    have hkey : Reaches limits (.key before stack) (writeText k ++ ':' :: ' ' ::
        (v.write ++ (writeMembers members ++ rest))) (.colon before k stack)
        (':' :: ' ' :: (v.write ++ (writeMembers members ++ rest))) :=
      .lexeme rfl (scan_writeText k _) rfl
    have hmember := reaches_colon (h (k, v) List.mem_cons_self) before k hroom
      (ends_writeMembers members rest)
    have hmembers := ih (fun m hm => h m (List.mem_cons_of_mem (k, v) hm)) ((k, v) :: before)
    rw [List.reverse_cons, List.append_assoc] at hmembers
    exact hcomma.trans ((hkey.blank State.noConfusion).trans (hmember.trans hmembers))

/-- Whatever fits is read back. -/
theorem readsBack_of_fits {v : Json} (h : Fits room v) : ReadsBack limits room v := by
  induction h with
  | null => exact fun stack rest _ _ => .lexeme rfl rfl rfl
  | bool b => cases b <;> exact fun stack rest _ _ => .lexeme rfl rfl rfl
  | int hdigits =>
    intro stack rest _ hrest
    exact .step (scan_writeInt hdigits hrest) rfl .here
  | text s =>
    intro stack rest _ _
    exact .lexeme rfl (scan_writeText s rest) rfl
  | @array room items _ ih =>
    intro stack rest hroom _
    have hopen : ∀ cs, Reaches limits (.value stack) ('[' :: cs) (.firstItem stack) cs := fun cs =>
      .lexeme rfl rfl (enter_of_lt .array (by omega))
    cases items with
    | nil => exact (hopen _).trans (.lexeme rfl rfl rfl)
    | cons v items =>
      have hfirst := ih v List.mem_cons_self (.item [] :: stack) (writeItems items ++ rest)
        (by rw [List.length_cons]; omega) (ends_writeItems items rest)
      have hitems := reaches_writeItems (fun w hw => ih w (List.mem_cons_of_mem v hw)) hroom [v] rest
      rw [write, List.cons_append, List.append_assoc]
      exact (hopen _).trans ((hfirst.firstItem (value_ne_complete _ v)).trans hitems)
  | @object room members _ ih =>
    intro stack rest hroom _
    have hopen : ∀ cs, Reaches limits (.value stack) ('\x7b' :: cs) (.firstKey stack) cs := fun cs =>
      .lexeme rfl rfl (enter_of_lt .object (by omega))
    cases members with
    | nil => exact (hopen _).trans (.lexeme rfl rfl rfl)
    | cons m members =>
      obtain ⟨k, v⟩ := m
      have hkey : Reaches limits (.firstKey stack) (writeText k ++ ':' :: ' ' ::
          (v.write ++ (writeMembers members ++ rest))) (.colon [] k stack)
          (':' :: ' ' :: (v.write ++ (writeMembers members ++ rest))) :=
        .lexeme rfl (scan_writeText k _) rfl
      have hmember := reaches_colon (ih (k, v) List.mem_cons_self) [] k hroom
        (ends_writeMembers members rest)
      have hmembers := reaches_writeMembers (fun m hm => ih m (List.mem_cons_of_mem (k, v) hm))
        hroom [(k, v)] rest
      simp only [write, List.cons_append, List.append_assoc]
      exact (hopen _).trans (hkey.trans (hmember.trans hmembers))

end

/-! ### Texts -/

theorem parse_compress {limits : Limits} {v : Json} (h : Fits limits.depth v) :
    parse limits v.compress = .ok v := by
  refine parse_of_reaches ?_
  have hreach := readsBack_of_fits h [] [] (Nat.zero_add _).le ends_nil
  rw [List.append_nil] at hreach
  rwa [compress, String.toList_ofList]

/-! ### Merged members -/

theorem put_of_not_mem {k : String} {members : List (String × Json)}
    (h : k ∉ members.map Prod.fst) (v : Json) : put k v members = members ++ [(k, v)] := by
  induction members with
  | nil => rfl
  | cons m members ih =>
    obtain ⟨hne, hrest⟩ : k ≠ m.1 ∧ k ∉ members.map Prod.fst := by simpa using h
    rw [put, if_neg (Ne.symm hne), ih hrest, List.cons_append]

theorem foldl_put {members : List (String × Json)} (done : List (String × Json))
    (h : ((done ++ members).map Prod.fst).Nodup) :
    members.foldl (fun done (k, v) => put k v done) done = done ++ members := by
  induction members generalizing done with
  | nil => rw [List.foldl_nil, List.append_nil]
  | cons m members ih =>
    obtain ⟨k, v⟩ := m
    have hnew : k ∉ done.map Prod.fst := by
      intro hk
      rw [List.map_append, List.nodup_append] at h
      exact h.2.2 k hk k List.mem_cons_self rfl
    have hput := put_of_not_mem hnew v
    rw [List.append_cons] at h
    simp only [List.foldl_cons, hput]
    rw [ih _ h, ← List.append_cons]

/-- Members with different keys are merged into themselves. -/
theorem dedup_of_nodup {members : List (String × Json)} (h : (members.map Prod.fst).Nodup) :
    dedup members = members :=
  foldl_put [] h

theorem mergedItems_texts (texts : List String) :
    mergedItems (texts.map .text) = texts.map .text := by
  induction texts with
  | nil => rfl
  | cons s texts ih =>
    rw [List.map_cons, mergedItems, ih]
    rfl

/-- The text of a value is read as the value, with one member for each key. -/
theorem read_compress {limits : Limits} {v : Json} (h : Fits limits.depth v) :
    read limits v.compress = .ok v.merged := by
  rw [read, parse_compress h]
  rfl

end CodeMap.Json
