import CodeMap.Json.Lexeme
import CodeMap.Json.Writer
import Mathlib.Tactic.SplitIfs

/-! # Quoted texts

Every character is read from what is written for it (`inside_writeChar`), above the sixteen-bit
range as the two halves of a surrogate pair. Hence a quoted text is the lexeme of the text that it
was written for (`scan_writeText`). -/

namespace CodeMap.Json

/-! ### Code units -/

theorem hexValue?_hexDigit (n : Nat) : hexValue? (hexDigit n) = some (n % 16) := by
  have hdigit : ∀ k < 16, hexValue? (Nat.digitChar k) = some k := by decide
  exact hdigit (n % 16) (Nat.mod_lt n (by decide))

section
variable {n : Nat} (c : Char) (rest : List Char)

theorem codeUnit?_hexDigits (h : n < 0x10000) :
    codeUnit? (hexDigit (n / 4096) :: hexDigit (n / 256) :: hexDigit (n / 16) :: hexDigit n ::
      c :: rest) = some (n, c :: rest) := by
  have hn : ((n / 4096 % 16 * 16 + n / 256 % 16) * 16 + n / 16 % 16) * 16 + n % 16 = n := by omega
  simp [codeUnit?, hexValue?_hexDigit, hn]

theorem inside_unitEscape (h : n < 0x10000) (opening : List Char) :
    inside opening (unitEscape n ++ c :: rest) =
      .char (character n (c :: rest)).1 (character n (c :: rest)).2 := by
  simp [unitEscape, inside, escaped, codeUnit?_hexDigits c rest h]

theorem lowSurrogate?_unitEscape (hlow : 0xDC00 ≤ n) (hlt : n < 0xE000) :
    lowSurrogate? (unitEscape n ++ c :: rest) = some (n, c :: rest) := by
  have h : n < 0x10000 := by omega
  simp [unitEscape, lowSurrogate?, codeUnit?_hexDigits c rest h, Option.filter, hlow, hlt]

end

/-! ### Characters -/

section
variable {c : Char}

theorem toNat_lt (c : Char) : c.toNat < 0x110000 := by
  rcases c.valid with h | h
  · exact Nat.lt_trans h (by decide)
  · exact h.2

/-- A character in the sixteen-bit range is its own code unit, and no surrogate. -/
theorem character_toNat (h : c.toNat < 0x10000) (rest : List Char) :
    character c.toNat rest = (c, rest) := by
  have hc : c.toNat < 0xD800 ∨ 0xDFFF < c.toNat := by
    rcases c.valid with h | h
    · exact .inl h
    · exact .inr h.1
  rw [character, if_neg (by omega), if_neg (by omega), Char.ofNat_toNat]

/-- A character above the sixteen-bit range is joined from its two surrogates. -/
theorem character_surrogates (h : 0x10000 ≤ c.toNat) (d : Char) (rest : List Char) :
    character (0xD800 + (c.toNat - 0x10000) / 0x400)
      (unitEscape (0xDC00 + (c.toNat - 0x10000) % 0x400) ++ d :: rest) = (c, d :: rest) := by
  have hlt := toNat_lt c
  have hhigh : 0xD800 ≤ 0xD800 + (c.toNat - 0x10000) / 0x400 ∧
      0xD800 + (c.toNat - 0x10000) / 0x400 < 0xDC00 := by omega
  have hlow := lowSurrogate?_unitEscape (n := 0xDC00 + (c.toNat - 0x10000) % 0x400) d rest
    (by omega) (by omega)
  have hjoined : 0x10000 + (0xD800 + (c.toNat - 0x10000) / 0x400 - 0xD800) * 0x400 +
      (0xDC00 + (c.toNat - 0x10000) % 0x400 - 0xDC00) = c.toNat := by omega
  rw [character, if_pos hhigh, hlow]
  simp only [hjoined, Char.ofNat_toNat]

theorem inside_of_plain (hquote : c ≠ '"') (hbackslash : c ≠ '\\') (h : ' ' ≤ c)
    (opening rest : List Char) : inside opening (c :: rest) = .char c rest := by
  have hcontrol : ¬ c < ' ' := Char.not_lt.2 h
  simp [inside, hcontrol]

/-- What is written for a character is read as the character, whatever comes behind it. -/
theorem inside_writeChar (opening : List Char) (c d : Char) (rest : List Char) :
    inside opening (writeChar c ++ d :: rest) = .char c (d :: rest) := by
  unfold writeChar
  split_ifs with hquote hbackslash hn hr ht hb hf hplain hunit
  · rw [hquote]; rfl
  · rw [hbackslash]; rfl
  · rw [hn]; rfl
  · rw [hr]; rfl
  · rw [ht]; rfl
  · rw [hb]; rfl
  · rw [hf]; rfl
  · exact inside_of_plain hquote hbackslash hplain.1 opening (d :: rest)
  · rw [inside_unitEscape d rest hunit, character_toNat hunit]
  · have hlt := toNat_lt c
    rw [List.append_assoc]
    -- the escape of the second surrogate is what comes behind the first one
    have hsecond : unitEscape (0xDC00 + (c.toNat - 0x10000) % 0x400) ++ d :: rest =
        '\\' :: ((unitEscape (0xDC00 + (c.toNat - 0x10000) % 0x400)).tail ++ d :: rest) := rfl
    rw [hsecond, inside_unitEscape _ _ (by omega), ← hsecond,
      character_surrogates (Nat.le_of_not_lt hunit)]

end

/-! ### Texts -/

theorem quoted_of_char {opening done cs rest : List Char} {c : Char}
    (h : inside opening cs = .char c rest) :
    quoted opening done cs = quoted opening (c :: done) rest := by
  fun_cases quoted opening done cs <;> simp_all

theorem quoted_close (opening done rest : List Char) :
    quoted opening done ('"' :: rest) = .lexeme (.text (String.ofList done.reverse)) rest := by
  have h : inside opening ('"' :: rest) = .close rest := rfl
  fun_cases quoted opening done ('"' :: rest) <;> simp_all

theorem quoted_flatMap_writeChar (opening done s rest : List Char) :
    quoted opening done (s.flatMap writeChar ++ '"' :: rest) =
      .lexeme (.text (String.ofList (done.reverse ++ s))) rest := by
  induction s generalizing done with
  | nil => rw [List.flatMap_nil, List.nil_append, quoted_close, List.append_nil]
  | cons c s ih =>
    obtain ⟨d, after, hafter⟩ : ∃ d after, s.flatMap writeChar ++ '"' :: rest = d :: after :=
      List.exists_cons_of_ne_nil (List.append_ne_nil_of_right_ne_nil _ (List.cons_ne_nil _ _))
    have hchar : inside opening (writeChar c ++ (s.flatMap writeChar ++ '"' :: rest)) =
        .char c (s.flatMap writeChar ++ '"' :: rest) := by
      rw [hafter]
      exact inside_writeChar opening c d after
    rw [List.flatMap_cons, List.append_assoc, quoted_of_char hchar, ih, List.reverse_cons,
      List.append_assoc]
    rfl

/-- A quoted text is read as the text that it was written for. -/
theorem scan_writeText (s : String) (rest : List Char) :
    scan (writeText s ++ rest) = .lexeme (.text s) rest := by
  have hquoted := quoted_flatMap_writeChar ('"' :: (s.toList.flatMap writeChar ++ '"' :: rest)) []
    s.toList rest
  rw [List.reverse_nil, List.nil_append, String.ofList_toList] at hquoted
  rw [writeText, List.cons_append, List.append_assoc, List.singleton_append, scan, if_pos rfl, hquoted]

end CodeMap.Json
