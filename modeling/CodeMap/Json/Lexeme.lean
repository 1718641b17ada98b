import CodeMap.Json.Fault
import CodeMap.Json.Value

/-! # Lexemes of JSON text

`scan` reads the lexeme at the front of a text that starts with no blank. The text left over is
shorter (`Scanned.shorter`), which is what the reader's recursion rests on. -/

namespace CodeMap.Json

/-- The smallest parts of a JSON text. -/
inductive Lexeme
  | openArray
  | closeArray
  | openObject
  | closeObject
  | colon
  | comma
  | text (s : String)
  | scalar (value : Json)
  deriving Repr

/-- What stands at the front of a text. -/
inductive Scanned
  | nothing
  | lexeme (l : Lexeme) (rest : List Char)
  | unknown
  | brokenText (cause : Cause) (place : List Char)
  | longInteger (digits : Nat)

def isBlank (c : Char) : Bool := c = ' ' || c = '\t' || c = '\n' || c = '\r'

def hexValue? (c : Char) : Option Nat :=
  if '0' ≤ c ∧ c ≤ '9' then some (c.toNat - 48)
  else if 'a' ≤ c ∧ c ≤ 'f' then some (c.toNat - 87)
  else if 'A' ≤ c ∧ c ≤ 'F' then some (c.toNat - 55)
  else none

/-- Four hexadecimal digits, which the text must not end with, and the text after them. -/
def codeUnit? : List Char → Option (Nat × List Char)
  | a :: b :: c :: d :: e :: rest => do
    let a ← hexValue? a
    let b ← hexValue? b
    let c ← hexValue? c
    let d ← hexValue? d
    return (((a * 16 + b) * 16 + c) * 16 + d, e :: rest)
  | _ => none

/-- The second half of a surrogate pair, written as an escape, and the text after it. -/
def lowSurrogate? : List Char → Option (Nat × List Char)
  | '\\' :: 'u' :: rest => (codeUnit? rest).filter fun (n, _) => 0xDC00 ≤ n ∧ n < 0xE000
  | _ => none

/-- The character of a code unit and the text after it. A high surrogate joins the low one that
follows it. A surrogate alone is no character of a `String` and is replaced, so what is proved of the
texts that a JSON text holds is said of texts without one. -/
def character (unit : Nat) (rest : List Char) : Char × List Char :=
  if 0xD800 ≤ unit ∧ unit < 0xDC00 then
    match lowSurrogate? rest with
    | some (low, rest) => (Char.ofNat (0x10000 + (unit - 0xD800) * 0x400 + (low - 0xDC00)), rest)
    | none => ('\uFFFD', rest)
  else if 0xDC00 ≤ unit ∧ unit < 0xE000 then ('\uFFFD', rest)
  else (Char.ofNat unit, rest)

/-- The character that a letter after a backslash stands for. -/
def escapeOf? : Char → Option Char
  | '"' => some '"'
  | '\\' => some '\\'
  | '/' => some '/'
  | 'b' => some '\x08'
  | 'f' => some '\x0c'
  | 'n' => some '\n'
  | 'r' => some '\r'
  | 't' => some '\t'
  | _ => none

/-- What comes next inside a quoted text. -/
inductive Inside
  | close (rest : List Char)
  | char (c : Char) (rest : List Char)
  | fault (cause : Cause) (place : List Char)

/-- The character of the escape whose backslash stands before the given text. -/
def escaped (opening : List Char) : List Char → Inside
  | [] => .fault .unterminatedText opening
  | 'u' :: rest =>
    match codeUnit? rest with
    | none => .fault .badCodeUnit ('u' :: rest)
    | some (unit, rest) => .char (character unit rest).1 (character unit rest).2
  | c :: rest =>
    match escapeOf? c with
    | none => .fault .badEscape ('\\' :: c :: rest)
    | some d => .char d rest

/-- Reads the next character of a quoted text that opens at `opening`. -/
def inside (opening : List Char) : List Char → Inside
  | [] => .fault .unterminatedText opening
  | '"' :: rest => .close rest
  | '\\' :: rest => escaped opening rest
  | c :: rest => if c < ' ' then .fault .controlCharacter (c :: rest) else .char c rest

theorem codeUnit?_length {cs rest : List Char} {n : Nat} (h : codeUnit? cs = some (n, rest)) :
    rest.length + 4 = cs.length := by
  unfold codeUnit? at h
  split at h
  · simp only [Option.bind_eq_bind, Option.bind_eq_some_iff, Option.pure_def, Option.some.injEq,
      Prod.mk.injEq] at h
    obtain ⟨_, _, _, _, _, _, _, _, _, rfl⟩ := h
    simp
  · simp at h

theorem lowSurrogate?_length {cs rest : List Char} {n : Nat}
    (h : lowSurrogate? cs = some (n, rest)) : rest.length < cs.length := by
  unfold lowSurrogate? at h
  split at h
  · have := codeUnit?_length (Option.filter_eq_some_iff.1 h).1
    simp
    omega
  · simp at h

theorem character_length (unit : Nat) (rest : List Char) :
    (character unit rest).2.length ≤ rest.length := by
  unfold character
  split
  · split
    · rename_i h
      exact Nat.le_of_lt (lowSurrogate?_length h)
    · exact Nat.le_refl _
  · split <;> exact Nat.le_refl _

theorem escaped_char_length {opening cs rest : List Char} {c : Char}
    (h : escaped opening cs = .char c rest) : rest.length < cs.length := by
  unfold escaped at h
  split at h
  · simp at h
  · split at h
    · simp at h
    · rename_i unit after hu
      obtain ⟨-, rfl⟩ := Inside.char.inj h
      have := codeUnit?_length hu
      have := character_length unit after
      simp
      omega
  · split at h
    · simp at h
    · simp [(Inside.char.inj h).2]

theorem inside_char_length {opening cs rest : List Char} {c : Char}
    (h : inside opening cs = .char c rest) : rest.length < cs.length := by
  unfold inside at h
  split at h
  · simp at h
  · simp at h
  · exact Nat.lt_succ_of_lt (escaped_char_length h)
  · split at h
    · simp at h
    · simp [(Inside.char.inj h).2]

/-- Reads on inside the quoted text that opens at `opening`, whose characters so far are `done` in
reverse. -/
def quoted (opening done cs : List Char) : Scanned :=
  match _h : inside opening cs with
  | .close rest => .lexeme (.text (String.ofList done.reverse)) rest
  | .char c rest => quoted opening (c :: done) rest
  | .fault cause place => .brokenText cause place
termination_by cs.length
decreasing_by exact inside_char_length _h

/-- The digits at the front of a text and the text after them. -/
def digits (cs : List Char) : List Char × List Char :=
  (cs.takeWhile Char.isDigit, cs.dropWhile Char.isDigit)

def natOfDigits (ds : List Char) : Nat := ds.foldl (fun n d => 10 * n + (d.toNat - 48)) 0

/-- The digits of an integer part, which starts with a zero only if it is one. -/
def integerPart? : List Char → Option (List Char × List Char)
  | '0' :: rest => some (['0'], rest)
  | cs => if (digits cs).1 = [] then none else some (digits cs)

/-- The digits of a fraction, if the text goes on with one. -/
def fractionPart? : List Char → Option (List Char × List Char)
  | '.' :: rest => if (digits rest).1 = [] then none else some (digits rest)
  | _ => none

/-- The sign at the front of an exponent: whether it is negative, and the text after it. -/
def exponentSign : List Char → Bool × List Char
  | '-' :: rest => (true, rest)
  | '+' :: rest => (false, rest)
  | rest => (false, rest)

/-- An exponent, if the text goes on with one. -/
def exponentPart? : List Char → Option (Int × List Char)
  | [] => none
  | e :: rest =>
    if e = 'e' ∨ e = 'E' then
      let (negative, rest) := exponentSign rest
      let n : Int := natOfDigits (digits rest).1
      if (digits rest).1 = [] then none
      else some (if negative then -n else n, (digits rest).2)
    else none

/-- The digits of a fraction and an exponent, if the text goes on with one of them. -/
def floatPart? (cs : List Char) : Option (List Char × Int × List Char) :=
  match fractionPart? cs with
  | some (fraction, rest) =>
    match exponentPart? rest with
    | some (exponent, rest) => some (fraction, exponent, rest)
    | none => some (fraction, 0, rest)
  | none => (exponentPart? cs).map fun (exponent, rest) => ([], exponent, rest)

/-- The number at the front of a text, whose sign is read already. -/
def number (negative : Bool) (cs : List Char) : Scanned :=
  match integerPart? cs with
  | none => .unknown
  | some (whole, rest) =>
    match floatPart? rest with
    | some (fraction, exponent, rest) =>
      .lexeme (.scalar (.float (.ofDecimal negative (natOfDigits (whole ++ fraction))
        (exponent - fraction.length)))) rest
    | none =>
      let n : Int := natOfDigits whole
      if maxDigits < whole.length then .longInteger whole.length
      else .lexeme (.scalar (.int (if negative then -n else n))) rest

def punctuation? : Char → Option Lexeme
  | '[' => some .openArray
  | ']' => some .closeArray
  | '\x7b' => some .openObject
  | '\x7d' => some .closeObject
  | ':' => some .colon
  | ',' => some .comma
  | _ => none

/-- The words that stand for values. -/
def words : List (List Char × Json) :=
  [(['n', 'u', 'l', 'l'], .null),
   (['t', 'r', 'u', 'e'], .bool true),
   (['f', 'a', 'l', 's', 'e'], .bool false),
   (['N', 'a', 'N'], .float .nan),
   (['I', 'n', 'f', 'i', 'n', 'i', 't', 'y'], .float (.infinite false)),
   (['-', 'I', 'n', 'f', 'i', 'n', 'i', 't', 'y'], .float (.infinite true))]

def word? (cs : List Char) : Option (List Char × Json) := words.find? fun w => w.1.isPrefixOf cs

/-- Reads the lexeme at the front of a text. -/
def scan : List Char → Scanned
  | [] => .nothing
  | c :: rest =>
    if c = '"' then quoted (c :: rest) [] rest
    else match punctuation? c with
      | some l => .lexeme l rest
      | none =>
        match word? (c :: rest) with
        | some (w, v) => .lexeme (.scalar v) ((c :: rest).drop w.length)
        | none => if c = '-' then number true rest else number false (c :: rest)

theorem quoted_length {opening done cs rest : List Char} {l : Lexeme}
    (h : quoted opening done cs = .lexeme l rest) : rest.length < cs.length := by
  fun_induction quoted opening done cs with
  | case1 done cs after hi =>
    obtain ⟨-, rfl⟩ := Scanned.lexeme.inj h
    revert hi
    unfold inside
    split
    · simp
    · intro hi
      simp [Inside.close.inj hi]
    · intro hi
      revert hi
      unfold escaped
      split
      · simp
      · split <;> simp
      · split <;> simp
    · split <;> simp
  | case2 done cs c after hi ih =>
    have := inside_char_length hi
    have := ih h
    omega
  | case3 => simp at h

theorem digits_length (cs : List Char) : (digits cs).1.length + (digits cs).2.length = cs.length := by
  rw [← List.length_append, digits, List.takeWhile_append_dropWhile]

theorem digits_length_lt {cs : List Char} (h : (digits cs).1 ≠ []) :
    (digits cs).2.length < cs.length := by
  have := digits_length cs
  have := List.length_pos_iff.2 h
  omega

theorem integerPart?_length {cs whole rest : List Char} (h : integerPart? cs = some (whole, rest)) :
    rest.length < cs.length := by
  unfold integerPart? at h
  split at h
  · simp only [Option.some.injEq, Prod.mk.injEq] at h
    simp [h.2]
  · split at h
    · simp at h
    · rename_i hd
      have := digits_length_lt hd
      simpa [Option.some.inj h] using this

theorem fractionPart?_length {cs ds rest : List Char} (h : fractionPart? cs = some (ds, rest)) :
    rest.length ≤ cs.length := by
  unfold fractionPart? at h
  split at h
  · split at h
    · simp at h
    · rename_i hd
      have := digits_length_lt hd
      rw [Option.some.inj h] at this
      simp only [List.length_cons] at this ⊢
      omega
  · simp at h

theorem exponentSign_length (cs : List Char) : (exponentSign cs).2.length ≤ cs.length := by
  unfold exponentSign
  split <;> simp

theorem exponentPart?_length {cs rest : List Char} {e : Int}
    (h : exponentPart? cs = some (e, rest)) : rest.length ≤ cs.length := by
  unfold exponentPart? at h
  split at h
  · simp at h
  · rename_i c after
    split at h
    · dsimp only at h
      split at h
      · simp at h
      · rename_i hd
        have := digits_length_lt hd
        have := exponentSign_length after
        obtain ⟨-, rfl⟩ := Prod.mk.inj (Option.some.inj h)
        simp
        omega
    · simp at h

theorem floatPart?_length {cs ds rest : List Char} {e : Int}
    (h : floatPart? cs = some (ds, e, rest)) : rest.length ≤ cs.length := by
  unfold floatPart? at h
  split at h
  · rename_i hf
    have := fractionPart?_length hf
    split at h
    · rename_i he
      have := exponentPart?_length he
      obtain ⟨-, -, rfl⟩ : _ ∧ _ ∧ _ = rest := by simpa using h
      omega
    · obtain ⟨-, -, rfl⟩ : _ ∧ _ ∧ _ = rest := by simpa using h
      omega
  · obtain ⟨⟨_, _⟩, he, h⟩ := Option.map_eq_some_iff.1 h
    obtain ⟨-, -, rfl⟩ : _ ∧ _ ∧ _ = rest := by simpa using h
    exact exponentPart?_length he

theorem number_length {negative : Bool} {cs rest : List Char} {l : Lexeme}
    (h : number negative cs = .lexeme l rest) : rest.length < cs.length := by
  unfold number at h
  split at h
  · simp at h
  · rename_i hi
    have := integerPart?_length hi
    split at h
    · rename_i hf
      have := floatPart?_length hf
      obtain ⟨-, rfl⟩ := Scanned.lexeme.inj h
      omega
    · split at h
      · simp at h
      · obtain ⟨-, rfl⟩ := Scanned.lexeme.inj h
        omega

theorem word?_length_pos {cs w : List Char} {v : Json} (h : word? cs = some (w, v)) :
    0 < w.length := by
  have := List.mem_of_find?_eq_some h
  simp only [words, List.mem_cons, Prod.mk.injEq, List.not_mem_nil, or_false] at this
  rcases this with h | h | h | h | h | h <;> simp [h.1]

/-- A lexeme takes at least one character of the text. -/
theorem scan_length {cs rest : List Char} {l : Lexeme} (h : scan cs = .lexeme l rest) :
    rest.length < cs.length := by
  unfold scan at h
  split at h
  · simp at h
  · split at h
    · exact Nat.lt_succ_of_lt (quoted_length h)
    · split at h
      · simp [(Scanned.lexeme.inj h).2]
      · split at h
        · rename_i hw
          obtain ⟨-, rfl⟩ := Scanned.lexeme.inj h
          have := word?_length_pos hw
          simp only [List.length_drop, List.length_cons]
          omega
        · split at h
          · exact Nat.lt_succ_of_lt (number_length h)
          · exact number_length h

end CodeMap.Json
