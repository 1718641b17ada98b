/-! # Quantities of variable length

An integer is written as a group of base64 characters. Each character carries five bits of the
group's total, the lowest five first, and its sixth bit says that the group goes on. The lowest bit
of the total is the sign, the others are the absolute value.

`decode` reads a run of groups, which may use more characters than they need; `encode` writes each
integer with the fewest. -/

namespace CodeMap.Base64

/-! ### The base64 alphabet

Sixty-four characters stand for the numbers below 64, in the order of `alphabet`. `value?` reads
one of them and `digit` writes one; `value?_digit` and `digit_of_value?` say that they are inverse
to each other. -/

/-- The sixty-four characters, in the order of the numbers they stand for. -/
def alphabet : List Char :=
  ['A', 'B', 'C', 'D', 'E', 'F', 'G', 'H', 'I', 'J', 'K', 'L', 'M',
   'N', 'O', 'P', 'Q', 'R', 'S', 'T', 'U', 'V', 'W', 'X', 'Y', 'Z',
   'a', 'b', 'c', 'd', 'e', 'f', 'g', 'h', 'i', 'j', 'k', 'l', 'm',
   'n', 'o', 'p', 'q', 'r', 's', 't', 'u', 'v', 'w', 'x', 'y', 'z',
   '0', '1', '2', '3', '4', '5', '6', '7', '8', '9', '+', '/']

/-- The number a character stands for, if it is in the alphabet. -/
def value? (c : Char) : Option Nat := alphabet.idxOf? c

/-- The character that stands for a number below 64. -/
def digit (n : Nat) : Char := alphabet.getD n 'A'

theorem value?_digit : ∀ n < 64, value? (digit n) = some n := by decide

theorem value?_eq_some_iff {c : Char} {n : Nat} : value? c = some n ↔ n < 64 ∧ digit n = c := by
  constructor
  · intro h
    obtain ⟨hn, hc, -⟩ := List.findIdx?_eq_some_iff_getElem.1 h
    exact ⟨hn, by simpa [digit, List.getElem?_eq_getElem hn] using hc⟩
  · rintro ⟨hn, rfl⟩
    exact value?_digit n hn

theorem value?_lt {c : Char} {n : Nat} (h : value? c = some n) : n < 64 :=
  (value?_eq_some_iff.1 h).1

theorem digit_of_value? {c : Char} {n : Nat} (h : value? c = some n) : digit n = c :=
  (value?_eq_some_iff.1 h).2

end CodeMap.Base64

namespace CodeMap.Quantity

/-! ### Groups -/

/-- Why a run of characters is not a run of quantities. -/
inductive Fault
  /-- A character outside the alphabet. -/
  | badCharacter (c : Char)
  /-- The text ends inside a group. -/
  | unfinished
  /-- The total of a group exceeds `maxTotal`. -/
  | tooLarge
  deriving DecidableEq, Repr

/-- The largest total that a group may have, of 31 bits. -/
def maxTotal : Nat := 0x7FFFFFFF

/-- The integer that a total stands for. -/
def ofTotal (total : Nat) : Int :=
  if total % 2 = 1 then -((total / 2 : Nat) : Int) else ((total / 2 : Nat) : Int)

/-- The total of the shortest group for an integer. -/
def toTotal (v : Int) : Nat := if v < 0 then 2 * v.natAbs + 1 else 2 * v.natAbs

/-- Reads on inside a group whose characters so far carry `bits` bits and have the sum `total`;
with no bits the text is between two groups. -/
def decodeFrom (bits total : Nat) : List Char → Except Fault (List Int)
  | [] => if bits = 0 then .ok [] else .error .unfinished
  | c :: rest =>
    match Base64.value? c with
    | none => .error (.badCharacter c)
    | some d =>
      let total := total ||| (d % 32) <<< bits
      if maxTotal < total then .error .tooLarge
      else if d < 32 then (ofTotal total :: ·) <$> decodeFrom 0 0 rest
      else decodeFrom (bits + 5) total rest

/-- The integers written in a text. -/
def decode (text : List Char) : Except Fault (List Int) := decodeFrom 0 0 text

/-- The shortest group with a given total. -/
def encodeTotal (total : Nat) : List Char :=
  if total < 32 then [Base64.digit total]
  else Base64.digit (32 + total % 32) :: encodeTotal (total / 32)

/-- The shortest text of a list of integers. -/
def encode (values : List Int) : List Char := values.flatMap fun v => encodeTotal (toTotal v)

end CodeMap.Quantity
