/-! # Binary floating-point numbers of 64 bits

A finite number is `mantissa * 2 ^ exponent` with a sign. `ofDecimal` rounds a decimal number to
the nearest of them, a tie to the even mantissa, in exact arithmetic. `Binary64.text` is the
shortest decimal text that is rounded to a number. -/

namespace CodeMap.Decimal

/-! ### Rounding -/

/-- A floating-point number. The mantissa of a finite one is below `2 ^ 53`, and at least `2 ^ 52`
unless the exponent is -1074. -/
inductive Binary64
  | finite (negative : Bool) (mantissa : Nat) (exponent : Int)
  | infinite (negative : Bool)
  | nan
  deriving DecidableEq, Repr, Inhabited

/-- The quotient rounded to the nearest natural number, a tie to the even one. -/
def roundQuotient (num den : Nat) : Nat :=
  let q := num / den
  match compare (2 * (num % den)) den with
  | .lt => q
  | .gt => q + 1
  | .eq => q + q % 2

/-- The power `base ^ e`, or 1 if `e` is negative. -/
def power (base : Nat) (e : Int) : Nat := Nat.pow base e.toNat

namespace Binary64

def minExponent : Int := -1074

def maxExponent : Int := 971

/-- The number nearest to `num / den`, both positive. -/
def ofQuotient (negative : Bool) (num den : Nat) : Binary64 :=
  let scaled (q : Int) : Nat × Nat := (num * power 2 (-q), den * power 2 q)
  let low := max minExponent ((num.log2 : Int) - (den.log2 : Int) - 53)
  let q := if power 2 53 ≤ (scaled low).1 / (scaled low).2 then low + 1 else low
  let m := roundQuotient (scaled q).1 (scaled q).2
  let (m, q) := if m = power 2 53 then (power 2 52, q + 1) else (m, q)
  if maxExponent < q then .infinite negative else .finite negative m q

/-- The number nearest to `digits * 10 ^ exponent`. Numbers above `10 ^ 400` are infinite and
numbers below `10 ^ -400` are zero, so their powers need not be computed. -/
def ofDecimal (negative : Bool) (digits : Nat) (exponent : Int) : Binary64 :=
  let size : Int := (Nat.toDigits 10 digits).length + exponent
  if digits = 0 ∨ size < -400 then .finite negative 0 minExponent
  else if 400 < size then .infinite negative
  else ofQuotient negative (digits * power 10 exponent) (power 10 (-exponent))

end Binary64

/-! ### Shortest text

The reals that round to a finite number form an interval around it. `shortest` finds the coarsest
decimal grid with a point in that interval and, on that grid, the point nearest to the number, a
tie going to the even digit. `Binary64.text` lays these digits out: positionally from `0.0001` up
to sixteen digits before the point, otherwise with an exponent of at least two digits. -/

/-- The point of the grid `10 ^ place` that stands for `mantissa * 2 ^ exponent`, if one of the two
neighbours on it rounds to that number. Lengths are measured in quarters of the last mantissa
bit. -/
def gridPoint? (mantissa : Nat) (exponent place : Int) : Option Nat :=
  let unit := power 2 (exponent - 2) * power 10 (-place)
  let step := power 2 (2 - exponent) * power 10 place
  let value := 4 * mantissa * unit
  let below := if mantissa = power 2 52 ∧ Binary64.minExponent < exponent then 1 else 2
  let low := (4 * mantissa - below) * unit
  let high := (4 * mantissa + 2) * unit
  let inside (k : Nat) : Bool :=
    if mantissa % 2 = 0 then low ≤ k * step ∧ k * step ≤ high
    else low < k * step ∧ k * step < high
  let k := value / step
  match inside k, inside (k + 1) with
  | false, false => none
  | true, false => some k
  | false, true => some (k + 1)
  | true, true => some (roundQuotient value step)

/-- The shortest digits `k` with the place `p` of the last one, so that `k * 10 ^ p` rounds to the
number. -/
def shortest (mantissa : Nat) (exponent : Int) : Nat × Int :=
  let places := (List.range 700).map fun i : Nat => (330 : Int) - i
  (places.findSome? fun p => (gridPoint? mantissa exponent p).map (·, p)).getD (0, 0)

def digitsOf (n : Nat) : List Char := Nat.toDigits 10 n

/-- An exponent with its sign and at least two digits. -/
def exponentText (e : Int) : List Char :=
  let digits := digitsOf e.natAbs
  (if e < 0 then '-' else '+') :: (List.replicate (2 - digits.length) '0' ++ digits)

/-- Digits laid out with the point after the first `point` of them. -/
def positional (digits : List Char) (point : Int) : List Char :=
  if point ≤ 0 then '0' :: '.' :: (List.replicate (-point).toNat '0' ++ digits)
  else if digits.length ≤ point then
    digits ++ List.replicate (point.toNat - digits.length) '0' ++ ['.', '0']
  else digits.take point.toNat ++ '.' :: digits.drop point.toNat

/-- Digits laid out with one of them before the point and an exponent. -/
def scientific (digits : List Char) (point : Int) : List Char :=
  let fraction := digits.drop 1
  digits.take 1 ++ (if fraction = [] then [] else '.' :: fraction) ++ 'e' :: exponentText (point - 1)

/-- The text of a floating-point number: the fewest digits that read back as the number. -/
def Binary64.text : Binary64 → String
  | .nan => "nan"
  | .infinite negative => if negative then "-inf" else "inf"
  | .finite negative mantissa exponent =>
    let (k, place) := shortest mantissa exponent
    let digits := digitsOf k
    let point := digits.length + place
    let body :=
      if mantissa = 0 then ['0', '.', '0']
      else if -4 < point ∧ point ≤ 16 then positional digits point
      else scientific digits point
    String.ofList (if negative then '-' :: body else body)

end CodeMap.Decimal
