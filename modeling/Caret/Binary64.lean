import Caret.Text.Decimal

/-!
# Binary64 magnitudes

The finite nonnegative numbers of the 64-bit binary format, as exact
products `significand * 2 ^ exponent`. One operation makes them, rounding an
exact quotient to the nearest, ties to an even significand; products and
quotients of magnitudes are the exact ones rounded.

## Shortest text

A magnitude is written with the fewest digits that read back as itself, and
among those with the digits nearest to it. The numbers that round to a
magnitude form an interval, whose ends belong to it when the significand is
even. For each count of digits the two decimal neighbours of the magnitude
are tried; the first count with one inside the interval is taken. Decimal
exponents from -5 to 15 are written positionally with at least one digit on
either side of the point, others with a signed exponent.
-/

namespace Caret

/-- **A finite binary64 magnitude**: `significand * 2 ^ exponent`. -/
structure Binary64 where
  /-- The significand, below `2 ^ 53`. -/
  significand : Nat
  /-- The exponent, from -1074 to 971. -/
  exponent : Int
  deriving DecidableEq, Repr

namespace Binary64

/-- The least significand that has all of its digits, `2 ^ 52`. -/
def fullSignificand : Nat := 0x10000000000000

/-- Zero. -/
def zero : Binary64 := ⟨0, -1074⟩

/-- A quotient times a power of two, as a quotient. -/
def shift (num den : Nat) (e : Int) : Nat × Nat :=
  if 0 ≤ e then (num <<< e.toNat, den) else (num, den <<< (-e).toNat)

/-- The quotient rounded to the nearest natural number, ties to even. -/
def nearestNat (num den : Nat) : Nat :=
  let q := num / den
  let r := num % den
  if den < 2 * r ∨ (2 * r = den ∧ q % 2 = 1) then q + 1 else q

/-- The magnitude nearest to `num / den`, ties to an even significand;
nothing beyond the greatest. The denominator is positive. -/
def nearest (num den : Nat) : Option Binary64 :=
  if num = 0 then some zero
  else
    let guess : Int := (num.log2 : Int) - den.log2 - 52
    let (n, d) := shift num den (-guess)
    let exponent := max (if n / d < fullSignificand then guess - 1 else guess) (-1074)
    let (n, d) := shift num den (-exponent)
    let significand := nearestNat n d
    let rounded : Binary64 :=
      if significand = 2 * fullSignificand then ⟨fullSignificand, exponent + 1⟩
      else ⟨significand, exponent⟩
    if 971 < rounded.exponent then none else some rounded

/-- The magnitude as a quotient. -/
def quotient (x : Binary64) : Nat × Nat := shift x.significand 1 x.exponent

/-- The rounded product. -/
def mul (x y : Binary64) : Option Binary64 :=
  nearest (x.quotient.1 * y.quotient.1) (x.quotient.2 * y.quotient.2)

/-- The rounded quotient by a magnitude that is not zero. -/
def div (x y : Binary64) : Option Binary64 :=
  nearest (x.quotient.1 * y.quotient.2) (x.quotient.2 * y.quotient.1)

/-- A power of ten. -/
def tenTo (k : Nat) : Nat := Nat.pow 10 k

/-- The magnitude nearest to a power of ten. -/
def powerOfTen (k : Nat) : Option Binary64 := nearest (tenTo k) 1

/-- A magnitude times or divided by a power of ten, rounded. -/
def scaleOnce (x : Binary64) (e : Int) : Option Binary64 :=
  if 0 ≤ e then (powerOfTen e.toNat).bind x.mul else (powerOfTen (-e).toNat).bind x.div

/-- Divides by `10 ^ 308` a number of times, rounding after each; zero stays zero. -/
def divideTimes : Nat → Binary64 → Option Binary64
  | 0, x => some x
  | k + 1, x => if x.significand = 0 then some x else (x.scaleOnce (-308)).bind (divideTimes k)

/-- The magnitude of `x * 10 ^ e`, rounded after each of its steps: one
product or quotient by a power of ten up to 308, and before that quotients
by `10 ^ 308` while the exponent is below -308. Nothing if a step leaves
the range. -/
def scale (x : Binary64) (e : Int) : Option Binary64 :=
  if e.natAbs ≤ 308 then x.scaleOnce e
  else if x.significand = 0 then some x
  else if 0 < e then none
  else
    let steps := (e.natAbs - 1) / 308
    (x.divideTimes steps).bind fun y => y.scaleOnce (e + 308 * steps)

/-- The greatest `k` with `10 ^ k ≤ num / den`, for a positive quotient. -/
def floorLog10 (num den : Nat) : Int :=
  let guess : Int := ((Text.decimal num).length : Int) - (Text.decimal den).length
  let reached :=
    if 0 ≤ guess then den * tenTo guess.toNat ≤ num else den ≤ num * tenTo (-guess).toNat
  if reached then guess else guess - 1

/-- Whether `num / den` lies among the numbers that round to the magnitude. -/
def rounds (x : Binary64) (num den : Nat) : Bool :=
  let below := if x.significand = fullSignificand ∧ -1074 < x.exponent then 1 else 2
  let (n, d) := shift (4 * num) den (-x.exponent)
  let low := (4 * x.significand - below) * d
  let high := (4 * x.significand + 2) * d
  if x.significand % 2 = 0 then low ≤ n && n ≤ high else low < n && n < high

/-- The decimal with the given number of digits that is nearest to the
magnitude among those that read back as it, as a natural number and the
power of ten it counts. -/
def decimalOfLength? (x : Binary64) (length : Nat) : Option (Nat × Int) :=
  let (num, den) := x.quotient
  let unit : Int := floorLog10 num den - (length - 1)
  let (un, ud) := if 0 ≤ unit then (tenTo unit.toNat, 1) else (1, tenTo (-unit).toNat)
  let down := num * ud / (den * un)
  let rest := num * ud % (den * un)
  let lower := x.rounds (down * un) ud
  let upper := x.rounds ((down + 1) * un) ud
  if lower && (!upper || 2 * rest < den * un || (2 * rest = den * un && down % 2 = 0)) then
    some (down, unit)
  else if upper then some (down + 1, unit)
  else none

/-- The shortest decimal that reads back as a magnitude other than zero. -/
def shortest (x : Binary64) : Nat × Int :=
  ((List.range' 1 17).findSome? x.decimalOfLength?).getD (0, 0)

/-- The decimal exponent with its sign. -/
def exponentText (e : Int) : List Char :=
  (if e < 0 then '-' else '+') :: Text.decimal e.natAbs

/-- The decimal `digits * 10 ^ unit` in the layout of the module's header. -/
def layout (digits : List Char) (unit : Int) : List Char :=
  let e : Int := unit + digits.length - 1
  if -5 ≤ e ∧ e ≤ 15 then
    if 0 ≤ unit then digits ++ List.replicate unit.toNat '0' ++ ['.', '0']
    else if 0 ≤ e then digits.take (e.toNat + 1) ++ '.' :: digits.drop (e.toNat + 1)
    else '0' :: '.' :: List.replicate (-e - 1).toNat '0' ++ digits
  else
    match digits with
    | [] => []
    | [d] => d :: 'e' :: exponentText e
    | d :: ds => d :: '.' :: ds ++ 'e' :: exponentText e

/-- Drops zeros at the end of a nonzero number's digits; each is one power of ten more. -/
def trimZeros (n : Nat) (unit : Int) : Nat × Int :=
  if h : 0 < n ∧ n % 10 = 0 then trimZeros (n / 10) (unit + 1) else (n, unit)
termination_by n
decreasing_by exact Nat.div_lt_self h.1 (by omega)

/-- **The shortest text** of a magnitude. -/
def text (x : Binary64) : List Char :=
  if x.significand = 0 then ['0', '.', '0']
  else
    let (n, unit) := x.shortest
    let (n, unit) := trimZeros n unit
    layout (Text.decimal n) unit

end Binary64

end Caret
