import InstallManifest.Number.Decimal

/-!
# Binary floating point of 64 bits

A finite number without its sign is `mantissa · 2 ^ exponent` with a mantissa of 53 bits at most. A
decimal is rounded to the nearest of them, to the one with the even mantissa if two are as near; the
other way, a number is written with the fewest decimal digits that round back to it, and of several
such decimals with the nearest.
-/

namespace InstallManifest

/-- A finite number that is not negative. -/
structure Binary64 where
  mantissa : Nat
  exponent : Int
  deriving DecidableEq

namespace Binary64

/-- The bits of a mantissa. -/
def precision : Nat := 53

/-- The exponent of the smallest numbers. -/
def minExponent : Int := -1074

/-- The exponent of the greatest numbers. -/
def maxExponent : Int := 971

/-- The numerator and denominator of `num / den · base ^ exponent`. -/
def scale (base num den : Nat) (exponent : Int) : Nat × Nat :=
  match exponent with
  | .ofNat n => (num * Nat.pow base n, den)
  | .negSucc n => (num, den * Nat.pow base (n + 1))

/-- The quotient to the nearest whole number, a half to the even one. -/
def roundDiv (num den : Nat) : Nat :=
  let quotient := num / den
  let twice := 2 * (num % den)
  if twice > den || (twice = den && quotient % 2 = 1) then quotient + 1 else quotient

/-! ## From decimals -/

/-- The number nearest to a quotient; `none` if that is too great to be finite. -/
def ofQuotient? (num den : Nat) : Option Binary64 :=
  if num = 0 then some ⟨0, minExponent⟩
  else
    -- off by one at most, and then too low
    let guess := max minExponent ((num.log2 : Int) - den.log2 - precision)
    let (n, d) := scale 2 num den (-guess)
    let exponent := if n / d < Nat.pow 2 precision then guess else guess + 1
    let (n, d) := scale 2 num den (-exponent)
    let mantissa := roundDiv n d
    let number : Binary64 :=
      if mantissa = Nat.pow 2 precision then ⟨Nat.pow 2 (precision - 1), exponent + 1⟩
      else ⟨mantissa, exponent⟩
    if number.exponent > maxExponent then none else some number

/-- Decimal exponents beyond which a decimal is too great or too small to be told by its digits. -/
def maxDecimalExponent : Int := 400

/-- The number nearest to a decimal; `none` if that is too great to be finite. -/
def ofDecimal? (d : Decimal) : Option Binary64 :=
  let places : Int := (Nat.toDigits 10 d.digits).length
  if d.digits = 0 || d.exponent + places < -maxDecimalExponent then some ⟨0, minExponent⟩
  else if d.exponent + places > maxDecimalExponent then none
  else
    let (num, den) := scale 10 d.digits 1 d.exponent
    ofQuotient? num den

/-! ## To decimals -/

/-- Four times the mantissas of the bounds between which decimals round to a number. -/
def bounds (x : Binary64) : Nat × Nat :=
  -- below a power of two the numbers lie twice as close
  let isLeast := x.mantissa = Nat.pow 2 (precision - 1) && x.exponent > minExponent
  (4 * x.mantissa - (if isLeast then 1 else 2), 4 * x.mantissa + 2)

/-- Whether `digits · 10 ^ exponent` rounds to a number. -/
def isRoundedFrom (x : Binary64) (digits : Nat) (exponent : Int) : Bool :=
  let (low, high) := x.bounds
  let (num, den) := scale 10 digits 1 exponent
  let (lowNum, lowDen) := scale 2 low 4 x.exponent
  let (highNum, highDen) := scale 2 high 4 x.exponent
  if x.mantissa % 2 = 0 then lowNum * den ≤ num * lowDen && num * highDen ≤ highNum * den
  else lowNum * den < num * lowDen && num * highDen < highNum * den

/-- The digits of the decimal with the given exponent that rounds to a number: if there are two the
nearest, and the greater if they are as near. -/
def digitsAt? (x : Binary64) (exponent : Int) : Option Nat :=
  let (num, den) := scale 2 x.mantissa 1 x.exponent
  let (num, den) := scale 10 num den (-exponent)
  let below := num / den
  match 0 < below && x.isRoundedFrom below exponent, x.isRoundedFrom (below + 1) exponent with
  | true, true => some (if 2 * (num % den) < den then below else below + 1)
  | true, false => some below
  | false, true => some (below + 1)
  | false, false => none

/-- The first decimal that rounds to a number, from the given exponent downwards. -/
def shortestFrom (x : Binary64) (exponent : Int) : (steps : Nat) → Decimal
  | 0 => ⟨0, 0⟩
  | steps + 1 =>
    match x.digitsAt? exponent with
    | some digits => ⟨digits, exponent⟩
    | none => shortestFrom x (exponent - 1) steps

/-- The decimal with the fewest digits that rounds to a number. -/
def toDecimal (x : Binary64) : Decimal :=
  if x.mantissa = 0 then ⟨0, 0⟩ else x.shortestFrom 309 650

end Binary64

end InstallManifest
