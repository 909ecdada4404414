import InstallManifest.Number.Digit

/-!
# Decimal numerals

A numeral is digits with an optional point and an optional exponent; its value is a natural number
of digits times a power of ten.
-/

namespace InstallManifest

/-- The value `digits · 10 ^ exponent`. -/
structure Decimal where
  digits : Nat
  exponent : Int
  deriving DecidableEq

namespace Decimal

/-- The whole number that digits denote, after a sign if there is one. -/
def signed? (cs : List Char) : Option Int :=
  match cs with
  | '-' :: digits => (Digit.natural? 10 digits).map fun n => -(n : Int)
  | '+' :: digits => (Digit.natural? 10 digits).map fun n => (n : Int)
  | digits => (Digit.natural? 10 digits).map fun n => (n : Int)

/-- The exponent of a numeral: nothing, or a letter and a whole number. -/
def exponent? (cs : List Char) : Option Int :=
  match cs with
  | [] => some 0
  | c :: rest => if c = 'e' || c = 'E' then signed? rest else none

/-- The value of a numeral without a sign. -/
def ofChars? (cs : List Char) : Option Decimal :=
  let whole := cs.takeWhile Char.isDigit
  let rest := cs.dropWhile Char.isDigit
  let (fraction, rest) :=
    match rest with
    | '.' :: rest => (rest.takeWhile Char.isDigit, rest.dropWhile Char.isDigit)
    | rest => ([], rest)
  match Digit.natural? 10 (whole ++ fraction), exponent? rest with
  | some digits, some exponent => some ⟨digits, exponent - fraction.length⟩
  | _, _ => none

/-- The numeral of a value without an exponent: a point, and a digit on each side of it at least. -/
def toChars (d : Decimal) : List Char :=
  let digits := Nat.toDigits 10 d.digits
  match d.exponent with
  | .ofNat n => digits ++ List.replicate n '0' ++ ['.', '0']
  | .negSucc n =>
    let places := n + 1
    let padded := List.replicate (places + 1 - digits.length) '0' ++ digits
    padded.take (padded.length - places) ++ '.' :: padded.drop (padded.length - places)

end Decimal

end InstallManifest
