/-!
# Digits

Numbers are written with digits in bases up to sixteen, with letters of either case.
-/

namespace InstallManifest.Digit

/-- The value of a digit in a base. -/
def value? (base : Nat) (c : Char) : Option Nat :=
  let value? :=
    if '0' ≤ c && c ≤ '9' then some (c.toNat - '0'.toNat)
    else if 'A' ≤ c && c ≤ 'F' then some (c.toNat - 'A'.toNat + 10)
    else if 'a' ≤ c && c ≤ 'f' then some (c.toNat - 'a'.toNat + 10)
    else none
  value?.filter (· < base)

/-- The natural number that digits denote; there must be one at least. -/
def natural? (base : Nat) (cs : List Char) : Option Nat :=
  if cs.isEmpty then none
  else cs.foldlM (fun number c => (value? base c).map (number * base + ·)) 0

end InstallManifest.Digit
