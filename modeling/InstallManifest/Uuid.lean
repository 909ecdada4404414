/-!
# UUIDs

A UUID is 128 bits, held as its 32 hexadecimal digits. It is written as five groups of upper-case
digits and read in four forms: the digits alone, the groups, the groups in braces, and the groups
after `urn:uuid:`, with letters of either case.
-/

namespace InstallManifest

/-- A 128-bit identifier, most significant digit first. -/
structure Uuid where
  digits : List (Fin 16)
  length_digits : digits.length = 32
  deriving DecidableEq

namespace Uuid

/-- The upper-case form of a digit. -/
def digitChar (d : Fin 16) : Char :=
  if d.val < 10 then Char.ofNat ('0'.toNat + d.val) else Char.ofNat ('A'.toNat + (d.val - 10))

/-- The digit that a character denotes, in either case. -/
def digit? (c : Char) : Option (Fin 16) :=
  if '0' ≤ c && c ≤ '9' then some (Fin.ofNat 16 (c.toNat - '0'.toNat))
  else if 'A' ≤ c && c ≤ 'F' then some (Fin.ofNat 16 (c.toNat - 'A'.toNat + 10))
  else if 'a' ≤ c && c ≤ 'f' then some (Fin.ofNat 16 (c.toNat - 'a'.toNat + 10))
  else none

theorem digit?_digitChar (d : Fin 16) : digit? (digitChar d) = some d := by
  revert d; decide

/-- Sizes of the groups in the hyphenated form. -/
def groups : List Nat := [8, 4, 4, 4, 12]

/-- Cuts a list into groups of the given sizes with a hyphen between two groups; what is left after
the sizes stays with the last group. -/
def hyphenate : List Nat → List Char → List Char
  | size :: next :: sizes, cs => cs.take size ++ '-' :: hyphenate (next :: sizes) (cs.drop size)
  | _, cs => cs

/-- Takes out the hyphens between groups of the given sizes; `none` if one of them is missing. -/
def unhyphenate? : List Nat → List Char → Option (List Char)
  | size :: next :: sizes, cs =>
    match cs.drop size with
    | '-' :: rest => (unhyphenate? (next :: sizes) rest).map (cs.take size ++ ·)
    | _ => none
  | _, cs => some cs

/-- The text of a UUID: upper case, 8-4-4-4-12. -/
def toChars (u : Uuid) : List Char := hyphenate groups (u.digits.map digitChar)

def toString (u : Uuid) : String := String.ofList u.toChars

/-- The UUID with exactly the given 32 digits. -/
def ofDigits? (cs : List Char) : Option Uuid :=
  match cs.mapM digit? with
  | some ds => if h : ds.length = 32 then some ⟨ds, h⟩ else none
  | none => none

/-- The UUID written in groups. -/
def ofGroups? (cs : List Char) : Option Uuid :=
  if cs.length = 36 then unhyphenate? groups cs >>= ofDigits? else none

/-- Opening of the URN form. -/
def urn : List Char := "urn:uuid:".toList

/-- Reads any of the four forms, and nothing else. -/
def ofChars? (cs : List Char) : Option Uuid :=
  if cs.length = 32 then ofDigits? cs
  else if cs.length = 36 then ofGroups? cs
  -- in braces
  else if cs.length = 38 && cs.head? = some '\x7b' && cs.getLast? = some '\x7d' then
    ofGroups? (cs.tail.dropLast)
  else if (cs.take urn.length).map Char.toLower = urn then ofGroups? (cs.drop urn.length)
  else none

def ofString? (s : String) : Option Uuid := ofChars? s.toList

/-- The `n` lowest digits of a number, most significant first. -/
def lowDigits : (n : Nat) → (value : Nat) → List (Fin 16)
  | 0, _ => []
  | n + 1, value => lowDigits n (value / 16) ++ [Fin.ofNat 16 value]

@[simp] theorem length_lowDigits (n value : Nat) : (lowDigits n value).length = n := by
  induction n generalizing value with
  | zero => rfl
  | succ n ih => simp [lowDigits, ih]

/-- A UUID of version 4: the version in the 13th digit, the variant in the two high bits of the
17th, and 122 bits of chance in all other places. -/
def ofChance (bits : BitVec 122) : Uuid where
  digits :=
    lowDigits 12 (bits.toNat / Nat.pow 2 74) ++ [4] ++ lowDigits 3 (bits.toNat / Nat.pow 2 62) ++
      [Fin.ofNat 16 (8 + bits.toNat / Nat.pow 2 60 % 4)] ++ lowDigits 15 bits.toNat
  length_digits := by simp

/-- The version digit. -/
def version (u : Uuid) : Nat := (u.digits.get ⟨12, by simp [u.length_digits]⟩).val

end Uuid

/-- Supply of fresh UUIDs: the bits that chance gives for each draw, and how many were drawn. -/
structure IdSupply where
  chance : Nat → BitVec 122
  drawn : Nat := 0

namespace IdSupply

/-- The next fresh UUID. -/
def next (ids : IdSupply) : Uuid := Uuid.ofChance (ids.chance ids.drawn)

/-- The supply after one draw. -/
def advance (ids : IdSupply) : IdSupply := ⟨ids.chance, ids.drawn + 1⟩

end IdSupply

end InstallManifest
