/-!
# UTF-8

Texts as bytes and back. Reading goes one unit at a time, where a unit is either a character or a
longest run of bytes that begins one and breaks off; `decode?` refuses a broken unit and
`decodeLossy` puts a replacement character in its place.
-/

namespace InstallManifest.Utf8

abbrev Bytes := List UInt8

/-- The bytes of a list of characters. -/
def encodeChars (cs : List Char) : Bytes := cs.flatMap String.utf8EncodeChar

/-- The bytes of a text. -/
def encode (s : String) : Bytes := encodeChars s.toList

/-- The number of bytes of a list of characters. -/
def size : List Char → Nat
  | [] => 0
  | c :: cs => c.utf8Size + size cs

/-- What the first byte of a character says about the bytes that follow it. -/
structure Lead where
  /-- How many bytes follow. -/
  count : Nat
  /-- The least value of the first of them. -/
  low : UInt8
  /-- The greatest value of the first of them. -/
  high : UInt8
  /-- The bits of the code point that the first byte holds. -/
  bits : Nat

/-- No character starts with a continuation byte, nor with a byte that would make a longer form than
needed, a surrogate or a code point above the last. -/
def lead? (b : UInt8) : Option Lead :=
  if b < 0x80 then some ⟨0, 0x80, 0xBF, b.toNat⟩
  else if b < 0xC2 then none
  else if b < 0xE0 then some ⟨1, 0x80, 0xBF, b.toNat - 0xC0⟩
  else if b = 0xE0 then some ⟨2, 0xA0, 0xBF, 0⟩
  else if b = 0xED then some ⟨2, 0x80, 0x9F, 0xD⟩
  else if b < 0xF0 then some ⟨2, 0x80, 0xBF, b.toNat - 0xE0⟩
  else if b = 0xF0 then some ⟨3, 0x90, 0xBF, 0⟩
  else if b < 0xF4 then some ⟨3, 0x80, 0xBF, b.toNat - 0xF0⟩
  else if b = 0xF4 then some ⟨3, 0x80, 0x8F, 4⟩
  else none

/-- Reads `count` continuation bytes, the first of them within the given bounds. -/
def continuation : (count : Nat) → (low high : UInt8) → (bits : Nat) → Bytes → Option Nat × Bytes
  | 0, _, _, bits, bs => (some bits, bs)
  | _ + 1, _, _, _, [] => (none, [])
  | count + 1, low, high, bits, b :: bs =>
    if low ≤ b && b ≤ high then continuation count 0x80 0xBF (bits * 64 + (b.toNat - 0x80)) bs
    else (none, b :: bs)

theorem continuation_length (count : Nat) (low high : UInt8) (bits : Nat) (bs : Bytes) :
    (continuation count low high bits bs).2.length ≤ bs.length := by
  induction count generalizing low high bits bs with
  | zero => simp [continuation]
  | succ count ih =>
    cases bs with
    | nil => simp [continuation]
    | cons b bs =>
      rw [continuation]
      split
      · exact Nat.le_succ_of_le (ih ..)
      · exact Nat.le_refl _

/-- The unit that starts with byte `b`, and the bytes after it. -/
def unit (b : UInt8) (bs : Bytes) : Option Char × Bytes :=
  match lead? b with
  | none => (none, bs)
  | some lead =>
    let (code, rest) := continuation lead.count lead.low lead.high lead.bits bs
    (code.map Char.ofNat, rest)

theorem unit_length (b : UInt8) (bs : Bytes) : (unit b bs).2.length ≤ bs.length := by
  unfold unit
  split
  · exact Nat.le_refl _
  · exact continuation_length ..

/-- The units of a list of bytes: a character each, or `none` for a broken one. -/
def units : Bytes → List (Option Char)
  | [] => []
  | b :: bs =>
    match _h : unit b bs with
    | (char, rest) => char :: units rest
termination_by bs => bs.length
decreasing_by
  have h := unit_length b bs
  rw [_h] at h
  exact Nat.lt_succ_of_le h

/-- The text that the bytes encode, if they encode one. -/
def decode? (bs : Bytes) : Option String :=
  ((units bs).mapM id).map String.ofList

/-- The text with U+FFFD for every broken unit. -/
def decodeLossy (bs : Bytes) : String :=
  String.ofList ((units bs).map (·.getD '\uFFFD'))

end InstallManifest.Utf8
