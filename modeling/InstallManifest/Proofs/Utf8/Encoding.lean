import InstallManifest.Proofs.Utf8.Decoding

/-!
# Texts that are read from their bytes

The encoding of a character is one unit, whatever bytes come after it, and that unit is the
character. So a text is got back from its bytes, and bytes are a text exactly if they are the
encoding of one.
-/

namespace InstallManifest.Utf8

variable {b : UInt8} {bits : Nat}

/-! ## First bytes

A first byte tells how many bytes follow. The first of these has narrower bounds after the bytes
that could begin a longer form than needed, a surrogate, or a code point above the last. -/

theorem lead?_one (hb : b.toNat < 0x80) : lead? b = some ⟨0, 0x80, 0xBF, b.toNat⟩ := if_pos hb

theorem lead?_two (hb : b.toNat = 0xC0 + bits) (hleast : 2 ≤ bits) (hmost : bits < 32) :
    lead? b = some ⟨1, 0x80, 0xBF, bits⟩ := by
  unfold lead?
  simp only [UInt8.lt_iff_toNat_lt, ← UInt8.toNat_inj, UInt8.reduceToNat]
  rw [if_neg (by omega), if_neg (by omega), if_pos (by omega), hb, Nat.add_sub_cancel_left]

theorem lead?_three (hb : b.toNat = 0xE0 + bits) (hmost : bits < 16) :
    lead? b = some
      ⟨2, if bits = 0 then 0xA0 else 0x80, if bits = 13 then 0x9F else 0xBF, bits⟩ := by
  unfold lead?
  simp only [UInt8.lt_iff_toNat_lt, ← UInt8.toNat_inj, UInt8.reduceToNat]
  rw [if_neg (by omega), if_neg (by omega), if_neg (by omega), hb]
  by_cases hlow : bits = 0
  · rw [hlow]
    rfl
  by_cases hsurrogate : bits = 13
  · rw [hsurrogate]
    rfl
  rw [if_neg (by omega), if_neg (by omega), if_pos (by omega), if_neg hlow, if_neg hsurrogate,
    Nat.add_sub_cancel_left]

theorem lead?_four (hb : b.toNat = 0xF0 + bits) (hmost : bits < 5) :
    lead? b = some
      ⟨3, if bits = 0 then 0x90 else 0x80, if bits = 4 then 0x8F else 0xBF, bits⟩ := by
  unfold lead?
  simp only [UInt8.lt_iff_toNat_lt, ← UInt8.toNat_inj, UInt8.reduceToNat]
  rw [if_neg (by omega), if_neg (by omega), if_neg (by omega), if_neg (by omega), if_neg (by omega),
    if_neg (by omega), hb]
  by_cases hlow : bits = 0
  · rw [hlow]
    rfl
  by_cases hhigh : bits = 4
  · rw [hhigh]
    rfl
  rw [if_neg (by omega), if_pos (by omega), if_neg hlow, if_neg hhigh, Nat.add_sub_cancel_left]

/-! ## Units -/

/-- A continuation takes six bits that are within its bounds. -/
theorem continuation_cons {count n : Nat} {low high : UInt8} (hlow : low.toNat ≤ n % 64 + 128)
    (hhigh : n % 64 + 128 ≤ high.toNat) (bits : Nat) (bs : Bytes) :
    continuation (count + 1) low high bits (UInt8.ofNat (n % 64 + 128) :: bs)
      = continuation count 0x80 0xBF (bits * 64 + n % 64) bs := by
  -- six bits and the mark of a later byte fit into a byte
  have hbyte : (UInt8.ofNat (n % 64 + 128)).toNat = n % 64 + 128 :=
    UInt8.toNat_ofNat_of_lt' (show n % 64 + 128 < 256 by omega)
  have hbounds : (decide (low ≤ UInt8.ofNat (n % 64 + 128)) &&
      decide (UInt8.ofNat (n % 64 + 128) ≤ high)) = true := by
    rw [Bool.and_eq_true, decide_eq_true_eq, decide_eq_true_eq, UInt8.le_iff_toNat_le,
      UInt8.le_iff_toNat_le, hbyte]
    exact ⟨hlow, hhigh⟩
  rw [continuation, if_pos hbounds, hbyte, Nat.add_sub_cancel]

/-- Any six bits are within the bounds of a later byte. -/
theorem continuation_cons_later (count bits n : Nat) (bs : Bytes) :
    continuation (count + 1) 0x80 0xBF bits (UInt8.ofNat (n % 64 + 128) :: bs)
      = continuation count 0x80 0xBF (bits * 64 + n % 64) bs :=
  continuation_cons (show 128 ≤ n % 64 + 128 by omega) (show n % 64 + 128 ≤ 191 by omega) bits bs

theorem unit_of_lead? {lead : Lead} {code : Nat} {bs rest : Bytes} (hlead : lead? b = some lead)
    (hcode : continuation lead.count lead.low lead.high lead.bits bs = (some code, rest)) :
    unit b bs = (some (Char.ofNat code), rest) := by
  rw [unit, hlead]
  dsimp only
  rw [hcode]
  rfl

/-- The bytes of a character are one unit, which is the character. -/
theorem unit_utf8EncodeChar (c : Char) (rest : Bytes) :
    ∃ b bs, String.utf8EncodeChar c ++ rest = b :: bs ∧ unit b bs = (some c, rest) := by
  have hvalid : c.toNat.isValidChar := c.valid
  have hback : Char.ofNat c.toNat = c := Char.ofNat_toNat c
  have hbyte {n : Nat} (h : n < 256) : (UInt8.ofNat n).toNat = n := UInt8.toNat_ofNat_of_lt' h
  unfold String.utf8EncodeChar
  rw [Char.toNat_val]
  generalize c.toNat = v at hvalid hback
  subst hback
  dsimp only
  -- the four lengths of an encoding; each byte holds six bits, but for the first
  split_ifs with h₁ h₂ h₃
  · have hb : (UInt8.ofNat v).toNat = v := hbyte (by omega)
    refine ⟨_, _, rfl, unit_of_lead? (lead?_one (by omega)) ?_⟩
    rw [hb]
    rfl
  · have hb : (UInt8.ofNat (v / 64 % 32 + 192)).toNat = 0xC0 + v / 64 := by
      rw [hbyte (by omega)]
      omega
    refine ⟨_, UInt8.ofNat (v % 64 + 128) :: rest, rfl,
      unit_of_lead? (lead?_two hb (by omega) (by omega)) ?_⟩
    rw [continuation_cons_later, Nat.div_add_mod']
    rfl
  · have hb : (UInt8.ofNat (v / 4096 % 16 + 224)).toNat = 0xE0 + v / 4096 := by
      rw [hbyte (by omega)]
      omega
    refine ⟨_, UInt8.ofNat (v / 64 % 64 + 128) :: UInt8.ofNat (v % 64 + 128) :: rest, rfl,
      unit_of_lead? (lead?_three hb (by omega)) ?_⟩
    have hcode : (v / 4096 * 64 + v / 64 % 64) * 64 + v % 64 = v := by omega
    dsimp only
    rw [continuation_cons, continuation_cons_later, hcode]
    · rfl
    · -- no longer form than needed
      split_ifs
      · show 160 ≤ v / 64 % 64 + 128
        omega
      · show 128 ≤ v / 64 % 64 + 128
        omega
    · -- no surrogate
      split_ifs
      · show v / 64 % 64 + 128 ≤ 159
        rcases hvalid with hvalid | hvalid <;> omega
      · show v / 64 % 64 + 128 ≤ 191
        omega
  · have hmost : v < 0x110000 := by rcases hvalid with hvalid | hvalid <;> omega
    have hb : (UInt8.ofNat (v / 262144 % 8 + 240)).toNat = 0xF0 + v / 262144 := by
      rw [hbyte (by omega)]
      omega
    refine ⟨_, UInt8.ofNat (v / 4096 % 64 + 128) :: UInt8.ofNat (v / 64 % 64 + 128) ::
      UInt8.ofNat (v % 64 + 128) :: rest, rfl, unit_of_lead? (lead?_four hb (by omega)) ?_⟩
    have hcode :
        ((v / 262144 * 64 + v / 4096 % 64) * 64 + v / 64 % 64) * 64 + v % 64 = v := by
      omega
    dsimp only
    rw [continuation_cons, continuation_cons_later, continuation_cons_later, hcode]
    · rfl
    · split_ifs
      · show 144 ≤ v / 4096 % 64 + 128
        omega
      · show 128 ≤ v / 4096 % 64 + 128
        omega
    · split_ifs
      · show v / 4096 % 64 + 128 ≤ 143
        omega
      · show v / 4096 % 64 + 128 ≤ 191
        omega

/-! ## Texts -/

theorem units_encodeChars (cs : List Char) : units (encodeChars cs) = cs.map some := by
  induction cs with
  | nil => rw [encodeChars, List.flatMap_nil, units, List.map_nil]
  | cons c cs ih =>
    obtain ⟨b, bs, hbytes, hunit⟩ := unit_utf8EncodeChar c (encodeChars cs)
    have hcons : encodeChars (c :: cs) = String.utf8EncodeChar c ++ encodeChars cs :=
      List.flatMap_cons
    rw [hcons, hbytes, units_cons hunit, ih, List.map_cons]

/-- A text is got back from its bytes. -/
theorem decode?_encode (s : String) : decode? (encode s) = some s := by
  -- all units are characters, so none is missing
  have hchars : (s.toList.map some).mapM id = some s.toList := by
    induction s.toList with
    | nil => rfl
    | cons c cs ih => rw [List.map_cons, List.mapM_cons, ih]; rfl
  rw [decode?, encode, units_encodeChars, hchars, Option.map_some, String.ofList_toList]

/-- Bytes are read as a text exactly if they are its encoding. -/
theorem decode?_eq_some_iff {bs : Bytes} {s : String} : decode? bs = some s ↔ encode s = bs :=
  ⟨encode_of_decode?, fun h => h ▸ decode?_encode s⟩

end InstallManifest.Utf8
