import InstallManifest.Utf8
import Mathlib.Tactic.SplitIfs

/-!
# Bytes that encode a text

Bytes that can be read as a text are the encoding of that text and of no other: the shortest form of
each character is the only one that is read. A byte that is a character by itself cuts bytes in two
parts, and they are a text if both parts are.
-/

namespace InstallManifest.Utf8

/-! ## Continuation bytes -/

/-- A continuation that was read takes one byte at a time, the first within its own bounds. -/
theorem continuation_succ {count : Nat} {low high : UInt8} {bits code : Nat} {bs rest : Bytes}
    (h : continuation (count + 1) low high bits bs = (some code, rest)) :
    ∃ b tail, bs = b :: tail ∧ low.toNat ≤ b.toNat ∧ b.toNat ≤ high.toNat ∧
      continuation count 0x80 0xBF (bits * 64 + (b.toNat - 0x80)) tail = (some code, rest) := by
  cases bs with
  | nil => simp [continuation] at h
  | cons b tail =>
    rw [continuation] at h
    split at h
    · next hbounds =>
      simp only [Bool.and_eq_true, decide_eq_true_eq] at hbounds
      exact ⟨b, tail, rfl, hbounds.1, hbounds.2, h⟩
    · simp at h

theorem continuation_later {count bits code : Nat} {bs rest : Bytes}
    (h : continuation (count + 1) 0x80 0xBF bits bs = (some code, rest)) :
    ∃ b tail, bs = b :: tail ∧ (0x80 ≤ b.toNat ∧ b.toNat ≤ 0xBF) ∧
      continuation count 0x80 0xBF (bits * 64 + (b.toNat - 0x80)) tail = (some code, rest) := by
  obtain ⟨b, tail, hbs, hlow, hhigh, htail⟩ := continuation_succ h
  simp only [UInt8.reduceToNat] at hlow hhigh
  exact ⟨b, tail, hbs, ⟨hlow, hhigh⟩, htail⟩

theorem continuation_zero {low high : UInt8} {bits code : Nat} {bs rest : Bytes}
    (h : continuation 0 low high bits bs = (some code, rest)) : code = bits ∧ bs = rest := by
  simpa [continuation, eq_comm] using h

/-! ## Characters by the number of their bytes -/

theorem toNat_ofNat_of_isValidChar {n : Nat} (h : n.isValidChar) : (Char.ofNat n).toNat = n := by
  rw [Char.ofNat, dif_pos h]
  rfl

variable {b b₁ b₂ b₃ : UInt8} {bits : Nat}

theorem utf8EncodeChar_one (hb : b.toNat < 0x80) :
    String.utf8EncodeChar (Char.ofNat b.toNat) = [b] := by
  have hvalid : b.toNat.isValidChar := .inl (by omega)
  unfold String.utf8EncodeChar
  rw [Char.toNat_val, toNat_ofNat_of_isValidChar hvalid]
  dsimp only
  rw [if_pos (by omega), UInt8.ofNat_toNat]

theorem utf8EncodeChar_two (hb : b.toNat = 0xC0 + bits) (hleast : 2 ≤ bits) (hmost : bits < 32)
    (h₁ : 0x80 ≤ b₁.toNat ∧ b₁.toNat ≤ 0xBF) :
    String.utf8EncodeChar (Char.ofNat (bits * 64 + (b₁.toNat - 0x80))) = [b, b₁] := by
  obtain ⟨d₁, hd₁⟩ := Nat.exists_eq_add_of_le h₁.1
  have hvalid : (bits * 64 + d₁).isValidChar := .inl (by omega)
  unfold String.utf8EncodeChar
  rw [hd₁, Nat.add_sub_cancel_left, Char.toNat_val, toNat_ofNat_of_isValidChar hvalid]
  dsimp only
  rw [if_neg (by omega), if_pos (by omega)]
  simp only [List.cons.injEq, ← UInt8.toNat_inj, UInt8.toNat_ofNat', and_true]
  omega

/-- The code points that no character has lie in the upper half of those with the bits 13. -/
theorem utf8EncodeChar_three (hb : b.toNat = 0xE0 + bits) (hmost : bits < 16)
    (h₁ : 0x80 ≤ b₁.toNat ∧ b₁.toNat ≤ 0xBF) (h₂ : 0x80 ≤ b₂.toNat ∧ b₂.toNat ≤ 0xBF)
    (hleast : bits = 0 → 0xA0 ≤ b₁.toNat) (hvalid : bits = 13 → b₁.toNat ≤ 0x9F) :
    String.utf8EncodeChar
        (Char.ofNat ((bits * 64 + (b₁.toNat - 0x80)) * 64 + (b₂.toNat - 0x80)))
      = [b, b₁, b₂] := by
  obtain ⟨d₁, hd₁⟩ := Nat.exists_eq_add_of_le h₁.1
  obtain ⟨d₂, hd₂⟩ := Nat.exists_eq_add_of_le h₂.1
  -- the bounds on the second byte keep the code off those that no character has
  have hvalid : ((bits * 64 + d₁) * 64 + d₂).isValidChar := by
    rw [Nat.isValidChar]
    omega
  unfold String.utf8EncodeChar
  rw [hd₁, hd₂, Nat.add_sub_cancel_left, Nat.add_sub_cancel_left, Char.toNat_val,
    toNat_ofNat_of_isValidChar hvalid]
  dsimp only
  rw [if_neg (by omega), if_neg (by omega), if_pos (by omega)]
  simp only [List.cons.injEq, ← UInt8.toNat_inj, UInt8.toNat_ofNat', and_true]
  omega

theorem utf8EncodeChar_four (hb : b.toNat = 0xF0 + bits) (hmost : bits < 5)
    (h₁ : 0x80 ≤ b₁.toNat ∧ b₁.toNat ≤ 0xBF) (h₂ : 0x80 ≤ b₂.toNat ∧ b₂.toNat ≤ 0xBF)
    (h₃ : 0x80 ≤ b₃.toNat ∧ b₃.toNat ≤ 0xBF)
    (hleast : bits = 0 → 0x90 ≤ b₁.toNat) (hvalid : bits = 4 → b₁.toNat ≤ 0x8F) :
    String.utf8EncodeChar (Char.ofNat
        (((bits * 64 + (b₁.toNat - 0x80)) * 64 + (b₂.toNat - 0x80)) * 64 + (b₃.toNat - 0x80)))
      = [b, b₁, b₂, b₃] := by
  obtain ⟨d₁, hd₁⟩ := Nat.exists_eq_add_of_le h₁.1
  obtain ⟨d₂, hd₂⟩ := Nat.exists_eq_add_of_le h₂.1
  obtain ⟨d₃, hd₃⟩ := Nat.exists_eq_add_of_le h₃.1
  have hvalid : (((bits * 64 + d₁) * 64 + d₂) * 64 + d₃).isValidChar := by
    rw [Nat.isValidChar]
    omega
  unfold String.utf8EncodeChar
  rw [hd₁, hd₂, hd₃, Nat.add_sub_cancel_left, Nat.add_sub_cancel_left, Nat.add_sub_cancel_left,
    Char.toNat_val, toNat_ofNat_of_isValidChar hvalid]
  dsimp only
  rw [if_neg (by omega), if_neg (by omega), if_neg (by omega)]
  simp only [List.cons.injEq, ← UInt8.toNat_inj, UInt8.toNat_ofNat', and_true]
  omega

/-! ## Units -/

variable {c : Char} {lead : Lead} {bs rest : Bytes}

/-- What a first byte asks of the bytes after it, by the number of them. -/
theorem bounds_of_lead? (h : lead? b = some lead) :
    (lead.count = 0 ∧ b.toNat < 0x80 ∧ lead.bits = b.toNat) ∨
    (lead.count = 1 ∧ b.toNat = 0xC0 + lead.bits ∧ 2 ≤ lead.bits ∧ lead.bits < 32 ∧
      0x80 ≤ lead.low.toNat ∧ lead.high.toNat ≤ 0xBF) ∨
    (lead.count = 2 ∧ b.toNat = 0xE0 + lead.bits ∧ lead.bits < 16 ∧
      0x80 ≤ lead.low.toNat ∧ lead.high.toNat ≤ 0xBF ∧
      (lead.bits = 0 → 0xA0 ≤ lead.low.toNat) ∧ (lead.bits = 13 → lead.high.toNat ≤ 0x9F)) ∨
    (lead.count = 3 ∧ b.toNat = 0xF0 + lead.bits ∧ lead.bits < 5 ∧
      0x80 ≤ lead.low.toNat ∧ lead.high.toNat ≤ 0xBF ∧
      (lead.bits = 0 → 0x90 ≤ lead.low.toNat) ∧ (lead.bits = 4 → lead.high.toNat ≤ 0x8F)) := by
  unfold lead? at h
  simp only [UInt8.lt_iff_toNat_lt, ← UInt8.toNat_inj] at h
  simp only [UInt8.reduceToNat] at h
  split_ifs at h
  all_goals
    cases h
    simp only [UInt8.reduceToNat]
    simp
    try omega

/-- A unit that is a character is its encoding. -/
theorem eq_append_of_unit (h : unit b bs = (some c, rest)) :
    b :: bs = String.utf8EncodeChar c ++ rest := by
  unfold unit at h
  split at h
  · simp at h
  next lead hlead =>
  generalize hcontinuation : continuation lead.count lead.low lead.high lead.bits bs = result at h
  obtain ⟨code?, rest'⟩ := result
  simp only [Prod.mk.injEq, Option.map_eq_some_iff] at h
  obtain ⟨⟨code, rfl, rfl⟩, rfl⟩ := h
  -- by the number of bytes, of which the first has its own bounds
  rcases bounds_of_lead? hlead with ⟨hcount, hb, hbits⟩ | ⟨hcount, hb, hleast, hmost, hlow, hhigh⟩ |
    ⟨hcount, hb, hmost, hlow, hhigh, hleast, hvalid⟩ |
    ⟨hcount, hb, hmost, hlow, hhigh, hleast, hvalid⟩
  · rw [hcount] at hcontinuation
    obtain ⟨rfl, rfl⟩ := continuation_zero hcontinuation
    rw [hbits, utf8EncodeChar_one hb]
    rfl
  · rw [hcount] at hcontinuation
    obtain ⟨b₁, bs₁, rfl, h₁, h₁', hcontinuation⟩ := continuation_succ hcontinuation
    obtain ⟨hcode, rfl⟩ := continuation_zero hcontinuation
    have hb₁ : 0x80 ≤ b₁.toNat ∧ b₁.toNat ≤ 0xBF := ⟨Nat.le_trans hlow h₁, Nat.le_trans h₁' hhigh⟩
    rw [hcode, utf8EncodeChar_two hb hleast hmost hb₁]
    rfl
  · rw [hcount] at hcontinuation
    obtain ⟨b₁, bs₁, rfl, h₁, h₁', hcontinuation⟩ := continuation_succ hcontinuation
    obtain ⟨b₂, bs₂, rfl, hb₂, hcontinuation⟩ := continuation_later hcontinuation
    obtain ⟨hcode, rfl⟩ := continuation_zero hcontinuation
    have hb₁ : 0x80 ≤ b₁.toNat ∧ b₁.toNat ≤ 0xBF := ⟨Nat.le_trans hlow h₁, Nat.le_trans h₁' hhigh⟩
    rw [hcode, utf8EncodeChar_three hb hmost hb₁ hb₂ (fun h0 => Nat.le_trans (hleast h0) h₁)
      (fun h13 => Nat.le_trans h₁' (hvalid h13))]
    rfl
  · rw [hcount] at hcontinuation
    obtain ⟨b₁, bs₁, rfl, h₁, h₁', hcontinuation⟩ := continuation_succ hcontinuation
    obtain ⟨b₂, bs₂, rfl, hb₂, hcontinuation⟩ := continuation_later hcontinuation
    obtain ⟨b₃, bs₃, rfl, hb₃, hcontinuation⟩ := continuation_later hcontinuation
    obtain ⟨hcode, rfl⟩ := continuation_zero hcontinuation
    have hb₁ : 0x80 ≤ b₁.toNat ∧ b₁.toNat ≤ 0xBF := ⟨Nat.le_trans hlow h₁, Nat.le_trans h₁' hhigh⟩
    rw [hcode, utf8EncodeChar_four hb hmost hb₁ hb₂ hb₃ (fun h0 => Nat.le_trans (hleast h0) h₁)
      (fun h4 => Nat.le_trans h₁' (hvalid h4))]
    rfl

/-! ## Texts -/

/-- If all units are characters, the bytes encode them. -/
theorem encodeChars_of_units {cs : List Char} (h : (units bs).mapM id = some cs) :
    encodeChars cs = bs := by
  fun_induction units bs generalizing cs with
  | case1 =>
    cases h
    rfl
  | case2 b bs char rest hunit ih =>
    rw [List.mapM_cons] at h
    obtain ⟨c, hc, htail⟩ := Option.bind_eq_some_iff.1 h
    obtain ⟨cs', hcs', hcons⟩ := Option.bind_eq_some_iff.1 htail
    obtain rfl : char = some c := hc
    obtain rfl : c :: cs' = cs := Option.some_inj.1 hcons
    rw [eq_append_of_unit hunit, ← ih hcs']
    exact List.flatMap_cons

/-- Bytes that can be read are the encoding of what is read. -/
theorem encode_of_decode? {s : String} (h : decode? bs = some s) : encode s = bs := by
  obtain ⟨cs, hcs, rfl⟩ := Option.map_eq_some_iff.1 h
  rw [encode, String.toList_ofList]
  exact encodeChars_of_units hcs

/-! ## Texts in parts -/

/-- A continuation does not reach beyond a byte below its bounds. -/
theorem continuation_append {sep low : UInt8} (hsep : sep.toNat < 0x80) (hlow : 0x80 ≤ low.toNat)
    (count : Nat) (high : UInt8) (bits : Nat) (bs rest : Bytes) :
    continuation count low high bits (bs ++ sep :: rest)
      = ((continuation count low high bits bs).1,
          (continuation count low high bits bs).2 ++ sep :: rest) := by
  induction count generalizing low high bits bs with
  | zero => rfl
  | succ count ih =>
    cases bs with
    | nil =>
      -- the byte after the part is no continuation byte
      have hbelow : (decide (low ≤ sep) && decide (sep ≤ high)) = false := by
        rw [Bool.and_eq_false_iff, decide_eq_false_iff_not, UInt8.le_iff_toNat_le]
        omega
      rw [List.nil_append, continuation, continuation, hbelow]
      rfl
    | cons b bs =>
      rw [List.cons_append, continuation, continuation]
      split
      · exact ih (by decide) ..
      · rfl

theorem low_of_lead? {lead : Lead} (h : lead? b = some lead) :
    lead.count = 0 ∨ 0x80 ≤ lead.low.toNat := by
  rcases bounds_of_lead? h with ⟨hcount, -⟩ | ⟨-, -, -, -, hlow, -⟩ | ⟨-, -, -, hlow, -⟩ |
    ⟨-, -, -, hlow, -⟩
  · exact .inl hcount
  · exact .inr hlow
  · exact .inr hlow
  · exact .inr hlow

/-- A unit that begins in a part ends in it. -/
theorem unit_append {sep : UInt8} (hsep : sep.toNat < 0x80) (b : UInt8) (bs rest : Bytes) :
    unit b (bs ++ sep :: rest) = ((unit b bs).1, (unit b bs).2 ++ sep :: rest) := by
  unfold unit
  split
  · rfl
  next lead hlead =>
  rcases low_of_lead? hlead with hcount | hlow
  · rw [hcount]
    rfl
  · rw [continuation_append hsep hlow]

theorem unit_ascii {sep : UInt8} (hsep : sep.toNat < 0x80) (rest : Bytes) :
    unit sep rest = (some (Char.ofNat sep.toNat), rest) := by
  have hlead : lead? sep = some ⟨0, 0x80, 0xBF, sep.toNat⟩ := if_pos hsep
  rw [unit, hlead]
  rfl

theorem units_cons {char : Option Char} {rest : Bytes} (h : unit b bs = (char, rest)) :
    units (b :: bs) = char :: units rest := by
  rw [units, h]

/-- A byte below 80 is a character of its own wherever it stands. -/
theorem units_append {sep : UInt8} (hsep : sep.toNat < 0x80) (bs rest : Bytes) :
    units (bs ++ sep :: rest) = units bs ++ some (Char.ofNat sep.toNat) :: units rest := by
  fun_induction units bs with
  | case1 => rw [List.nil_append, List.nil_append, units_cons (unit_ascii hsep rest)]
  | case2 b bs char after hunit ih =>
    -- a unit ends within its part, so the other part does not matter
    have hunit' : unit b (bs ++ sep :: rest) = (char, after ++ sep :: rest) := by
      rw [unit_append hsep, hunit]
    rw [List.cons_append, units_cons hunit', ih, List.cons_append]

theorem decode?_eq_none_iff : decode? bs = none ↔ none ∈ units bs := by
  rw [decode?, Option.map_eq_none_iff]
  induction units bs with
  | nil => simp
  | cons char units ih =>
    rw [List.mapM_cons]
    -- the first unit that is no character is enough
    cases char with
    | none => simp
    | some c => cases hunits : units.mapM id <;> simp_all

/-- Two parts with such a byte between them are a text if both of them are. -/
theorem decode?_append_eq_none_iff {sep : UInt8} (hsep : sep.toNat < 0x80) (bs rest : Bytes) :
    decode? (bs ++ sep :: rest) = none ↔ decode? bs = none ∨ decode? rest = none := by
  simp only [decode?_eq_none_iff, units_append hsep, List.mem_append, List.mem_cons, reduceCtorEq,
    false_or]

end InstallManifest.Utf8
