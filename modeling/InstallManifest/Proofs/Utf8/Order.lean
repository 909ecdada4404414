import InstallManifest.Utf8
import Mathlib.Tactic.SplitIfs

/-!
# The order of texts and of their bytes

UTF-8 keeps the order of code points: of two texts, the one that comes first by code points comes
first by its bytes as well. The bytes of two different characters differ at a place that both have,
so whatever follows the characters does not matter.
-/

namespace InstallManifest.Utf8

/-- The order of bytes as a dictionary has it: by the first difference, or else by what ends
first. -/
def Precedes (bs bs' : Bytes) : Prop := List.Lex (fun b b' => b.toNat < b'.toNat) bs bs'

/-- At the first difference both lists have a byte, and that of the first list is less. Unlike the
order itself this stays so with anything behind the two lists. -/
def DivergesBelow : Bytes → Bytes → Prop
  | b :: bs, b' :: bs' => b.toNat < b'.toNat ∨ b.toNat = b'.toNat ∧ DivergesBelow bs bs'
  | _, _ => False

theorem precedes_cons_iff {b b' : UInt8} {bs bs' : Bytes} :
    Precedes (b :: bs) (b' :: bs') ↔ b.toNat < b'.toNat ∨ b.toNat = b'.toNat ∧ Precedes bs bs' := by
  rw [Precedes, List.cons_lex_cons_iff, UInt8.toNat_inj]
  rfl

/-- What both lists begin with does not matter. -/
theorem precedes_append_iff {common bs bs' : Bytes} :
    Precedes (common ++ bs) (common ++ bs') ↔ Precedes bs bs' := by
  induction common with
  | nil => rfl
  | cons b common ih => simp [precedes_cons_iff, ih]

namespace DivergesBelow

variable {bs bs' : Bytes}

/-- A difference that is there decides the order, whatever follows it. -/
theorem precedes (h : DivergesBelow bs bs') (rest rest' : Bytes) :
    Precedes (bs ++ rest) (bs' ++ rest') := by
  induction bs generalizing bs' with
  | nil => cases h
  | cons b bs ih =>
    cases bs' with
    | nil => cases h
    | cons b' bs' =>
      rw [List.cons_append, List.cons_append, precedes_cons_iff]
      exact h.imp_right fun ⟨heq, htail⟩ => ⟨heq, ih htail⟩

/-- It decides against the opposite order just as well. -/
theorem not_precedes (h : DivergesBelow bs bs') (rest rest' : Bytes) :
    ¬ Precedes (bs' ++ rest') (bs ++ rest) := by
  induction bs generalizing bs' with
  | nil => cases h
  | cons b bs ih =>
    cases bs' with
    | nil => cases h
    | cons b' bs' =>
      rw [List.cons_append, List.cons_append, precedes_cons_iff]
      rintro (hlt | ⟨heq, hprecedes⟩)
      · rcases h with hlt' | ⟨heq', -⟩ <;> omega
      · rcases h with hlt' | ⟨-, htail⟩
        · omega
        · exact ih htail hprecedes

/-- The first byte of a character grows with the number of its bytes, and the bytes after it hold
six bits each, the highest first. -/
theorem of_char {c d : Char} (h : c.toNat < d.toNat) :
    DivergesBelow (String.utf8EncodeChar c) (String.utf8EncodeChar d) := by
  have hvalid : d.toNat < 0xD800 ∨ 0xDFFF < d.toNat ∧ d.toNat < 0x110000 := d.valid
  have hbyte (k : Nat) (hk : k < 256) : (UInt8.ofNat k).toNat = k := UInt8.toNat_ofNat_of_lt' hk
  unfold String.utf8EncodeChar
  rw [Char.toNat_val, Char.toNat_val]
  generalize c.toNat = m at h ⊢
  generalize d.toNat = n at h hvalid ⊢
  -- what is left without the lowest six bits, again and again
  have hm : m / 64 / 64 = m / 4096 ∧ m / 4096 / 64 = m / 262144 ∧ m / 262144 % 8 = m / 262144 := by
    omega
  have hn : n / 64 / 64 = n / 4096 ∧ n / 4096 / 64 = n / 262144 ∧ n / 262144 % 8 = n / 262144 := by
    omega
  have hsix : m / 64 < n / 64 ∨ m / 64 = n / 64 := by omega
  have htwelve : m / 4096 < n / 4096 ∨ m / 4096 = n / 4096 := by omega
  -- each pair of lengths is a case, and those that code points exclude close by arithmetic
  dsimp only
  split_ifs
  all_goals
    simp (disch := omega) only [DivergesBelow, hbyte, or_false, and_false]
    omega

end DivergesBelow

/-! ## Texts -/

theorem encodeChars_cons (c : Char) (cs : List Char) :
    encodeChars (c :: cs) = String.utf8EncodeChar c ++ encodeChars cs := List.flatMap_cons

/-- Bytes are in order exactly if the characters that they encode are. -/
theorem precedes_encodeChars_iff {cs ds : List Char} :
    Precedes (encodeChars cs) (encodeChars ds) ↔ cs < ds := by
  have hnil {bs : Bytes} : ¬ Precedes bs [] := nofun
  -- every character has a byte, so only texts without characters have none
  have hne (c : Char) : ∃ b bs, String.utf8EncodeChar c = b :: bs :=
    List.exists_cons_of_ne_nil String.utf8EncodeChar_ne_nil
  induction cs generalizing ds with
  | nil =>
    cases ds with
    | nil => simp [encodeChars, hnil]
    | cons d ds =>
      obtain ⟨b, bs, hd⟩ := hne d
      rw [encodeChars_cons, hd]
      exact iff_of_true .nil (List.nil_lt_cons d ds)
  | cons c cs ih =>
    cases ds with
    | nil => exact iff_of_false hnil (List.not_lt_nil _)
    | cons d ds =>
      rw [encodeChars_cons, encodeChars_cons, List.cons_lt_cons_iff]
      -- different first characters settle the order, whatever follows them
      rcases Nat.lt_trichotomy c.toNat d.toNat with hlt | heq | hgt
      · exact iff_of_true ((DivergesBelow.of_char hlt).precedes _ _) (.inl hlt)
      · rw [Char.toNat_inj.1 heq, precedes_append_iff]
        exact ih.trans ((or_iff_right (Char.lt_irrefl d)).trans (and_iff_right rfl)).symm
      · refine iff_of_false ((DivergesBelow.of_char hgt).not_precedes _ _) ?_
        rintro (hlt | ⟨rfl, -⟩)
        · exact Nat.lt_asymm hgt hlt
        · exact Nat.lt_irrefl _ hgt

/-- Of two texts, the one that comes first by code points comes first by bytes. -/
theorem precedes_encode_iff {s t : String} : Precedes (encode s) (encode t) ↔ s < t := by
  rw [encode, encode, precedes_encodeChars_iff]
  rfl

end InstallManifest.Utf8
