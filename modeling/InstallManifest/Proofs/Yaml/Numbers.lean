import InstallManifest.Proofs.Yaml.WrittenTokens

/-!
# Numbers as plain scalars

The decimal digits of a number can be written plain, and the number is read back from them.
-/

namespace InstallManifest

namespace Digit

theorem value?_digitChar {d : Nat} (h : d < 10) : value? 10 (Nat.digitChar d) = some d := by
  have hall : ∀ d : Fin 10, value? 10 (Nat.digitChar d) = some d.val := by decide
  exact hall ⟨d, h⟩

/-- Decimal digits are read as the number that they were made of. -/
theorem natural?_toDigits (n : Nat) : natural? 10 (Nat.toDigits 10 n) = some n := by
  rw [natural?, if_neg (by simp [Nat.toDigits_ne_nil])]
  induction n using Nat.strongRecOn with
  | ind n ih =>
    -- the last digit is apart from the number before it
    rcases Nat.lt_or_ge n 10 with hn | hn
    · rw [Nat.toDigits_of_lt_base hn]
      simp [value?_digitChar hn]
    · have hlast := value?_digitChar (Nat.mod_lt n (by decide : 0 < 10))
      rw [Nat.toDigits_of_base_le (by decide) hn, List.foldlM_append,
        ih (n / 10) (Nat.div_lt_self (by omega) (by decide))]
      simp [hlast, Nat.div_add_mod']

/-- Only zero begins with a zero. -/
theorem head?_toDigits_ne_zero {n : Nat} (hn : n ≠ 0) :
    (Nat.toDigits 10 n).head? ≠ some '0' := by
  induction n using Nat.strongRecOn with
  | ind n ih =>
    rcases Nat.lt_or_ge n 10 with hlt | hge
    · have hall : ∀ d : Fin 10, d.val ≠ 0 → Nat.digitChar d ≠ '0' := by decide
      rw [Nat.toDigits_of_lt_base hlt, List.head?_cons]
      exact fun h => hall ⟨n, hlt⟩ hn (Option.some.inj h)
    · rw [Nat.toDigits_of_base_le (by decide) hge,
        List.head?_append_of_ne_nil _ Nat.toDigits_ne_nil]
      exact ih (n / 10) (Nat.div_lt_self (by omega) (by decide)) (by omega)

end Digit

namespace Yaml

/-! ## Texts of digits -/

/-- Whether a text is a row of decimal digits. -/
def AllDigits (cs : List Char) : Prop := ∀ c ∈ cs, c.isDigit = true

theorem allDigits_toDigits (n : Nat) : AllDigits (Nat.toDigits 10 n) :=
  fun _ => Nat.isDigit_of_mem_toDigits (by decide) (by decide)

namespace AllDigits

variable {cs : List Char}

theorem ne_of_mem (h : AllDigits cs) {c d : Char} (hc : c ∈ cs) (hd : d.isDigit = false) :
    c ≠ d := by
  rintro rfl
  cases (h c hc).symm.trans hd

theorem head_ne (h : AllDigits cs) {d : Char} (hd : d.isDigit = false) : cs.head? ≠ some d :=
  fun hhead => h.ne_of_mem (List.mem_of_mem_head? hhead) hd rfl

/-- No sign and no other beginning with a mark comes before the digits. -/
theorem isPrefixOf_eq_false (h : AllDigits cs) {mark : List Char} {d : Char} (hmem : d ∈ mark)
    (hd : d.isDigit = false) : mark.isPrefixOf cs = false := by
  refine Bool.eq_false_iff.2 fun hprefix => ?_
  exact h.ne_of_mem ((List.isPrefixOf_iff_prefix.1 hprefix).subset hmem) hd rfl

theorem isPrintable (h : AllDigits cs) {c : Char} (hc : c ∈ cs) : isPrintable c = true := by
  have hdigit := h c hc
  simp only [Char.isDigit, Bool.and_eq_true, decide_eq_true_eq, ge_iff_le,
    UInt32.le_iff_toNat_le] at hdigit
  have hlow : 0x30 ≤ c.toNat := hdigit.1
  have hhigh : c.toNat ≤ 0x39 := hdigit.2
  simp only [Yaml.isPrintable, Bool.or_eq_true, Bool.and_eq_true, decide_eq_true_eq]
  omega

/-- Digits can be written plain. -/
theorem fitsPlain (h : AllDigits cs) : FitsPlain cs where
  run.char c hc := by
    simp [isBreak, h.ne_of_mem hc (d := '\n') rfl, h.ne_of_mem hc (d := '\u2028') rfl,
      h.ne_of_mem hc (d := '\u2029') rfl, h.ne_of_mem hc (d := '\t') rfl]
  run.colon before after heq := absurd rfl (h.ne_of_mem (c := ':') (by simp [heq]) rfl)
  run.hash before after heq := absurd rfl (h.ne_of_mem (c := '#') (by simp [heq]) rfl)
  ne_space_head := h.head_ne rfl
  ne_space_last hlast := h.ne_of_mem (List.mem_of_mem_getLast? hlast) rfl rfl
  printable _ := h.isPrintable
  first := by
    cases cs with
    | nil => rfl
    | cons c cs =>
      have hc := h c List.mem_cons_self
      exact hasFirstIndicator_cons_eq_false (by simp [Char.isAlphanum, hc]) cs

end AllDigits

/-! ## Numbers -/

theorem Block.legible_natural (n : Nat) : (bare (toString n)).Legible := by
  refine .scalar ?_
  rw [Nat.toString_eq_ofList_toDigits, String.toList_ofList]
  exact ⟨Nat.toDigits_ne_nil, (allDigits_toDigits n).fitsPlain⟩

/-- A number is read back from its decimal digits if it is not too large. -/
theorem unsigned?_toDigits {bound n : Nat} (h : n < bound) :
    unsigned? bound (Nat.toDigits 10 n) = some n := by
  have hdigits := allDigits_toDigits n
  have hstart (start : String) {d : Char} (hmem : d ∈ start.toList) (hd : d.isDigit = false) :
      dropStart? start (Nat.toDigits 10 n) = none := by
    rw [dropStart?, hdigits.isPrefixOf_eq_false hmem hd]
    rfl
  have hplus : dropPlus (Nat.toDigits 10 n) = Nat.toDigits 10 n := by
    rw [dropPlus, hstart "+" (d := '+') (by decide) rfl]
    rfl
  -- no radix other than ten is told by what it begins with
  have hradix : radixNumber? "" (Nat.toDigits 10 n) = none := by
    simp [radixNumber?, radixes, hstart "0x" (d := 'x') (by decide) rfl,
      hstart "0o" (d := 'o') (by decide) rfl,
      hstart "0b" (d := 'b') (by decide) rfl]
  have hsigned : isSigned (Nat.toDigits 10 n) = false := by
    rw [isSigned]
    cases hhead : (Nat.toDigits 10 n).head? with
    | none => rfl
    | some c =>
      have hmem := List.mem_of_mem_head? hhead
      simp [hdigits.ne_of_mem hmem (d := '+') rfl, hdigits.ne_of_mem hmem (d := '-') rfl]
  -- a number that is padded would begin with a zero, and not be zero
  have hpadded : isZeroPadded (Nat.toDigits 10 n) = false := by
    rw [isZeroPadded, hsigned]
    rcases Nat.eq_zero_or_pos n with rfl | hn
    · rfl
    · simp [Digit.head?_toDigits_ne_zero (Nat.ne_of_gt hn)]
  simp [unsigned?, hplus, hradix, hsigned, hpadded, Digit.natural?_toDigits, h]

end Yaml

end InstallManifest
