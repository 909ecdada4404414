import InstallManifest.Number.Digit
import InstallManifest.Uuid
import Mathlib.Data.List.Induction
import Mathlib.Logic.Function.Basic
import Mathlib.Tactic.SplitIfs

/-!
# UUIDs as 128 bits

The digits of a UUID are a number in base sixteen. Every number of 128 bits is the number of exactly
one UUID, and the digits are read from a text exactly if the text denotes that number.
-/

namespace InstallManifest.Uuid

/-! ## The number of a row of digits -/

/-- The number that digits denote in base sixteen, most significant first. -/
def number (ds : List (Fin 16)) : Nat := ds.foldl (fun n d => n * 16 + d.val) 0

/-- The last digit is the lowest one. -/
theorem number_concat (ds : List (Fin 16)) (d : Fin 16) :
    number (ds ++ [d]) = number ds * 16 + d.val := by
  rw [number, List.foldl_append]
  rfl

/-- The lowest digits of a number denote it, up to a power of sixteen. -/
theorem number_lowDigits (n value : Nat) : number (lowDigits n value) = value % Nat.pow 16 n := by
  induction n generalizing value with
  | zero => exact (Nat.mod_one value).symm
  | succ n ih =>
    have hdigit : (Fin.ofNat 16 value).val = value % 16 := rfl
    have hpow : Nat.pow 16 (n + 1) = 16 * Nat.pow 16 n := Nat.mul_comm _ _
    -- the last digit is the remainder, the others are the digits of the quotient
    rw [lowDigits, number_concat, ih, hdigit, hpow, Nat.mod_mul]
    omega

/-- Digits are got back from the number that they denote. -/
theorem lowDigits_number (ds : List (Fin 16)) : lowDigits ds.length (number ds) = ds := by
  induction ds using List.reverseRecOn with
  | nil => rfl
  -- the lowest digit is taken off, as it is when digits are made of a number
  | append_singleton ds d ih =>
    have hrest : (number ds * 16 + d.val) / 16 = number ds := by omega
    have hlast : Fin.ofNat 16 (number ds * 16 + d.val) = d := by
      apply Fin.ext
      change (number ds * 16 + d.val) % 16 = d.val
      omega
    rw [List.length_append, List.length_singleton, lowDigits, number_concat, hrest, hlast, ih]

/-- Rows of digits of one length are told apart by their numbers. -/
theorem number_inj {ds es : List (Fin 16)} (hlength : ds.length = es.length)
    (h : number ds = number es) : ds = es := by
  rw [← lowDigits_number ds, ← lowDigits_number es, hlength, h]

/-- A number has a bound by the count of its digits. -/
theorem number_lt (ds : List (Fin 16)) : number ds < Nat.pow 16 ds.length := by
  have hpos : 0 < Nat.pow 16 ds.length := Nat.pow_pos (by decide)
  have hsame := number_lowDigits ds.length (number ds)
  rw [lowDigits_number] at hsame
  exact hsame ▸ Nat.mod_lt _ hpos

/-! ## The bits of a UUID -/

/-- The 128 bits of a UUID, four for each digit. -/
def bits (u : Uuid) : BitVec 128 := BitVec.ofNat 128 (number u.digits)

theorem toNat_bits (u : Uuid) : u.bits.toNat = number u.digits := by
  have hlt := number_lt u.digits
  rw [u.length_digits] at hlt
  exact Nat.mod_eq_of_lt hlt

theorem eq_of_digits_eq {u v : Uuid} (h : u.digits = v.digits) : u = v := by
  cases u
  cases v
  congr

/-- UUIDs are told apart by their bits. -/
theorem bits_injective : Function.Injective bits := by
  intro u v h
  have hnumber : number u.digits = number v.digits := by
    rw [← toNat_bits, ← toNat_bits, h]
  exact eq_of_digits_eq (number_inj (u.length_digits.trans v.length_digits.symm) hnumber)

/-- All bits are those of some UUID. -/
theorem bits_surjective : Function.Surjective bits := by
  intro b
  refine ⟨⟨lowDigits 32 b.toNat, length_lowDigits 32 b.toNat⟩, ?_⟩
  apply BitVec.eq_of_toNat_eq
  rw [toNat_bits, number_lowDigits]
  exact Nat.mod_eq_of_lt b.isLt

/-! ## Digits in a text -/

theorem filter_lt_eq {n : Nat} (h : n < 16) :
    (some n).filter (· < 16) = (some (Fin.ofNat 16 n)).map Fin.val := by
  have hmod : (Fin.ofNat 16 n).val = n := Nat.mod_eq_of_lt h
  rw [Option.map_some, hmod, Option.filter_some, if_pos (decide_eq_true h)]

/-- The hexadecimal digits of a number, in either case, are those of a UUID. -/
theorem value?_eq (c : Char) : Digit.value? 16 c = (digit? c).map Fin.val := by
  have hle {d : Char} (h : c ≤ d) : c.toNat ≤ d.toNat := h
  simp only [Digit.value?, digit?, Bool.and_eq_true, decide_eq_true_eq]
  -- 57, 70 and 102 are the codes of the last digit and of the last letter in either case
  split_ifs with hdigit hupper hlower
  · have hlast : c.toNat ≤ 57 := hle hdigit.2
    exact filter_lt_eq (show c.toNat - 48 < 16 by omega)
  · have hlast : c.toNat ≤ 70 := hle hupper.2
    exact filter_lt_eq (show c.toNat - 65 + 10 < 16 by omega)
  · have hlast : c.toNat ≤ 102 := hle hlower.2
    exact filter_lt_eq (show c.toNat - 97 + 10 < 16 by omega)
  · rfl

/-- Reading digits one by one gives the number of all of them, and fails if one is no digit. -/
theorem foldlM_value?_eq (n : Nat) (cs : List Char) :
    cs.foldlM (fun n c => (Digit.value? 16 c).map (n * 16 + ·)) n
      = (cs.mapM digit?).map fun ds => ds.foldl (fun n d => n * 16 + d.val) n := by
  induction cs generalizing n with
  | nil => rfl
  | cons c cs ih =>
    rw [List.foldlM_cons, List.mapM_cons, value?_eq]
    cases hc : digit? c with
    | none => rfl
    | some d =>
      simp only [Option.map_some, Option.bind_eq_bind, Option.bind_some, ih]
      cases cs.mapM digit? <;> rfl

/-- A text denotes a number in base sixteen if its characters are digits of that number. -/
theorem natural?_eq {cs : List Char} (h : cs ≠ []) :
    Digit.natural? 16 cs = (cs.mapM digit?).map number := by
  rw [Digit.natural?, if_neg (by simpa using h)]
  exact foldlM_value?_eq 0 cs

theorem length_of_mapM_digit? {cs : List Char} {ds : List (Fin 16)}
    (h : cs.mapM digit? = some ds) : ds.length = cs.length := by
  induction cs generalizing ds with
  | nil =>
    cases h
    rfl
  | cons c cs ih =>
    rw [List.mapM_cons] at h
    obtain ⟨d, -, h⟩ := Option.bind_eq_some_iff.1 h
    obtain ⟨ds, hds, h⟩ := Option.bind_eq_some_iff.1 h
    cases h
    rw [List.length_cons, List.length_cons, ih hds]

theorem ofDigits?_iff_mapM {text : List Char} {u : Uuid} :
    ofDigits? text = some u ↔ text.mapM digit? = some u.digits := by
  rw [ofDigits?]
  cases text.mapM digit? with
  | none => simp
  | some ds =>
    by_cases hlength : ds.length = 32
    · simp only [hlength, dite_true, Option.some.injEq]
      exact ⟨fun h => h ▸ rfl, fun h => eq_of_digits_eq h⟩
    · simp only [hlength, dite_false, Option.some.injEq, reduceCtorEq, false_iff]
      rintro rfl
      exact hlength u.length_digits

/-- Whether a text is the 32 hexadecimal digits of some bits. -/
def IsHex (b : BitVec 128) (text : List Char) : Prop :=
  text.length = 32 ∧ Digit.natural? 16 text = some b.toNat

/-- The digits of a UUID are spelt exactly by the texts that denote its bits. -/
theorem isHex_bits_iff {text : List Char} {u : Uuid} :
    IsHex u.bits text ↔ text.mapM digit? = some u.digits := by
  have hne (hlength : text.length = 32) : text ≠ [] := by
    rintro rfl
    cases hlength
  rw [IsHex, toNat_bits]
  constructor
  · rintro ⟨hlength, hnumber⟩
    rw [natural?_eq (hne hlength)] at hnumber
    obtain ⟨ds, hds, hnumber⟩ := Option.map_eq_some_iff.1 hnumber
    have hsame : ds.length = u.digits.length := by
      rw [length_of_mapM_digit? hds, hlength, u.length_digits]
    rw [hds, number_inj hsame hnumber]
  · intro hds
    have hlength : text.length = 32 := by
      rw [← length_of_mapM_digit? hds, u.length_digits]
    exact ⟨hlength, by rw [natural?_eq (hne hlength), hds, Option.map_some]⟩

/-- A UUID is read from the digits of its bits, and its digits from nothing else. -/
theorem ofDigits?_iff_isHex {text : List Char} {u : Uuid} :
    ofDigits? text = some u ↔ IsHex u.bits text :=
  ofDigits?_iff_mapM.trans isHex_bits_iff.symm

end InstallManifest.Uuid
