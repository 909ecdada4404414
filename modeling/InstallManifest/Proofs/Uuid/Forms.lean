import InstallManifest.Proofs.Uuid.Bits
import InstallManifest.Proofs.Uuid.Text
import Mathlib.Data.List.SplitLengths

/-!
# The forms of a UUID

Four forms spell a UUID: its 32 hexadecimal digits, those in five groups, the groups in braces, and
the groups as a URN. A text is read as the UUID that it spells and taken as it is if it spells none,
and a UUID is written in groups of upper-case digits. So an identifier that was read is the same as
another one exactly if both are written alike.
-/

namespace InstallManifest

namespace Uuid

/-! ## Groups of digits -/

/-- Whether a text is made of groups of 8, 4, 4, 4 and 12 digits with a hyphen between two. -/
def IsGrouped (digits text : List Char) : Prop :=
  ∃ gs : List (List Char),
    gs.map List.length = [8, 4, 4, 4, 12] ∧ gs.flatten = digits ∧ ['-'].intercalate gs = text

/-- To put hyphens between groups is to put them where the sizes of the groups say. -/
theorem hyphenate_flatten (gs : List (List Char)) :
    hyphenate (gs.map List.length) gs.flatten = ['-'].intercalate gs := by
  induction gs with
  | nil => rfl
  | cons g gs ih =>
    cases gs with
    | nil => simp [hyphenate]
    | cons next gs =>
      rw [List.map_cons, List.map_cons, List.flatten_cons, hyphenate, ← List.map_cons,
        List.take_left, List.drop_left, ih, List.intercalate_cons_cons]
      simp

/-- Any 32 digits make groups, and in one way only. -/
theorem isGrouped_iff {digits text : List Char} :
    IsGrouped digits text ↔ digits.length = 32 ∧ hyphenate groups digits = text := by
  constructor
  · rintro ⟨gs, hsizes, rfl, rfl⟩
    refine ⟨?_, ?_⟩
    · rw [List.length_flatten, hsizes]
      rfl
    · rw [groups, ← hsizes, hyphenate_flatten]
  · rintro ⟨hlength, rfl⟩
    -- the digits are cut into groups of the sizes that are asked for
    have hsizes : (groups.splitLengths digits).map List.length = groups :=
      List.map_splitLengths_length _ _ hlength.ge
    have hflatten : (groups.splitLengths digits).flatten = digits :=
      List.flatten_splitLengths _ _ hlength.le
    refine ⟨groups.splitLengths digits, hsizes, hflatten, ?_⟩
    rw [← hyphenate_flatten, hsizes, hflatten]

theorem IsGrouped.length_text {digits text : List Char} (h : IsGrouped digits text) :
    text.length = 36 := by
  obtain ⟨hlength, rfl⟩ := isGrouped_iff.1 h
  rw [length_hyphenate, hlength]
  rfl

/-- A group that stands alone has no hyphen. -/
theorem hyphenate_of_no_pair {sizes : List Nat}
    (h : ∀ size next rest, sizes = size :: next :: rest → False) (cs : List Char) :
    hyphenate sizes cs = cs := by
  cases sizes with
  | nil => rfl
  | cons size sizes =>
    cases sizes with
    | nil => rfl
    | cons next sizes => exact (h size next sizes rfl).elim

/-- What is left when the hyphens are taken out is what they were put into. -/
theorem hyphenate_of_unhyphenate? {sizes : List Nat} {text content : List Char}
    (h : unhyphenate? sizes text = some content) : hyphenate sizes content = text := by
  fun_induction unhyphenate? sizes text generalizing content with
  | case1 size next sizes text rest hdrop ih =>
    obtain ⟨tail, htail, rfl⟩ := Option.map_eq_some_iff.1 h
    -- where a hyphen is found, the group before it is complete
    have hsize : (text.take size).length = size := by
      have hlength := congrArg List.length hdrop
      rw [List.length_drop, List.length_cons] at hlength
      rw [List.length_take]
      omega
    rw [hyphenate, List.take_left' hsize, List.drop_left' hsize, ih htail, ← hdrop,
      List.take_append_drop]
  | case2 size next sizes text hdrop => cases h
  | case3 sizes text hsizes =>
    cases h
    exact hyphenate_of_no_pair hsizes text

/-- Whether a text is the digits of some bits, in groups. -/
def IsGroupedHex (b : BitVec 128) (text : List Char) : Prop :=
  ∃ digits, IsHex b digits ∧ IsGrouped digits text

/-- A UUID is read from the digits of its bits in groups, and in groups from nothing else. -/
theorem ofGroups?_eq_some_iff {text : List Char} {u : Uuid} :
    ofGroups? text = some u ↔ IsGroupedHex u.bits text := by
  constructor
  · intro h
    rw [ofGroups?] at h
    split_ifs at h with hlength
    obtain ⟨digits, hdigits, h⟩ := Option.bind_eq_some_iff.1 h
    have hhex : IsHex u.bits digits := ofDigits?_iff_isHex.1 h
    exact ⟨digits, hhex, isGrouped_iff.2 ⟨hhex.1, hyphenate_of_unhyphenate? hdigits⟩⟩
  · rintro ⟨digits, hhex, hgrouped⟩
    have hlength := hgrouped.length_text
    obtain ⟨hdigits, rfl⟩ := isGrouped_iff.1 hgrouped
    have hunhyphenate : unhyphenate? groups (hyphenate groups digits) = some digits :=
      unhyphenate?_hyphenate groups digits (by rw [hdigits]; decide)
    rw [ofGroups?, if_pos hlength, hunhyphenate]
    exact ofDigits?_iff_isHex.2 hhex

/-! ## The four forms -/

/-- The texts that spell the UUID of some bits. Letters may be of either case. -/
inductive Spells (b : BitVec 128) : List Char → Prop where
  | digits {text : List Char} (h : IsHex b text) : Spells b text
  | groups {text : List Char} (h : IsGroupedHex b text) : Spells b text
  | braces {text : List Char} (h : IsGroupedHex b text) : Spells b ('\x7b' :: text ++ ['\x7d'])
  | urn {scheme text : List Char} (hscheme : scheme.map Char.toLower = urn)
      (h : IsGroupedHex b text) : Spells b (scheme ++ text)

theorem IsGroupedHex.length_text {b : BitVec 128} {text : List Char} (h : IsGroupedHex b text) :
    text.length = 36 := by
  obtain ⟨digits, -, hgrouped⟩ := h
  exact hgrouped.length_text

/-- What stands between two marks at the ends of a text. -/
theorem eq_around_tail_dropLast {text : List Char} {first last : Char} (hlength : 1 < text.length)
    (hfirst : text.head? = some first) (hlast : text.getLast? = some last) :
    text = first :: text.tail.dropLast ++ [last] := by
  obtain ⟨front, rfl⟩ := List.getLast?_eq_some_iff.1 hlast
  cases front with
  | nil => simp at hlength
  | cons c front =>
    cases hfirst
    simp

theorem spells_of_ofChars? {text : List Char} {u : Uuid} (h : ofChars? text = some u) :
    Spells u.bits text := by
  rw [ofChars?] at h
  -- by the form that is tried, which its length decides
  split_ifs at h with hdigits hgroups hbraces hurn
  · exact .digits (ofDigits?_iff_isHex.1 h)
  · exact .groups (ofGroups?_eq_some_iff.1 h)
  · simp only [Bool.and_eq_true, decide_eq_true_eq] at hbraces
    obtain ⟨⟨hlength, hfirst⟩, hlast⟩ := hbraces
    rw [eq_around_tail_dropLast (by omega) hfirst hlast]
    exact .braces (ofGroups?_eq_some_iff.1 h)
  · have hscheme := Spells.urn hurn (ofGroups?_eq_some_iff.1 h)
    rwa [List.take_append_drop] at hscheme

/-- A text that spells a UUID is read as it, since no form hides another. -/
theorem ofChars?_of_spells {text : List Char} {u : Uuid} (h : Spells u.bits text) :
    ofChars? text = some u := by
  cases h with
  | digits h =>
    rw [ofChars?, if_pos h.1]
    exact ofDigits?_iff_isHex.2 h
  | groups h =>
    rw [ofChars?, if_neg (by rw [h.length_text]; decide), if_pos h.length_text]
    exact ofGroups?_eq_some_iff.2 h
  | @braces text h =>
    have hlength : ('\x7b' :: text ++ ['\x7d']).length = 38 := by simp [h.length_text]
    have hlast : ('\x7b' :: text ++ ['\x7d']).getLast? = some '\x7d' := List.getLast?_concat
    have hinner : ('\x7b' :: text ++ ['\x7d']).tail.dropLast = text := by simp
    rw [ofChars?, if_neg (by omega), if_neg (by omega), if_pos (by rw [hlength, hlast]; rfl),
      hinner]
    exact ofGroups?_eq_some_iff.2 h
  | @urn scheme text hscheme h =>
    -- no other form has as many characters
    have hscheme_length : scheme.length = urn.length := by
      rw [← List.length_map Char.toLower, hscheme]
    have hlength : (scheme ++ text).length = 45 := by
      rw [List.length_append, hscheme_length, h.length_text]
      rfl
    rw [ofChars?, if_neg (by omega), if_neg (by omega), if_neg (by rw [hlength]; simp),
      List.take_left' hscheme_length, List.drop_left' hscheme_length, if_pos hscheme]
    exact ofGroups?_eq_some_iff.2 h

theorem ofChars?_eq_some_iff {text : List Char} {u : Uuid} :
    ofChars? text = some u ↔ Spells u.bits text :=
  ⟨spells_of_ofChars?, ofChars?_of_spells⟩

/-- A text is no UUID exactly if it spells no bits at all. -/
theorem ofString?_eq_none_iff {s : String} :
    ofString? s = none ↔ ∀ b, ¬ Spells b s.toList := by
  rw [Option.eq_none_iff_forall_ne_some]
  constructor
  · intro hnone b hspells
    obtain ⟨u, rfl⟩ := bits_surjective b
    exact hnone u (ofChars?_eq_some_iff.2 hspells)
  · intro hspells u hu
    exact hspells u.bits (ofChars?_eq_some_iff.1 hu)

/-! ## The written form -/

/-- The digits of the written form. -/
def upperDigits : List Char := "0123456789ABCDEF".toList

/-- Whether a text is the digits of some bits in upper case, in groups: 36 characters. -/
def IsCanonical (b : BitVec 128) (text : List Char) : Prop :=
  text.length = 36 ∧
    ∃ digits, (∀ c ∈ digits, c ∈ upperDigits) ∧ IsHex b digits ∧ IsGrouped digits text

theorem digitChar_mem_upperDigits (d : Fin 16) : digitChar d ∈ upperDigits := by
  revert d
  decide

theorem isCanonical_toChars (u : Uuid) : IsCanonical u.bits u.toChars := by
  refine ⟨u.length_toChars, u.digits.map digitChar, ?_, ?_, ?_⟩
  · intro c hc
    obtain ⟨d, -, rfl⟩ := List.mem_map.1 hc
    exact digitChar_mem_upperDigits d
  · exact isHex_bits_iff.2 (mapM_digit?_map_digitChar u.digits)
  · exact isGrouped_iff.2 ⟨by rw [List.length_map, u.length_digits], rfl⟩

end Uuid

/-! ## Identifiers of file sets -/

namespace FileSetId

open Uuid

theorem ofText_eq_uuid_iff {s : String} {u : Uuid} :
    ofText s = uuid u ↔ Spells u.bits s.toList := by
  rw [← ofChars?_eq_some_iff, ← ofString?, ofText]
  cases ofString? s <;> simp

/-- A text that spells no UUID is an identifier as it is, and only such a text is. -/
theorem ofText_eq_raw_iff {s text : String} :
    ofText s = raw text ↔ text = s ∧ ∀ b, ¬ Spells b s.toList := by
  rw [← ofString?_eq_none_iff, ofText]
  cases ofString? s <;> simp [eq_comm]

/-- Any 128 bits are those of one UUID. It is written as 36 characters, upper-case digits in groups
of 8, 4, 4, 4 and 12, which are read as that UUID again. Any text that spells a UUID in one of the
four forms is read as it, and any other text as itself; what was read is read again from the text
that it is written as, so identifiers that were read are told apart by these texts. -/
theorem ofText_canonical :
    Function.Bijective Uuid.bits ∧
    (∀ u, ofText (uuid u).toText = uuid u ∧ IsCanonical u.bits (uuid u).toText.toList) ∧
    (∀ s, ofText (ofText s).toText = ofText s) ∧
    (∀ s u, ofText s = uuid u ↔ Spells u.bits s.toList) ∧
    (∀ s text, ofText s = raw text ↔ text = s ∧ ∀ b, ¬ Spells b s.toList) ∧
    (∀ s t, (ofText s).toText = (ofText t).toText ↔ ofText s = ofText t) := by
  refine ⟨⟨bits_injective, bits_surjective⟩, ?_, ofText_toText_ofText, ?_, ?_, ?_⟩
  · intro u
    refine ⟨ofText_toText_uuid u, ?_⟩
    rw [toText, Uuid.toString, String.toList_ofList]
    exact isCanonical_toChars u
  · intro s u
    exact ofText_eq_uuid_iff
  · intro s text
    exact ofText_eq_raw_iff
  · intro s t
    exact toText_ofText_inj

/-- Digits that are not in groups make no URN. -/
example :
    ofText "urn:uuid:0F8FAD5BD9CB469FA16570867728950E"
      = raw "urn:uuid:0F8FAD5BD9CB469FA16570867728950E" := by
  decide +kernel

end FileSetId

end InstallManifest
