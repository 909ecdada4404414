import InstallManifest.Markup.Layout
import Mathlib.Data.List.Basic

/-!
# Which characters a document may hold

The test for legal characters against the code points that XML 1.0 lists. Writing a value adds no
character that would be illegal: references are ASCII.
-/

namespace InstallManifest.Markup

/-- The production `Char` of XML 1.0, by code points. -/
def IsXmlChar (c : Char) : Prop :=
  c.toNat = 0x9 ∨ c.toNat = 0xA ∨ c.toNat = 0xD ∨ (0x20 ≤ c.toNat ∧ c.toNat ≤ 0xD7FF) ∨
    (0xE000 ≤ c.toNat ∧ c.toNat ≤ 0xFFFD) ∨ (0x10000 ≤ c.toNat ∧ c.toNat ≤ 0x10FFFF)

instance (c : Char) : Decidable (IsXmlChar c) := inferInstanceAs (Decidable (_ ∨ _))

/-- The surrogates that the production leaves out are no characters in the first place. -/
theorem isLegal_iff {c : Char} : isLegal c = true ↔ IsXmlChar c := by
  have hvalid : c.toNat < 0xD800 ∨ 0xDFFF < c.toNat ∧ c.toNat < 0x110000 := c.valid
  have htab : c = '\t' ↔ c.toNat = 0x9 := Char.toNat_inj.symm
  have hlf : c = '\n' ↔ c.toNat = 0xA := Char.toNat_inj.symm
  have hcr : c = '\r' ↔ c.toNat = 0xD := Char.toNat_inj.symm
  simp only [isLegal, IsXmlChar, htab, hlf, hcr, Bool.or_eq_true, Bool.and_eq_true,
    decide_eq_true_eq]
  omega

theorem isXmlChar_of_isBlank {c : Char} (h : isBlank c = true) : IsXmlChar c := by
  simp only [isBlank, Bool.or_eq_true, decide_eq_true_eq, or_assoc] at h
  rcases h with rfl | rfl | rfl | rfl <;> decide

theorem isXmlChar_of_all {cs : List Char} (h : cs.all isLegal = true) {c : Char} (hc : c ∈ cs) :
    IsXmlChar c :=
  isLegal_iff.1 (List.all_eq_true.1 h c hc)

/-- A written value is as legal as the value: references are made of ASCII characters. -/
theorem isXmlChar_of_mem_escape {c : Char} {cs : List Char} (h : ∀ d ∈ cs, IsXmlChar d)
    (hc : c ∈ escape cs) : IsXmlChar c := by
  obtain ⟨d, hd, hcd⟩ := List.mem_flatMap.1 hc
  unfold escapeChar at hcd
  split_ifs at hcd
  case neg =>
    rw [List.mem_singleton.1 hcd]
    exact h d hd
  all_goals exact isXmlChar_of_all rfl hcd

/-- Whether every character of a value may stand in a document. -/
def Assignment.IsXmlText (a : Assignment) : Prop := ∀ c ∈ a.value.toList, IsXmlChar c

theorem Assignment.isLegal_iff {a : Assignment} : a.isLegal = true ↔ a.IsXmlText := by
  rw [Assignment.isLegal, List.all_eq_true]
  exact forall₂_congr fun _ _ => Markup.isLegal_iff

instance (a : Assignment) : Decidable a.IsXmlText := decidable_of_iff _ Assignment.isLegal_iff

end InstallManifest.Markup
