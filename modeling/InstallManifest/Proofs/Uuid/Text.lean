import InstallManifest.FileSet
import Mathlib.Data.List.Basic

/-!
# UUIDs and their text

A UUID is read back from the text that it is written as, so an identifier survives being written
unless it is a raw text that happens to spell a UUID.
-/

namespace InstallManifest

namespace Uuid

theorem length_hyphenate (sizes : List Nat) (cs : List Char) :
    (hyphenate sizes cs).length = cs.length + (sizes.length - 1) := by
  fun_induction hyphenate sizes cs with
  | case1 size next sizes cs ih =>
    simp only [List.length_append, List.length_take, List.length_cons, ih, List.length_drop]
    omega
  | case2 sizes cs hsizes =>
    match sizes, hsizes with
    | [], _ => rfl
    | [_], _ => rfl
    | size :: next :: sizes, hsizes => exact absurd rfl (hsizes size next sizes)

/-- Hyphens are found where they were put, if there is text for every group but the last. -/
theorem unhyphenate?_hyphenate (sizes : List Nat) (cs : List Char)
    (h : sizes.dropLast.foldr (· + ·) 0 ≤ cs.length) :
    unhyphenate? sizes (hyphenate sizes cs) = some cs := by
  fun_induction hyphenate sizes cs with
  | case1 size next sizes cs ih =>
    rw [List.dropLast_cons_cons, List.foldr_cons] at h
    have htake : (cs.take size).length = size := by
      rw [List.length_take]
      omega
    -- behind the first group comes a hyphen, and then the others
    have hdrop : (cs.take size ++ '-' :: hyphenate (next :: sizes) (cs.drop size)).drop size
        = '-' :: hyphenate (next :: sizes) (cs.drop size) := by
      rw [List.drop_append_of_le_length (Nat.le_of_eq htake.symm), List.drop_eq_nil_of_le
        (Nat.le_of_eq htake), List.nil_append]
    have hrest : (next :: sizes).dropLast.foldr (· + ·) 0 ≤ (cs.drop size).length := by
      rw [List.length_drop]
      omega
    rw [unhyphenate?, hdrop]
    simp only [ih hrest, Option.map_some]
    rw [List.take_append_of_le_length (Nat.le_of_eq htake.symm), List.take_take, Nat.min_self,
      List.take_append_drop]
  | case2 sizes cs hsizes =>
    match sizes, hsizes with
    | [], _ => rfl
    | [_], _ => rfl
    | size :: next :: sizes, hsizes => exact absurd rfl (hsizes size next sizes)

theorem mapM_digit?_map_digitChar (ds : List (Fin 16)) :
    (ds.map digitChar).mapM digit? = some ds := by
  induction ds with
  | nil => rfl
  | cons d ds ih => simp [List.mapM_cons, digit?_digitChar, ih]

/-- A UUID is read back from its digits. -/
theorem ofDigits?_map_digitChar (u : Uuid) : ofDigits? (u.digits.map digitChar) = some u := by
  rw [ofDigits?, mapM_digit?_map_digitChar]
  simp only [u.length_digits, dite_true]

theorem length_toChars (u : Uuid) : u.toChars.length = 36 := by
  simp [toChars, length_hyphenate, u.length_digits, groups]

theorem mem_hyphenate {sizes : List Nat} {cs : List Char} {c : Char}
    (h : c ∈ hyphenate sizes cs) : c = '-' ∨ c ∈ cs := by
  fun_induction hyphenate sizes cs with
  | case1 size next sizes cs ih =>
    rcases List.mem_append.1 h with hgroup | hrest
    · exact .inr (List.mem_of_mem_take hgroup)
    · rcases List.mem_cons.1 hrest with hhyphen | hrest
      · exact .inl hhyphen
      · exact (ih hrest).imp_right List.mem_of_mem_drop
  | case2 => exact .inr h

theorem mem_toChars {u : Uuid} {c : Char} (h : c ∈ u.toChars) : c = '-' ∨ ∃ d, c = digitChar d := by
  refine (mem_hyphenate h).imp_right fun hdigit => ?_
  obtain ⟨d, -, rfl⟩ := List.mem_map.1 hdigit
  exact ⟨d, rfl⟩

/-- A UUID is read back from its text. -/
theorem ofString?_toString (u : Uuid) : ofString? u.toString = some u := by
  have hunhyphenate : unhyphenate? groups u.toChars = some (u.digits.map digitChar) :=
    unhyphenate?_hyphenate groups _ (by simp [groups, u.length_digits])
  rw [ofString?, Uuid.toString, String.toList_ofList, ofChars?, u.length_toChars, ofGroups?,
    u.length_toChars, hunhyphenate]
  exact ofDigits?_map_digitChar u

end Uuid

namespace FileSetId

@[simp] theorem ofText_toText_uuid (u : Uuid) : ofText (uuid u).toText = uuid u := by
  simp [ofText, toText, Uuid.ofString?_toString]

/-- A raw text is read back unless it spells a UUID. -/
theorem ofText_toText_raw {text : String} (h : Uuid.ofString? text = none) :
    ofText (raw text).toText = raw text := by
  simp [ofText, toText, h]

/-- A raw text that was read spells no UUID. -/
theorem ofString?_of_ofText_eq_raw {s text : String} (h : ofText s = raw text) :
    Uuid.ofString? text = none := by
  unfold ofText at h
  cases hu : Uuid.ofString? s with
  | some u =>
    rw [hu] at h
    cases h
  | none =>
    rw [hu] at h
    cases h
    exact hu

/-- An identifier that was read is written with the characters of its text, or with those of a
UUID. -/
theorem mem_toText_ofText {s : String} {c : Char} (h : c ∈ (ofText s).toText.toList) :
    c ∈ s.toList ∨ c = '-' ∨ ∃ d, c = Uuid.digitChar d := by
  unfold ofText at h
  -- a UUID is written in its own form, and any other text as it is
  split at h
  · rw [toText, Uuid.toString, String.toList_ofList] at h
    exact .inr (Uuid.mem_toChars h)
  · exact .inl h

/-- An identifier that was read is read back from its text. -/
theorem ofText_toText_ofText (s : String) : ofText (ofText s).toText = ofText s := by
  -- a UUID is read back in any case, and a raw text that was read spells none
  cases hid : ofText s with
  | uuid u => exact ofText_toText_uuid u
  | raw text => exact ofText_toText_raw (ofString?_of_ofText_eq_raw hid)

/-- Two texts are written again alike if they stand for one identifier, and only then. -/
theorem toText_ofText_inj {s t : String} :
    (ofText s).toText = (ofText t).toText ↔ ofText s = ofText t := by
  constructor
  · intro h
    rw [← ofText_toText_ofText s, h, ofText_toText_ofText]
  · intro h
    rw [h]

end FileSetId

end InstallManifest
