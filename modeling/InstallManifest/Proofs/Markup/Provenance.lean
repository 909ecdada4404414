import InstallManifest.Markup.Token
import InstallManifest.Proofs.Markup.AttributeText
import InstallManifest.Proofs.Outcome
import Mathlib.Data.List.Infix

/-!
# Where the characters of a value come from

An attribute value is cut out of the text of its tag, and its references are resolved. So each of
its characters stood in the tag, or a reference to it did; there is no other way in.
-/

namespace InstallManifest.Markup

/-- The ways in which a text can bring in a character: it stands there, or a reference to it. -/
inductive Yields (text : List Char) (c : Char) : Prop where
  | literal (h : c ∈ text)
  | reference {body : List Char} {offset : Nat} (hin : '&' :: (body ++ [';']) <:+: text)
      (hbody : resolve offset body = .ok c)

theorem Yields.mono {part text : List Char} {c : Char} (h : Yields part c)
    (hpart : part <:+: text) : Yields text c := by
  cases h with
  | literal h => exact .literal (hpart.subset h)
  | reference hin hbody => exact .reference (hin.trans hpart) hbody

/-! ## References in a value -/

/-- A reference that was split off stood at the beginning. -/
theorem eq_of_splitReference {breaks : Char → Bool} {cs body rest : List Char}
    (h : splitReference breaks cs = some (body, rest)) : cs = body ++ ';' :: rest := by
  induction cs generalizing body rest with
  | nil => cases h
  | cons c cs ih =>
    rw [splitReference] at h
    split_ifs at h with hc hbreaks
    · cases h
      rw [hc]
      rfl
    · obtain ⟨⟨body', rest'⟩, hcs, heq⟩ := Option.map_eq_some_iff.1 h
      cases heq
      rw [ih hcs]
      rfl

/-- Every character of a value is brought in by what is left of its written form. -/
theorem yields_of_mem_unescapeFrom {start stop : Nat} {raw value : List Char} {c : Char}
    (h : unescapeFrom start stop raw = .ok value) (hc : c ∈ value) : Yields raw c := by
  -- what a step takes off the front and what it leaves are both parts of the text
  fun_induction unescapeFrom start stop raw generalizing value with
  | case1 start =>
    cases h
    cases hc
  | case2 start cs hsplit => cases h
  | case3 start cs body rest hsplit ih =>
    obtain ⟨char, hchar, h⟩ := bind_eq_ok_iff.1 h
    obtain ⟨text, htext, h⟩ := bind_eq_ok_iff.1 h
    cases h
    have hraw : '&' :: cs = '&' :: (body ++ [';']) ++ rest := by
      rw [eq_of_splitReference hsplit]
      simp
    rw [hraw]
    rcases List.mem_cons.1 hc with rfl | hc
    · exact .reference (List.prefix_append _ _).isInfix hchar
    · exact (ih htext hc).mono (List.suffix_append _ _).isInfix
  | case4 start d cs hamp ih =>
    obtain ⟨text, htext, h⟩ := bind_eq_ok_iff.1 h
    cases h
    rcases List.mem_cons.1 hc with rfl | hc
    · exact .literal List.mem_cons_self
    · exact (ih htext hc).mono (List.suffix_cons _ _).isInfix

/-- Every character of a value is brought in by its written form. -/
theorem yields_of_mem_unescape {raw value : List Char} {c : Char} (h : unescape raw = .ok value)
    (hc : c ∈ value) : Yields raw c :=
  yields_of_mem_unescapeFrom h hc

/-! ## Values in a tag -/

/-- The value of an attribute stands in the text that it is read from. -/
theorem raw_infix_of_mem_attributes {earlier : List Attribute} {offset : Nat} {cs : List Char}
    {a : Attribute} (ha : a ∈ (readAttributes earlier offset cs).attributes) : a.raw <:+: cs := by
  obtain ⟨text, rest, htext, hlist, -⟩ := exists_of_readAttributes earlier offset cs
  have hraw : a.raw <:+: text := hlist.isAttributes.raw_infix a.entry (List.mem_map_of_mem ha)
  exact htext ▸ hraw.trans (List.prefix_append text rest).isInfix

/-- What a look-up finds stands in the tag. -/
theorem Tag.raw_infix_of_lookup {t : Tag} {name raw : List Char}
    (h : t.attributes.lookup name = .ok (some raw)) : raw <:+: t.attributeText := by
  unfold AttributeList.lookup at h
  split at h
  -- what is found is one of the attributes that were read
  · rename_i a _ hfind
    cases h
    exact raw_infix_of_mem_attributes (List.mem_of_find?_eq_some hfind)
  · cases h
  · cases h

end InstallManifest.Markup
