import InstallManifest.Proofs.Markup.Scanning

/-!
# Tags as they stand in a text

A `TagSource` is what somebody wrote between the name of an element and the end of its tag, good
or bad as an attribute list. Whatever it is, the tag is one token: what ends the tag is the `>`
that was written for it.
-/

namespace InstallManifest.Markup

/-! ## Names -/

/-- The characters of a name. There are more of them than a name may hold, but none that means
something in a tag. -/
def isNameChar (c : Char) : Bool :=
  !isBlank c && !(c = '<' || c = '>' || c = '/' || c = '=' || c = '"' || c = '\'' || c = '&' ||
    c = '!' || c = '?')

/-- A name of an element or attribute. -/
def IsName (cs : List Char) : Prop := cs ≠ [] ∧ ∀ c ∈ cs, isNameChar c = true

instance (cs : List Char) : Decidable (IsName cs) :=
  decidable_of_iff (cs ≠ [] ∧ cs.all isNameChar = true) (by rw [IsName, List.all_eq_true])

namespace IsName

variable {name : List Char}

theorem ne_nil (h : IsName name) : name ≠ [] := h.1

theorem isBlank_eq_false (h : IsName name) : ∀ c ∈ name, isBlank c = false := by
  intro c hc
  have := h.2 c hc
  simp only [isNameChar, Bool.and_eq_true, Bool.not_eq_true'] at this
  exact this.1

theorem ne_of_mem (h : IsName name) {c : Char} (hc : c ∈ name) (d : Char)
    (hd : isNameChar d = false) : c ≠ d := by
  rintro rfl
  rw [h.2 c hc] at hd
  cases hd

/-- A name ends no tag and opens no quote. -/
theorem tagText (h : IsName name) : TagText name :=
  .of_plain fun _ hc =>
    ⟨h.ne_of_mem hc '>' rfl, h.ne_of_mem hc '"' rfl, h.ne_of_mem hc '\'' rfl⟩

/-- A name and white space after it close the element of the name. -/
theorem closingName_append (h : IsName name) {gap : List Char} (hgap : allBlank gap = true) :
    closingName (name ++ gap) = name := by
  obtain ⟨c, cs, rfl⟩ := List.exists_cons_of_ne_nil h.ne_nil
  have hc : isBlank c = false := h.isBlank_eq_false c List.mem_cons_self
  have hall : allBlank (c :: cs ++ gap) = false := by simp [allBlank, hc]
  -- from the end, white space is dropped up to the last character of the name
  have hgap' : ∀ d ∈ gap.reverse, isBlank d = true := by
    simpa [allBlank] using hgap
  have hlast : ∀ d ∈ (c :: cs).reverse.head?, isBlank d = false := by
    intro d hd
    exact h.isBlank_eq_false d (List.mem_reverse.1 (List.mem_of_mem_head? hd))
  rw [closingName, if_neg (Bool.eq_false_iff.1 hall), List.reverse_append,
    dropWhile_append_exact hgap' hlast, List.reverse_reverse]

end IsName

/-! ## Tags -/

/-- A tag as it stands in a text: the name of its element, and the text after the name up to the end
of the tag. The text starts with white space, if there is any, and does not end with the `/` that
would make the tag a whole element. So a whole element with two slashes, as in `<x //>`, is that of
no `TagSource`: without its last slash it is a whole element still, and there is no tag that only
begins it. -/
structure TagSource where
  name : List Char
  attributeText : List Char
  isName : IsName name
  isBlank_head : ∀ c ∈ attributeText.head?, isBlank c = true
  tagText : TagText attributeText
  not_slash : attributeText.getLast? ≠ some '/'

namespace TagSource

/-- What stands between `<` and the end of the tag. -/
def content (t : TagSource) : List Char := t.name ++ t.attributeText

/-- The tag that a reader makes of it. -/
def tag (t : TagSource) : Tag := ⟨t.name, t.attributeText⟩

theorem content_ne_nil (t : TagSource) : t.content ≠ [] := by
  simp [content, t.isName.ne_nil]

theorem tagText_content (t : TagSource) : TagText t.content := t.isName.tagText.append t.tagText

/-- Name and attributes are told apart by the white space between them. -/
theorem ofContent_content (t : TagSource) : Tag.ofContent t.content = t.tag := by
  have hname : ∀ c ∈ t.name, (!isBlank c) = true := by
    intro c hc
    simp [t.isName.isBlank_eq_false c hc]
  have hhead : ∀ c ∈ t.attributeText.head?, (!isBlank c) = false := by
    intro c hc
    simp [t.isBlank_head c hc]
  rw [Tag.ofContent, content, takeWhile_append_exact hname hhead,
    dropWhile_append_exact hname hhead, tag]

/-- A tag of an element does not begin like any other markup. -/
theorem content_head? (t : TagSource) :
    ∀ c ∈ t.content.head?, c ≠ '!' ∧ c ≠ '?' ∧ c ≠ '/' := by
  intro c hc
  rw [content, List.head?_append_of_ne_nil _ t.isName.ne_nil] at hc
  have hmem : c ∈ t.name := List.mem_of_mem_head? hc
  exact ⟨t.isName.ne_of_mem hmem '!' rfl, t.isName.ne_of_mem hmem '?' rfl,
    t.isName.ne_of_mem hmem '/' rfl⟩

/-- A tag has no slash at its end, so it is not taken for a whole element. -/
theorem content_getLast? (t : TagSource) : t.content.getLast? ≠ some '/' := by
  rw [content, List.getLast?_append]
  -- without attributes the name comes last
  cases htext : t.attributeText.getLast? with
  | some c =>
    have := t.not_slash
    rw [htext] at this
    simpa using this
  | none =>
    intro hlast
    exact t.isName.ne_of_mem (List.mem_of_getLast? (by simpa using hlast)) '/' rfl rfl

/-- A tag that begins an element. -/
theorem next_opening (t : TagSource) (rest : List Char) :
    Token.next '<' (t.content ++ '>' :: rest) = .ok (.opening t.tag, rest) := by
  rw [Token.next, if_pos rfl, markup_opening rest t.tagText_content t.content_head?
    t.content_getLast?, t.ofContent_content]

/-- A tag that is a whole element. -/
theorem next_empty (t : TagSource) (rest : List Char) :
    Token.next '<' (t.content ++ '/' :: '>' :: rest) = .ok (.empty t.tag, rest) := by
  rw [Token.next, if_pos rfl, markup_empty rest t.tagText_content t.content_ne_nil
    t.content_head?, t.ofContent_content]

end TagSource

/-- A tag that ends an element. -/
theorem next_closing {name gap : List Char} (h : IsName name) (hgap : allBlank gap = true)
    (rest : List Char) :
    Token.next '<' ('/' :: (name ++ gap) ++ '>' :: rest) = .ok (.closing name, rest) := by
  rw [Token.next, if_pos rfl, markup_closing rest (h.tagText.append (.of_blank hgap)),
    h.closingName_append hgap]

end InstallManifest.Markup
