import InstallManifest.Markup.Token
import InstallManifest.Proofs.Markup.References
import InstallManifest.Proofs.Span

/-!
# Cutting tokens off a text

What the first token of a text is when the text starts with a tag, a comment, an instruction, a
CDATA section or a reference that somebody wrote, and what stays the same when a text goes on.
A token is fixed by its own characters: what comes after it does not matter, except that character
data runs on.
-/

namespace InstallManifest.Markup

/-! ## Text inside a tag -/

/-- If a tag does not end in a text, it goes on in what follows, in the quotes that are open then.
-/
theorem splitTag_append_of_none {quote : Option Char} {cs : List Char} (rest : List Char)
    (h : splitTag quote cs = none) :
    splitTag quote (cs ++ rest)
      = (splitTag (cs.foldl quoteAfter quote) rest).map fun x => (cs ++ x.1, x.2) := by
  -- on the text, from any quote that may be open
  induction cs generalizing quote with
  | nil => simp
  | cons c cs ih =>
    rw [splitTag] at h
    split at h
    · simp at h
    · rename_i hc
      rw [List.cons_append, splitTag, if_neg hc, ih (by simpa using h), List.foldl_cons]
      simp [Option.map_map, Function.comp_def]

/-- If a tag ends in a text, what follows comes after it. -/
theorem splitTag_append_of_some {quote : Option Char} {cs content after : List Char}
    (rest : List Char) (h : splitTag quote cs = some (content, after)) :
    splitTag quote (cs ++ rest) = some (content, after ++ rest) := by
  induction cs generalizing quote content after with
  | nil => simp [splitTag] at h
  | cons c cs ih =>
    rw [splitTag] at h
    rw [List.cons_append, splitTag]
    split at h
    · rename_i hc
      rw [if_pos hc]
      simp_all
    · rename_i hc
      obtain ⟨⟨content', after'⟩, hcs, heq⟩ := Option.map_eq_some_iff.1 h
      simp only [Prod.mk.injEq] at heq
      rw [if_neg hc, ih hcs, Option.map_some, ← heq.1, ← heq.2]

/-- A tag that has no end has none in a part of it either. -/
theorem splitTag_eq_none_of_prefix {quote : Option Char} {cs text : List Char}
    (hp : cs <+: text) (h : splitTag quote text = none) : splitTag quote cs = none := by
  obtain ⟨rest, rfl⟩ := hp
  cases hs : splitTag quote cs with
  | none => rfl
  | some x => rw [splitTag_append_of_some rest hs] at h; cases h

/-- Text of a tag that begins and ends outside quotes, and in which no `>` ends the tag. -/
def TagText (cs : List Char) : Prop :=
  splitTag none cs = none ∧ cs.foldl quoteAfter none = none

instance (cs : List Char) : Decidable (TagText cs) := inferInstanceAs (Decidable (_ ∧ _))

namespace TagText

/-- Such texts can be put together, since both begin and end outside quotes. -/
theorem append {as bs : List Char} (ha : TagText as) (hb : TagText bs) : TagText (as ++ bs) := by
  constructor
  · rw [splitTag_append_of_none bs ha.1, ha.2, hb.1, Option.map_none]
  · rw [List.foldl_append, ha.2, hb.2]

/-- Text without quotes and `>`. -/
theorem of_plain {cs : List Char} (h : ∀ c ∈ cs, c ≠ '>' ∧ c ≠ '"' ∧ c ≠ '\'') : TagText cs := by
  induction cs with
  | nil => exact ⟨rfl, rfl⟩
  | cons c cs ih =>
    obtain ⟨hc, hcs⟩ := List.forall_mem_cons.1 h
    have hq : quoteAfter none c = none := by simp [quoteAfter, hc.2.1, hc.2.2]
    constructor
    · simp [splitTag, hc.1, hq, (ih hcs).1]
    · rw [List.foldl_cons, hq, (ih hcs).2]

/-- White space. -/
theorem of_blank {gap : List Char} (h : allBlank gap = true) : TagText gap := by
  refine .of_plain fun c hc => ?_
  have hb : isBlank c = true := List.all_eq_true.1 h c hc
  -- neither `>` nor a quote is white space
  refine ⟨?_, ?_, ?_⟩ <;> (rintro rfl; revert hb; decide)

private theorem splitTag_quoted {quote : Char} {raw : List Char} (h : quote ∉ raw) :
    splitTag (some quote) raw = none ∧ raw.foldl quoteAfter (some quote) = some quote := by
  induction raw with
  | nil => exact ⟨rfl, rfl⟩
  | cons c cs ih =>
    simp only [List.mem_cons, not_or] at h
    have hq : quoteAfter (some quote) c = some quote := by simp [quoteAfter, Ne.symm h.1]
    constructor
    · simp [splitTag, hq, (ih h.2).1]
    · rw [List.foldl_cons, hq, (ih h.2).2]

/-- A quoted value may hold anything but its quote. -/
theorem quoted {quote : Char} {raw : List Char} (hq : quote = '"' ∨ quote = '\'')
    (h : quote ∉ raw) : TagText (quote :: raw ++ [quote]) := by
  have hopen : quoteAfter none quote = some quote := by
    rcases hq with rfl | rfl <;> rfl
  have hne : quote ≠ '>' := by
    rcases hq with rfl | rfl <;> decide
  obtain ⟨h1, h2⟩ := splitTag_quoted h
  -- the quote opens at the first character and closes at the last
  have hclose : quoteAfter (some quote) quote = none := by simp [quoteAfter]
  constructor
  · rw [List.cons_append, splitTag, if_neg (by simp [hne]), hopen,
      splitTag_append_of_none _ h1, h2]
    simp [splitTag]
  · simp only [List.cons_append, List.foldl_cons, List.foldl_append, List.foldl_nil, hopen, h2,
      hclose]

/-- A tag ends at the first `>` after such text. -/
theorem splitTag_append {cs : List Char} (h : TagText cs) (rest : List Char) :
    splitTag none (cs ++ '>' :: rest) = some (cs, rest) := by
  rw [splitTag_append_of_none _ h.1, h.2]
  simp [splitTag]

end TagText

/-! ## Tags -/

/-- What begins with no special character is the tag of an element. -/
theorem markup_of_tag {cs : List Char} (h : ∀ c ∈ cs.head?, c ≠ '!' ∧ c ≠ '?' ∧ c ≠ '/') :
    markup cs = match splitTag none cs with
      | some (content, after) => .ok (tagToken content, after)
      | none => .error .tagNotClosed := by
  unfold markup
  split
  · exact absurd rfl (h '!' rfl).1
  · exact absurd rfl (h '?' rfl).2.1
  · exact absurd rfl (h '/' rfl).2.2
  · cases splitTag none cs <;> rfl

/-- A tag that does not end in a slash begins an element. -/
theorem markup_opening {content : List Char} (rest : List Char) (h : TagText content)
    (hfirst : ∀ c ∈ content.head?, c ≠ '!' ∧ c ≠ '?' ∧ c ≠ '/')
    (hlast : content.getLast? ≠ some '/') :
    markup (content ++ '>' :: rest) = .ok (.opening (.ofContent content), rest) := by
  rw [markup_of_tag, h.splitTag_append]
  · simp only [tagToken, if_neg hlast]
  · cases content with
    | nil => simp
    | cons c cs => simpa using hfirst

/-- A tag that ends in a slash is a whole element. -/
theorem markup_empty {content : List Char} (rest : List Char) (h : TagText content)
    (hne : content ≠ []) (hfirst : ∀ c ∈ content.head?, c ≠ '!' ∧ c ≠ '?' ∧ c ≠ '/') :
    markup (content ++ '/' :: '>' :: rest) = .ok (.empty (.ofContent content), rest) := by
  -- the slash is text of the tag until its end is found
  have hslash : TagText (content ++ ['/']) :=
    h.append (.of_plain (by simp))
  have hsplit := hslash.splitTag_append rest
  rw [List.append_assoc, List.singleton_append] at hsplit
  rw [markup_of_tag, hsplit]
  · simp [tagToken]
  · cases content with
    | nil => exact absurd rfl hne
    | cons c cs => simpa using hfirst

/-- A tag that begins with a slash ends an element. -/
theorem markup_closing {content : List Char} (rest : List Char) (h : TagText content) :
    markup ('/' :: content ++ '>' :: rest) = .ok (.closing (closingName content), rest) := by
  simp [markup, h.splitTag_append]

/-! ## Comments, sections and instructions -/

/-- What is left after an end mark is shorter by the mark at least. -/
theorem length_le_of_skipPast {stop cs after : List Char} (h : skipPast stop cs = some after) :
    stop.length + after.length ≤ cs.length := by
  induction cs with
  | nil => simp [skipPast] at h
  | cons c cs ih =>
    rw [skipPast] at h
    split at h
    · rename_i hstop
      have hle := (List.isPrefixOf_iff_prefix.1 hstop).length_le
      rw [Option.some.injEq] at h
      rw [← h, List.length_drop]
      omega
    · have := ih h
      simp only [List.length_cons]
      omega

/-- An end mark that is found in a text is found there whatever follows. -/
theorem skipPast_append_of_some {stop cs after : List Char} (rest : List Char)
    (h : skipPast stop cs = some after) : skipPast stop (cs ++ rest) = some (after ++ rest) := by
  induction cs with
  | nil => simp [skipPast] at h
  | cons c cs ih =>
    have hlen := length_le_of_skipPast h
    rw [skipPast] at h
    rw [List.cons_append, skipPast]
    split at h
    · rename_i hstop
      have hpre := List.isPrefixOf_iff_prefix.1 hstop
      rw [Option.some.injEq] at h
      have hpre' : stop <+: c :: (cs ++ rest) := hpre.trans (List.prefix_append (c :: cs) rest)
      rw [if_pos (List.isPrefixOf_iff_prefix.2 hpre'), ← h, ← List.cons_append,
        List.drop_append_of_le_length hpre.length_le]
    · rename_i hstop
      -- the end cannot reach into what follows: it was found before that
      have hno : ¬ stop <+: c :: (cs ++ rest) := by
        intro hpre
        refine hstop (List.isPrefixOf_iff_prefix.2 ?_)
        exact List.prefix_of_prefix_length_le hpre (List.prefix_append (c :: cs) rest) (by omega)
      rw [if_neg (fun hpre => hno (List.isPrefixOf_iff_prefix.1 hpre)), ih h]

/-- A body that does not hold the end mark is passed over up to the mark. The last character of the
mark stands nowhere else in it, so a mark cannot begin inside the body. -/
theorem skipPast_append {init : List Char} {last : Char} (hlast : last ∉ init) {body : List Char}
    (h : ¬ init ++ [last] <:+: body) (rest : List Char) :
    skipPast (init ++ [last]) (body ++ (init ++ [last]) ++ rest) = some rest := by
  -- on the body; the mark is not at its start, so one character can be passed over
  induction body with
  | nil =>
    obtain ⟨c, cs, hcs⟩ : ∃ c cs, init ++ [last] = c :: cs := by
      cases init <;> exact ⟨_, _, rfl⟩
    have hpre : (init ++ [last]).isPrefixOf (c :: (cs ++ rest)) = true := by
      rw [List.isPrefixOf_iff_prefix, hcs]
      exact List.prefix_append (c :: cs) rest
    rw [List.nil_append, hcs, List.cons_append, skipPast, ← hcs, if_pos hpre, hcs,
      ← List.cons_append, List.drop_left]
  | cons c cs ih =>
    have hcs : ¬ init ++ [last] <:+: cs := fun hin => h (hin.trans (List.suffix_cons c cs).isInfix)
    rw [List.cons_append, List.cons_append, skipPast, if_neg, ih hcs]
    rw [List.isPrefixOf_iff_prefix, ← List.cons_append, ← List.cons_append, List.append_assoc]
    intro hpre
    by_cases hlen : (init ++ [last]).length ≤ (c :: cs).length
    · exact h (List.prefix_of_prefix_length_le hpre (List.prefix_append ..) hlen).isInfix
    · -- the last character of the first mark would stand inside the second one
      simp only [List.length_append, List.length_cons, List.length_nil, Nat.not_le] at hlen
      have hat := hpre.getElem (show init.length < (init ++ [last]).length by simp)
      rw [List.getElem_concat_length rfl,
        List.getElem_append_right (by simp only [List.length_cons]; omega),
        List.getElem_append_left (by simp only [List.length_append, List.length_cons]; omega),
        List.getElem_append_left (by simp only [List.length_cons]; omega)] at hat
      exact hlast (hat ▸ List.getElem_mem _)

/-- If a document type ends in a text, what follows comes after it. -/
theorem splitDoctype_append_of_some {depth : Nat} {cs content after : List Char}
    (rest : List Char) (h : splitDoctype depth cs = some (content, after)) :
    splitDoctype depth (cs ++ rest) = some (content, after ++ rest) := by
  induction cs generalizing depth content after with
  | nil => simp [splitDoctype] at h
  | cons c cs ih =>
    rw [splitDoctype] at h
    rw [List.cons_append, splitDoctype]
    -- either it ends here, or the rest of it ends in the rest of the text
    split at h
    · rename_i hc
      rw [if_pos hc]
      simp_all
    · rename_i hc
      obtain ⟨⟨content', after'⟩, hcs, heq⟩ := Option.map_eq_some_iff.1 h
      simp only [Prod.mk.injEq] at heq
      rw [if_neg hc]
      dsimp only
      rw [ih hcs, Option.map_some, ← heq.1, ← heq.2]

/-! ## A token does not depend on what follows it -/

/-- An instruction that ends in a text ends there whatever follows. -/
theorem skipInstruction_append_of_ok {cs after : List Char} (rest : List Char)
    (h : skipInstruction cs = .ok after) : skipInstruction (cs ++ rest) = .ok (after ++ rest) := by
  unfold skipInstruction at h ⊢
  split at h
  · cases h
  · rename_i hhead
    cases hs : skipPast ['?', '>'] cs with
    | none => simp [hs] at h
    | some after' =>
      have hne : cs ≠ [] := by rintro rfl; simp [skipPast] at hs
      rw [hs] at h
      rw [List.head?_append_of_ne_nil _ hne, if_neg hhead, skipPast_append_of_some rest hs]
      cases h
      rfl

theorem skipDeclaration_append_of_ok {cs after : List Char} (rest : List Char)
    (h : skipDeclaration cs = .ok after) : skipDeclaration (cs ++ rest) = .ok (after ++ rest) := by
  unfold skipDeclaration at h
  split at h
  · -- a comment
    split at h
    · rename_i body
      cases hs : skipPast ['-', '-', '>'] body with
      | none => simp [hs] at h
      | some after' =>
        rw [hs] at h
        cases h
        simp [skipDeclaration, skipPast_append_of_some rest hs]
    · cases h
  · -- a CDATA section
    rename_i body
    split at h
    · rename_i hcdata
      cases hs : skipPast [']', ']', '>'] (body.drop 6) with
      | none => simp [hs] at h
      | some after' =>
        rw [hs] at h
        cases h
        have hpre := List.isPrefixOf_iff_prefix.1 hcdata
        have hcdata' := List.isPrefixOf_iff_prefix.2 (hpre.trans (List.prefix_append body rest))
        have hlen : 6 ≤ body.length := hpre.length_le
        simp only [List.cons_append, skipDeclaration, if_pos hcdata',
          List.drop_append_of_le_length hlen, skipPast_append_of_some rest hs, Option.elim_some]
    · cases h
  · -- a document type
    rename_i c body hdash hbracket
    split at h
    · rename_i hc
      split at h
      · rename_i hword
        -- the word is complete, so what follows is no part of it
        have hlen : 6 ≤ body.length := by
          have := congrArg List.length hword
          simp only [List.length_map, List.length_take, List.length_cons, List.length_nil] at this
          omega
        split at h
        · cases h
        · rename_i content after' hs
          split at h
          · cases h
          · rename_i hblank
            cases h
            have hsplit : splitDoctype 0 ((body ++ rest).drop 6)
                = some (content, after ++ rest) := by
              rw [List.drop_append_of_le_length hlen, splitDoctype_append_of_some rest hs]
            rw [List.cons_append, skipDeclaration]
            · rw [if_pos hc, List.take_append_of_le_length hlen, if_pos hword, hsplit]
              simp only [if_neg hblank]
            · simpa using hdash
            · simpa using hbracket
      · cases h
    · cases h
  · cases h

/-- Markup that ends in a text ends there whatever follows. -/
theorem markup_append_of_ok {cs after : List Char} {t : Token} (rest : List Char)
    (h : markup cs = .ok (t, after)) : markup (cs ++ rest) = .ok (t, after ++ rest) := by
  unfold markup at h
  -- by the character after the `<`, which is the first of the text and stays that
  split at h
  · rename_i body
    cases hs : skipDeclaration body with
    | error cause => simp [hs, Except.map] at h
    | ok after' =>
      simp only [hs, Except.map, Except.ok.injEq, Prod.mk.injEq] at h
      simp [markup, skipDeclaration_append_of_ok rest hs, Except.map, h]
  · rename_i body
    cases hs : skipInstruction body with
    | error cause => simp [hs, Except.map] at h
    | ok after' =>
      simp only [hs, Except.map, Except.ok.injEq, Prod.mk.injEq] at h
      simp [markup, skipInstruction_append_of_ok rest hs, Except.map, h]
  · rename_i body
    split at h
    · rename_i content after' hs
      simp only [Except.ok.injEq, Prod.mk.injEq] at h
      simp [markup, splitTag_append_of_some rest hs, h]
    · cases h
  · rename_i hbang hquestion hslash
    split at h
    · rename_i content after' hs
      simp only [Except.ok.injEq, Prod.mk.injEq] at h
      have hne : cs ≠ [] := by rintro rfl; simp [splitTag] at hs
      have hfirst : ∀ c ∈ (cs ++ rest).head?, c ≠ '!' ∧ c ≠ '?' ∧ c ≠ '/' := by
        cases cs with
        | nil => exact absurd rfl hne
        | cons c cs => simp_all
      rw [markup_of_tag hfirst, splitTag_append_of_some rest hs]
      simp [h]
    · cases h

/-- What follows a token that is no character data does not matter to it. -/
theorem Token.next_append {c : Char} {cs after : List Char} {t : Token} (rest : List Char)
    (hc : endsText c = true) (h : Token.next c cs = .ok (t, after)) :
    Token.next c (cs ++ rest) = .ok (t, after ++ rest) := by
  unfold Token.next at h ⊢
  split at h
  · rename_i hlt
    rw [if_pos hlt, markup_append_of_ok rest h]
  · rename_i hlt
    -- of what ends character data only a reference is left
    have hamp : c = '&' := by simpa [endsText, hlt] using hc
    rw [if_pos hamp] at h
    rw [if_neg hlt, if_pos hamp]
    split at h
    · rename_i body after' hs
      simp only [Except.ok.injEq, Prod.mk.injEq] at h
      simp [splitReference_append_of_some rest hs, h]
    · cases h

/-- Character data runs up to the next markup or reference. -/
theorem Token.next_of_text {c : Char} (cs : List Char) (hc : endsText c = false) :
    Token.next c cs = .ok (.aside, cs.dropWhile (!endsText ·)) := by
  simp only [endsText, Bool.or_eq_false_iff, decide_eq_false_iff_not] at hc
  rw [Token.next, if_neg hc.1, if_neg hc.2]

/-! ## All tokens of a text -/

/-- The tokens of a text are its first and those of what is left. -/
theorem Token.scan_cons {c : Char} {cs after : List Char} {t : Token}
    (h : Token.next c cs = .ok (t, after)) :
    Token.scan (c :: cs) = (t :: (Token.scan after).1, (Token.scan after).2) := by
  rw [Token.scan]
  split
  · rename_i heq
    rw [h] at heq
    cases heq
  · rename_i heq
    rw [h] at heq
    cases heq
    rfl

theorem Token.scan_cons_of_error {c : Char} {cs : List Char} {cause : TokenFault}
    (h : Token.next c cs = .error cause) : Token.scan (c :: cs) = ([], some cause) := by
  rw [Token.scan]
  split
  · rename_i heq
    rw [h] at heq
    cases heq
    rfl
  · rename_i heq
    rw [h] at heq
    cases heq

/-- Whether a text ends where its last token ends, so that more markup can follow it. -/
def IsComplete (cs : List Char) : Prop := (Token.scan cs).2 = none

instance (cs : List Char) : Decidable (IsComplete cs) := inferInstanceAs (Decidable (_ = none))

namespace IsComplete

theorem nil : IsComplete [] := by simp [IsComplete, Token.scan]

/-- A text is complete if what its first token leaves is. -/
theorem cons_iff {c : Char} {cs after : List Char} {t : Token}
    (h : Token.next c cs = .ok (t, after)) : IsComplete (c :: cs) ↔ IsComplete after := by
  rw [IsComplete, IsComplete, Token.scan_cons h]

theorem not_of_error {c : Char} {cs : List Char} {cause : TokenFault}
    (h : Token.next c cs = .error cause) : ¬ IsComplete (c :: cs) := by
  rw [IsComplete, Token.scan_cons_of_error h]
  simp

/-- Character data is complete wherever it stops. -/
theorem text_cons_iff {c : Char} (cs : List Char) (hc : endsText c = false) :
    IsComplete (c :: cs) ↔ IsComplete cs := by
  rw [cons_iff (Token.next_of_text cs hc)]
  cases cs with
  | nil => rfl
  | cons d ds =>
    -- the rest begins with markup, or with more of the same character data
    cases hd : endsText d with
    | true => rw [List.dropWhile_cons_of_neg (by simp [hd])]
    | false =>
      rw [List.dropWhile_cons_of_pos (by simp [hd]), cons_iff (Token.next_of_text ds hd)]

end IsComplete

end InstallManifest.Markup
