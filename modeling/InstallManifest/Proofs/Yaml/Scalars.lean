import InstallManifest.Proofs.Yaml.Lexing
import InstallManifest.Proofs.Yaml.Literal
import InstallManifest.Proofs.Yaml.Quoted

/-!
# Scalars after their keys

Whatever the style that a text is written in, as long as it fits the text, one step reads a token
with that text and that style.
-/

namespace InstallManifest.Yaml

open Block (margin)

/-- Whether a style can hold a text. -/
def ScalarStyle.Fits (cs : List Char) : ScalarStyle → Prop
  | plain => cs ≠ [] ∧ FitsPlain cs
  | singleQuoted => FitsSingleQuotes cs
  | doubleQuoted => True
  | literal => cs ≠ [] ∧ ∀ c ∈ cs, isPrintable c = true
  | folded => False

/-- Quotes of one kind or the other can hold any text. -/
theorem quotingStyle_fits (cs : List Char) : (quotingStyle cs).Fits cs := by
  unfold quotingStyle
  split
  · next h => exact fitsSingleQuotes_of_eq_true h
  · trivial

/-- The style that is chosen for a text can hold it. -/
theorem styleOf_fits (s : String) : (styleOf s).Fits s.toList := by
  unfold styleOf
  dsimp only
  split
  · split
    · next h =>
      simp only [fitsLiteral, needsEscapes, Bool.and_eq_true, Bool.not_eq_true',
        Bool.or_eq_false_iff, List.any_eq_false] at h
      obtain ⟨⟨hne, hprintable, -⟩, -⟩ := h
      exact ⟨by simpa using hne, fun c hc => by simpa using hprintable c hc⟩
    · trivial
  split
  · next h =>
    rw [Bool.and_eq_true] at h
    refine ⟨fun hnil => ?_, fitsPlain_of_eq_true h.2⟩
    obtain rfl : s = "" := String.toList_eq_nil_iff.1 hnil
    cases h.1
  · exact quotingStyle_fits _

namespace Lexing

variable {s : Lexing} {kinds : List TokenKind} {column : Nat} {outer : List Nat}

/-- What reading a scalar leaves, where the next line has some content. -/
structure ReadsScalar (s : Lexing) (text : String) (style : ScalarStyle) (k : Nat)
    (content : List Char) (next : Cursor) (keyAllowed : Bool) : Prop where
  atNext : s.atNext =
    .ok ({ s with cursor := next, keyAllowed }.emit (.scalar text style) s.cursor.mark)
  place : ∃ m : Mark, m.column = k ∧ skipBetween false keyAllowed next = (⟨content, m⟩, true)
  length_le : next.rest.length ≤ (margin k ++ content).length + 1

section

variable {cs : List Char} {k : Nat} {content : List Char}

theorem InLine.keepKey {indents : List Nat} {rest : List Char} (h : s.InLine kinds indents rest) :
    s.keepKey = .ok s := by
  rw [Lexing.keepKey, if_neg (by simp [h.keyAllowed])]
  rfl

/-- A plain scalar is read in one step, up to its last word. -/
theorem readsScalar_plain
    (h : s.InLine kinds (column :: outer) (cs ++ '\n' :: (margin k ++ content))) (hk : k ≤ column)
    (hcontent : IsContent content) (hne : cs ≠ []) (hfits : FitsPlain cs) :
    ∃ next keyAllowed, s.ReadsScalar (String.ofList cs) .plain k content next keyAllowed := by
  obtain ⟨c, cs, rfl⟩ := List.exists_cons_of_ne_nil hne
  -- it begins with a character that begins no other token
  have hgap : isGap c = false := by
    have hchar := hfits.run.char c List.mem_cons_self
    exact isGap_eq_false_iff.2 ⟨fun h => hfits.ne_space_head (congrArg some h), hchar.2, hchar.1⟩
  have hm : column < s.cursor.mark.column := h.column column rfl
  have hplain : s.atNext = s.atPlain := by
    rw [atNext, h.rest]
    exact atChar_plain h.rest h.between.inFlow hgap hfits.first (.inl (Nat.ne_zero_of_lt hm))
  have hread : readPlain false ((s.indents.head?.map (· + 1)).getD 0) s.cursor =
      .ok ⟨c :: cs, true, ⟨content, s.cursor.mark.afterAll (c :: cs ++ '\n' :: margin k)⟩⟩ := by
    have h' := readPlain_of_fitsPlain hfits hne (Nat.lt_succ_of_le hk) hcontent
      (Nat.ne_zero_of_lt hm) hm
    rw [← h.rest] at h'
    rw [h.between.indents]
    exact h'
  have hnext := atPlain_eq h.keepKey h.between.inFlow hread
  rw [← hplain] at hnext
  refine ⟨_, _, ⟨hnext, ⟨_, ?_, skipBetween_content _ _ hcontent _⟩, ?_⟩⟩
  · simp [Mark.column_after_break _ (c := '\n') rfl]
  · simp only [List.length_append]
    omega

/-- A line that has ended, before the next. -/
theorem skipBetween_line (keyAllowed : Bool) (k : Nat) (hcontent : IsContent content) (m : Mark) :
    ∃ m' : Mark, m'.column = k ∧
      skipBetween false keyAllowed ⟨'\n' :: (margin k ++ content), m⟩ = (⟨content, m'⟩, true) := by
  refine ⟨(m.after '\n').afterAll (margin k), ?_, ?_⟩
  · simp [Mark.column_after_break _ (c := '\n') rfl]
  · rw [skipBetween_break, skipBetween_spaces _ _ k hcontent]

/-- A quoted scalar is read in one step, up to its closing quote. -/
theorem readsScalar_quoted {single : Bool} {written : List Char}
    (h : s.InLine kinds (column :: outer)
      (quoteOf single :: (written ++ quoteOf single :: '\n' :: (margin k ++ content))))
    (hcontent : IsContent content) (htext : QuotedText single cs written) :
    ∃ next keyAllowed, s.ReadsScalar (String.ofList cs)
      (if single then .singleQuoted else .doubleQuoted) k content next keyAllowed := by
  have hm : s.cursor.mark.column ≠ 0 := Nat.ne_zero_of_lt (h.column column rfl)
  have hquoted : s.atNext = s.atQuoted single := by
    rw [atNext, h.rest]
    cases single <;> simp [quoteOf, atChar, Cursor.atTriple_of_column _ hm]
  obtain ⟨m, hread⟩ : ∃ m, readQuoted single ⟨s.cursor.rest, s.cursor.mark⟩ =
      .ok (cs, ⟨'\n' :: (margin k ++ content), m⟩) := by
    rw [h.rest]
    exact ⟨_, htext.readQuoted_eq (by simp) _⟩
  refine ⟨⟨'\n' :: (margin k ++ content), m⟩, false, ⟨?_, skipBetween_line false k hcontent m, ?_⟩⟩
  · rw [hquoted, atQuoted, Lexing.read, h.keepKey, ok_bind, hread]
    cases single <;> rfl
  · simp

/-- A literal block is read in one step, up to the line after it. -/
theorem readsScalar_literal
    (h : s.InLine kinds (column :: outer) (literalHeader cs ++ '\n' ::
      (literalFrom (column + indentStep) true cs ++ lastLineEnd cs ++ (margin k ++ content))))
    (hk : k ≤ column) (hcontent : IsContent content) (hne : cs ≠ [])
    (hprintable : ∀ c ∈ cs, isPrintable c = true) :
    ∃ next keyAllowed, s.ReadsScalar (String.ofList cs) .literal k content next keyAllowed := by
  have hm : s.cursor.mark.column ≠ 0 := Nat.ne_zero_of_lt (h.column column rfl)
  have hblock : s.atNext = s.atBlock true := by
    rw [atNext, h.rest, literalHeader_eq]
    simp [atChar, Cursor.atTriple_of_column _ hm, h.between.inFlow]
  -- a tab is not printable, so the text does not begin with one
  have htab : cs.head? ≠ some '\t' := fun h => by
    cases hprintable '\t' (List.mem_of_mem_head? h)
  obtain ⟨m, hcolumn, hread⟩ := readBlock_literal hne htab hk hcontent s.cursor.mark
  rw [← h.rest] at hread
  have hread' : readBlock true s.indents.head? s.cursor = .ok (cs, ⟨content, m⟩) := by
    rw [h.between.indents]
    exact hread
  refine ⟨_, _, ⟨?_, ⟨m, hcolumn, skipBetween_content _ true hcontent _⟩, ?_⟩⟩
  · rw [hblock, atBlock, h.between.forgetKey, ok_bind, hread']
    rfl
  · simp only [List.length_append]
    omega

theorem isContent_cons {c : Char} {rest : List Char} (hgap : isGap c = false) (hhash : c ≠ '#')
    (hmark : c ≠ '\ufeff') : IsContent (c :: rest) := by
  rintro _ ⟨⟩
  exact ⟨hgap, hhash, hmark⟩

/-- What is written for a scalar begins with content, in any style. -/
theorem isContent_writeScalar {style : ScalarStyle} {indent : Nat} (hfits : style.Fits cs)
    (rest : List Char) : IsContent (writeScalar indent style cs ++ rest) := by
  cases style with
  | plain =>
    obtain ⟨hne, hfits⟩ := hfits
    obtain ⟨c, cs, rfl⟩ := List.exists_cons_of_ne_nil hne
    have hchar := hfits.run.char c List.mem_cons_self
    refine isContent_cons ?_ (fun h => hfits.run.head_ne_hash (congrArg some h)) ?_
    · exact isGap_eq_false_iff.2 ⟨fun h => hfits.ne_space_head (congrArg some h), hchar.2, hchar.1⟩
    · rintro rfl
      cases hfits.printable _ List.mem_cons_self
  | singleQuoted => exact isContent_cons rfl (by decide) (by decide)
  | doubleQuoted => exact isContent_cons rfl (by decide) (by decide)
  | literal =>
    rw [writeScalar, literalHeader_eq]
    exact isContent_cons rfl (by decide) (by decide)
  | folded => cases hfits

theorem writeScalar_ne_nil {style : ScalarStyle} {indent : Nat} (hfits : style.Fits cs) :
    writeScalar indent style cs ≠ [] := by
  cases style with
  | plain => simp [writeScalar]
  | singleQuoted => simp [writeScalar]
  | doubleQuoted => simp [writeScalar]
  | literal => simp [writeScalar, literalHeader_eq]
  | folded => cases hfits

theorem getLast?_literalFrom (indent : Nat) (afterBreak : Bool) (cs : List Char) :
    (literalFrom indent afterBreak cs).getLast? = cs.getLast? := by
  induction cs generalizing afterBreak with
  | nil => rfl
  | cons c cs ih =>
    rw [literalFrom]
    split
    · rw [List.getLast?_cons, List.getLast?_cons, ih]
    · rw [List.getLast?_append_of_ne_nil _ (List.cons_ne_nil _ _), List.getLast?_cons,
        List.getLast?_cons, ih]

/-- A literal is its header, its lines and the end of the last. -/
theorem writeScalar_literal (indent : Nat) (hne : cs ≠ []) :
    writeScalar indent .literal cs =
      literalHeader cs ++ '\n' :: (literalFrom indent true cs ++ lastLineEnd cs) := by
  have hlast : ('\n' :: literalFrom indent true cs).getLast? = cs.getLast? := by
    rw [List.getLast?_cons, getLast?_literalFrom, List.getLast?_eq_some_getLast hne]
    rfl
  rw [writeScalar, hlast, lastLineEnd]
  split <;> simp

theorem InLine.readsScalar {style : ScalarStyle}
    (h : s.InLine kinds (column :: outer)
      (writeScalar (column + indentStep) style cs ++ (margin k ++ content)))
    (hfits : style.Fits cs) (hk : k ≤ column) (hcontent : IsContent content) :
    ∃ next keyAllowed, s.ReadsScalar (String.ofList cs) style k content next keyAllowed := by
  cases style with
  | plain =>
    rw [writeScalar, List.append_assoc] at h
    exact readsScalar_plain h hk hcontent hfits.1 hfits.2
  | singleQuoted =>
    have h' : s.InLine kinds (column :: outer) (quoteOf true ::
        (singleQuotedFrom (column + indentStep) false cs ++
          quoteOf true :: '\n' :: (margin k ++ content))) := by
      simpa [writeScalar, quoteOf] using h
    exact readsScalar_quoted h' hcontent (quotedText_single indentStep_ne_zero hfits)
  | doubleQuoted =>
    have h' : s.InLine kinds (column :: outer) (quoteOf false ::
        (cs.flatMap escapeDouble ++ quoteOf false :: '\n' :: (margin k ++ content))) := by
      simpa [writeScalar, quoteOf] using h
    exact readsScalar_quoted h' hcontent (quotedText_double cs)
  | literal =>
    rw [writeScalar_literal _ hfits.1] at h
    exact readsScalar_literal (by simpa using h) hk hcontent hfits.1 hfits.2
  | folded => cases hfits

/-- One step reads a scalar in a style that fits it. -/
theorem InLine.readScalar {style : ScalarStyle}
    (h : s.InLine kinds (column :: outer)
      (' ' :: (writeScalar (column + indentStep) style cs ++ (margin k ++ content))))
    (hfits : style.Fits cs) (hk : k ≤ column) (hcontent : IsContent content) :
    ∃ t : Lexing, tokensFrom s = tokensFrom t ∧
      t.AtLine (kinds ++ [.scalar (String.ofList cs) style]) (column :: outer) k content := by
  obtain ⟨t, ht, hstep, hlt⟩ := h.step_eq (isContent_writeScalar hfits _)
  obtain ⟨next, keyAllowed, hnext, hplace, hle⟩ := ht.readsScalar hfits hk hcontent
  have hbetween := (ht.between.moved next keyAllowed).emit
    (.scalar (String.ofList cs) style) t.cursor.mark
  rw [hnext, ok_bind, hbetween.forgetOver] at hstep
  -- something was read, so there is less left than before
  have hwritten : 0 < (writeScalar (column + indentStep) style cs).length :=
    List.length_pos_iff.2 (writeScalar_ne_nil hfits)
  refine ⟨_, tokensFrom_step hstep rfl ?_, hplace, [], _, hbetween, nofun, List.append_nil _⟩
  rw [List.length_append] at hlt
  exact Nat.lt_of_le_of_lt hle (by omega)

end

end Lexing

end InstallManifest.Yaml
