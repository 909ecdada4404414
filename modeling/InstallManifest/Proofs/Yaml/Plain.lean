import InstallManifest.Proofs.Yaml.Cursor

/-!
# Plain scalars read back

A plain scalar that fits its style is read up to the end of its last word: no colon and no number
sign in it is taken for an indicator, and the line after it is not taken for its own, since that
stands further to the left.
-/

namespace InstallManifest.Yaml

open Block (margin)

/-! ## Words -/

/-- Whether a text can be read as words and the spaces between them. -/
structure IsPlainRun (cs : List Char) : Prop where
  char : ∀ c ∈ cs, isBreak c = false ∧ c ≠ '\t'
  colon : ∀ before after, cs = before ++ ':' :: after → ∃ c ∈ after.head?, isGap c = false
  hash : ∀ before after, cs = before ++ '#' :: after → ∃ c ∈ before.getLast?, isGap c = false

namespace IsPlainRun

variable {cs before after : List Char}

theorem isGap_iff (h : IsPlainRun cs) {c : Char} (hc : c ∈ cs) : isGap c = true ↔ c = ' ' := by
  have hchar := h.char c hc
  simp [isGap, isBlank, hchar.1, hchar.2]

/-- What follows some spaces is read in the same way. -/
theorem of_append (h : IsPlainRun (before ++ after))
    (hspace : ∀ c ∈ before.getLast?, isGap c = true) :
    IsPlainRun after where
  char c hc := h.char c (List.mem_append_right _ hc)
  colon before' after' heq := h.colon (before ++ before') after' (by rw [heq, List.append_assoc])
  hash before' after' heq := by
    obtain ⟨c, hc, hgap⟩ := h.hash (before ++ before') after' (by rw [heq, List.append_assoc])
    rw [List.getLast?_append] at hc
    cases hlast : before'.getLast? with
    | none =>
      rw [hlast, Option.none_or] at hc
      rw [hspace c hc] at hgap
      cases hgap
    | some d =>
      rw [hlast, Option.some_or] at hc
      exact ⟨c, hc, hgap⟩

/-- A run does not begin with a number sign, as that would have to follow a word. -/
theorem head_ne_hash (h : IsPlainRun cs) : cs.head? ≠ some '#' := by
  intro hhead
  obtain ⟨after, rfl⟩ := List.head?_eq_some_iff.1 hhead
  obtain ⟨c, hc, -⟩ := h.hash [] after rfl
  cases hc

end IsPlainRun

theorem endsPlainWord_cons (c : Char) (rest : List Char) :
    endsPlainWord false (c :: rest) = (isGap c || (c = ':' && rest.head?.all isGap)) := by
  have hfault : isColonFault false (c :: rest) = false := by
    unfold isColonFault
    split <;> simp
  simp [endsPlainWord, hfault]

/-- A word ends before a gap, or where the text ends. -/
theorem endsPlainWord_of_gap {tail : List Char} (h : ∀ c ∈ tail.head?, isGap c = true) :
    endsPlainWord false tail = true := by
  cases tail with
  | nil => rfl
  | cons c tail => rw [endsPlainWord_cons, h c rfl, Bool.true_or]

/-- A word goes up to a gap, or up to a colon before one. -/
theorem plainWord_append {word tail : List Char} (hword : ∀ c ∈ word, isGap c = false)
    (hcolon : ∀ before after, word = before ++ ':' :: after →
      ∃ c ∈ (after ++ tail).head?, isGap c = false)
    (htail : endsPlainWord false tail = true) : plainWord false (word ++ tail) = word := by
  induction word with
  | nil =>
    cases tail with
    | nil => rfl
    | cons c tail => rw [List.nil_append, plainWord, if_pos htail]
  | cons c word ih =>
    -- the word goes on: no gap, and no colon before one
    have hgoes : endsPlainWord false (c :: (word ++ tail)) = false := by
      rw [endsPlainWord_cons, hword c List.mem_cons_self, Bool.false_or, Bool.and_eq_false_iff]
      by_cases hc : c = ':'
      · subst hc
        obtain ⟨d, hd, hgap⟩ := hcolon [] word rfl
        right
        rw [Option.mem_def.1 hd]
        simpa using hgap
      · exact .inl (decide_eq_false hc)
    rw [List.cons_append, plainWord, if_neg (by simp [hgoes]),
      ih (fun d hd => hword d (List.mem_cons_of_mem _ hd))
        fun before after heq => hcolon (c :: before) after (by rw [heq, List.cons_append])]

/-- Without tabs there is none in an indentation. -/
theorem tabInIndentation?_eq_none (indent : Nat) (newLine : Bool) (m : Mark) {cs : List Char}
    (h : '\t' ∉ cs) : tabInIndentation? indent newLine m cs = none := by
  induction cs generalizing newLine m with
  | nil => rfl
  | cons c cs ih =>
    have hne : c ≠ '\t' := fun heq => h (heq ▸ List.mem_cons_self)
    rw [tabInIndentation?, if_neg (by simp [hne]), ih _ _ fun hc => h (List.mem_cons_of_mem _ hc)]

/-- The first word of a run, up to the gap after it. -/
theorem IsPlainRun.plainWord {word tail next : List Char} (h : IsPlainRun (word ++ tail))
    (hword : ∀ c ∈ word, isGap c = false) (hnext : ∀ c ∈ (tail ++ next).head?, isGap c = true) :
    plainWord false (word ++ (tail ++ next)) = word := by
  refine plainWord_append hword (fun before after heq => ?_) (endsPlainWord_of_gap hnext)
  obtain ⟨c, hc, hgap⟩ := h.colon before (after ++ tail) (by rw [heq]; simp)
  refine ⟨c, ?_, hgap⟩
  rw [← List.append_assoc, List.head?_append, Option.mem_def.1 hc]
  rfl

/-- A run is a single word, or a word and spaces before a shorter run. -/
theorem IsPlainRun.isWord_or_split {cs : List Char} (h : IsPlainRun cs)
    (hhead : cs.head? ≠ some ' ')
    (hlast : cs.getLast? ≠ some ' ') :
    (∀ c ∈ cs, isGap c = false) ∨ ∃ word spaces more, cs = word ++ (spaces ++ more) ∧ word ≠ [] ∧
      (∀ c ∈ word, isGap c = false) ∧ spaces ≠ [] ∧ (∀ c ∈ spaces, c = ' ') ∧ IsPlainRun more ∧
      more ≠ [] ∧ ∀ c ∈ more.head?, isGap c = false := by
  obtain ⟨word, tail, rfl, hword, htail⟩ := exists_run (!isGap ·) cs
  obtain ⟨spaces, more, rfl, hspaces, hmore⟩ := exists_run isGap tail
  simp only [Bool.not_eq_true', Bool.not_eq_false'] at hword htail
  by_cases hnil : spaces = []
  · subst hnil
    -- what follows the word is no gap and yet begins with one
    have hmoreNil : more = [] := by
      cases more with
      | nil => rfl
      | cons c more => cases (htail c rfl).symm.trans (hmore c rfl)
    subst hmoreNil
    exact .inl (by simpa using hword)
  have hspace : ∀ c ∈ spaces, c = ' ' := fun c hc =>
    (h.isGap_iff (List.mem_append_right _ (List.mem_append_left _ hc))).1 (hspaces c hc)
  -- the run does not begin with a space, so there is a word
  have hwordNe : word ≠ [] := by
    rintro rfl
    obtain ⟨c, spaces, rfl⟩ := List.exists_cons_of_ne_nil hnil
    exact hhead (congrArg some (hspace c List.mem_cons_self))
  have hlastSpace : spaces.getLast? = some ' ' := by
    rw [List.getLast?_eq_some_getLast hnil, hspace _ (List.getLast_mem hnil)]
  -- nor does it end with one, so there is another
  have hmoreNe : more ≠ [] := by
    rintro rfl
    rw [List.append_nil, List.getLast?_append_of_ne_nil _ hnil] at hlast
    exact hlast hlastSpace
  have hmoreRun : IsPlainRun more := by
    rw [← List.append_assoc] at h
    refine h.of_append fun c hc => hspaces c (List.mem_of_getLast? ?_)
    rwa [List.getLast?_append_of_ne_nil _ hnil] at hc
  exact .inr ⟨word, spaces, more, rfl, hwordNe, hword, hnil, hspace, hmoreRun, hmoreNe, hmore⟩

/-! ## One word after another -/

section

variable {word between next : List Char} {m : Mark} {indent : Nat} {start : Mark} {text : List Char}
  {gap : Gap}

theorem isColonFault_false (cs : List Char) : isColonFault false cs = false := by
  unfold isColonFault
  split <;> rfl

theorem startsWith_append_eq_false (hne : word ≠ []) {c : Char} (hhead : word.head? ≠ some c) :
    (⟨word ++ next, m⟩ : Cursor).startsWith c = false := by
  rw [Cursor.startsWith, List.head?_append_of_ne_nil _ hne, decide_eq_false_iff_not]
  exact hhead

/-- A plain scalar ends with a word that nothing keeps apart from what follows. -/
theorem plainFrom_lastWord (hm : m.column ≠ 0 ∨ ∃ c ∈ word.head?, c ≠ '-' ∧ c ≠ '.')
    (hne : word ≠ []) (hhash : word.head? ≠ some '#')
    (hword : plainWord false (word ++ next) = word) (hnext : ∀ c ∈ next.head?, isGap c = false) :
    plainFrom false indent start text gap ⟨word ++ next, m⟩ =
      .ok ⟨text ++ gap.folded ++ word, false, ⟨next, m.afterAll word⟩⟩ := by
  -- a marker stands at the start of a line, and begins with a dash or a dot
  have hmarker : (⟨word ++ next, m⟩ : Cursor).atDocumentMarker = false := by
    rcases hm with hm | ⟨c, hc, hdash, hdot⟩
    · exact Cursor.atDocumentMarker_of_column hm
    · obtain ⟨word', rfl⟩ := List.head?_eq_some_iff.1 hc
      rw [Cursor.atDocumentMarker, Cursor.atTriple_of_head (by simpa using hdash),
        Cursor.atTriple_of_head (by simpa using hdot)]
      rfl
  have hsharp : (⟨word ++ next, m⟩ : Cursor).startsWith '#' = false :=
    startsWith_append_eq_false hne hhash
  have hbetween : next.takeWhile isGap = [] := takeWhile_eq_nil hnext
  rw [plainFrom]
  simp [hword, hmarker, hsharp, hne, isColonFault_false, Cursor.skip_append, hbetween]

/-- A plain scalar goes on with a word and what stands behind that. -/
theorem plainFrom_word (hm : m.column ≠ 0) (hne : word ≠ []) (hhash : word.head? ≠ some '#')
    (hword : plainWord false (word ++ (between ++ next)) = word) (hbetween : between ≠ [])
    (hgap : ∀ c ∈ between, isGap c = true) (htab : '\t' ∉ between)
    (hnext : ∀ c ∈ next.head?, isGap c = false) :
    plainFrom false indent start text gap ⟨word ++ (between ++ next), m⟩ =
      if (m.afterAll (word ++ between)).column < indent then
        .ok ⟨text ++ gap.folded ++ word, (Gap.ofChars between).spansLines,
          ⟨next, m.afterAll (word ++ between)⟩⟩
      else
        plainFrom false indent start (text ++ gap.folded ++ word) (Gap.ofChars between)
          ⟨next, m.afterAll (word ++ between)⟩ := by
  have hmarker : (⟨word ++ (between ++ next), m⟩ : Cursor).atDocumentMarker = false :=
    Cursor.atDocumentMarker_of_column hm
  have hsharp : (⟨word ++ (between ++ next), m⟩ : Cursor).startsWith '#' = false :=
    startsWith_append_eq_false hne hhash
  rw [plainFrom]
  simp [hword, hmarker, hsharp, hne, isColonFault_false, Cursor.skip_append,
    takeWhile_append_exact hgap hnext, hbetween, tabInIndentation?_eq_none _ _ _ htab]

end

/-! ## Whole scalars -/

/-- The words of a plain scalar are read up to the end of its line, if the next line stands to the
left of `indent` columns. -/
theorem plainFrom_eq {cs : List Char} (hcs : IsPlainRun cs) (hne : cs ≠ [])
    (hhead : cs.head? ≠ some ' ') (hlast : cs.getLast? ≠ some ' ') {k indent : Nat}
    (hk : k < indent) {content : List Char} (hcontent : IsContent content) {m : Mark}
    (hm : m.column ≠ 0) (hindent : indent ≤ m.column) (start : Mark) (text : List Char)
    (gap : Gap) :
    plainFrom false indent start text gap ⟨cs ++ '\n' :: (margin k ++ content), m⟩ =
      .ok ⟨text ++ gap.folded ++ cs, true, ⟨content, m.afterAll (cs ++ '\n' :: margin k)⟩⟩ := by
  -- by the number of characters: each word and the spaces after it are taken off
  induction hlen : cs.length using Nat.strongRecOn generalizing cs m text gap with
  | _ n ih =>
    rcases hcs.isWord_or_split hhead hlast with hword | ⟨word, spaces, more, rfl, hwordNe, hword,
      hspacesNe, hspaces, hmore, hmoreNe, hmoreHead⟩
    · have hend : plainWord false (cs ++ ('\n' :: margin k ++ content)) = cs :=
        (show IsPlainRun (cs ++ []) by rwa [List.append_nil]).plainWord hword
          (by simp [isGap, isBreak])
      -- the next line stands to the left, so the scalar ends with this word
      have hcolumn : (m.afterAll (cs ++ '\n' :: margin k)).column < indent := by
        simpa [Mark.column_after_break _ (c := '\n') rfl] using hk
      have hgap : ∀ c ∈ '\n' :: margin k, isGap c = true :=
        List.forall_mem_cons.2 ⟨rfl, fun c => isGap_of_mem_margin⟩
      have htab : '\t' ∉ '\n' :: margin k := by simp [margin]
      rw [← List.cons_append, plainFrom_word hm hne hcs.head_ne_hash hend (List.cons_ne_nil _ _)
        hgap htab hcontent.isGap_head, if_pos hcolumn]
      simp [Gap.ofChars, isBreak, Gap.spansLines]
    · have hgap : ∀ c ∈ spaces, isGap c = true := fun c hc => by rw [hspaces c hc]; rfl
      have hend :
          plainWord false (word ++ (spaces ++ (more ++ '\n' :: (margin k ++ content)))) = word := by
        rw [← List.append_assoc spaces]
        refine IsPlainRun.plainWord hcs hword fun c hc => ?_
        rw [List.append_assoc, List.head?_append_of_ne_nil _ hspacesNe] at hc
        exact hgap c (List.mem_of_mem_head? hc)
      have hhash : word.head? ≠ some '#' := by
        rw [← List.head?_append_of_ne_nil _ hwordNe]
        exact hcs.head_ne_hash
      have hnext : ∀ c ∈ (more ++ '\n' :: (margin k ++ content)).head?, isGap c = false := by
        rwa [List.head?_append_of_ne_nil _ hmoreNe]
      have hline : ∀ c ∈ word ++ spaces, isBreak c = false := fun c hc =>
        (hcs.char c (by rw [← List.append_assoc]; exact List.mem_append_left _ hc)).1
      -- the next word is on the same line, so the scalar goes on
      have hcolumn := m.column_afterAll_of_line hline
      have hinner : Gap.ofChars spaces = .inner spaces := by
        have hbreaks : spaces.filter isBreak = [] :=
          List.filter_eq_nil_iff.2 fun c hc => by simp [hspaces c hc, isBreak]
        rw [Gap.ofChars, hbreaks]
      have hshorter : more.length < n := by
        have := List.length_pos_iff.2 hwordNe
        simp only [List.length_append] at hlen
        omega
      have hmoreSpace : more.head? ≠ some ' ' := fun h => by cases hmoreHead ' ' h
      have hmoreLast : more.getLast? ≠ some ' ' := by
        rwa [← List.append_assoc, List.getLast?_append_of_ne_nil _ hmoreNe] at hlast
      rw [List.append_assoc, List.append_assoc, plainFrom_word hm hwordNe hhash hend hspacesNe hgap
          (fun h => by cases hspaces _ h) hnext, if_neg (by omega),
        ih _ hshorter hmore hmoreNe hmoreSpace hmoreLast (by omega) (by omega) _ _ rfl, hinner]
      simp [Gap.folded]

/-! ## Texts that fit -/

theorem isAnyBreak_of_isBreak {c : Char} (h : isBreak c = true) : isAnyBreak c = true := by
  rw [isAnyBreak, h]
  rfl

theorem isGap_of_not_blank {c : Char} (h : (isBlank c || isAnyBreak c) = false) :
    isGap c = false := by
  rw [Bool.or_eq_false_iff] at h
  cases hbreak : isBreak c with
  | false => rw [isGap, h.1, hbreak]; rfl
  | true => cases (isAnyBreak_of_isBreak hbreak).symm.trans h.2

theorem exists_of_not_all {o : Option Char} {p : Char → Bool} (h : o.all p = false) :
    ∃ c ∈ o, p c = false := by
  cases o with
  | none => cases h
  | some c => exact ⟨c, rfl, h⟩

/-- Wherever two characters of a text without inner indicators stand, the second is none. -/
theorem not_indicator_of_append {before : List Char} {c d : Char} {after : List Char}
    (h : hasInnerIndicator (before ++ c :: d :: after) = false) :
    (d = ':' → ∃ e ∈ after.head?, isGap e = false) ∧ (d = '#' → isGap c = false) := by
  induction before with
  | nil =>
    simp only [List.nil_append, hasInnerIndicator, Bool.or_eq_false_iff, Bool.and_eq_false_iff,
      decide_eq_false_iff_not] at h
    obtain ⟨⟨hcolon, hhash⟩, -⟩ := h
    constructor
    · intro hd
      obtain ⟨e, he, hblank⟩ := exists_of_not_all (hcolon.resolve_left (not_not_intro hd))
      exact ⟨e, he, isGap_of_not_blank hblank⟩
    · intro hd
      exact isGap_of_not_blank (Bool.or_eq_false_iff.2 (hhash.resolve_left (not_not_intro hd)))
  | cons b before ih =>
    refine ih ?_
    obtain ⟨b', rest, heq⟩ : ∃ b' rest, before ++ c :: d :: after = b' :: rest :=
      List.exists_cons_of_ne_nil (by simp)
    rw [List.cons_append, heq, hasInnerIndicator, Bool.or_eq_false_iff] at h
    rw [heq]
    exact h.2

/-- A text without a first indicator may begin with a colon if more of a word follows. -/
theorem exists_of_first_colon {after : List Char} (h : hasFirstIndicator (':' :: after) = false) :
    ∃ c ∈ after.head?, isGap c = false := by
  simp only [hasFirstIndicator, List.tail_cons, List.head?_cons, Bool.or_eq_false_iff] at h
  obtain ⟨-, -, hblank⟩ := h
  obtain ⟨c, hc, hblank⟩ := exists_of_not_all (by simpa using hblank)
  exact ⟨c, hc, isGap_of_not_blank hblank⟩

/-- Nothing but a plain scalar begins with a letter, a digit or an underscore. -/
theorem hasFirstIndicator_cons_eq_false {c : Char} (h : (c.isAlphanum || c = '_') = true)
    (cs : List Char) : hasFirstIndicator (c :: cs) = false := by
  have hne {d : Char} (hd : (d.isAlphanum || d = '_') = false) : c ≠ d := by
    rintro rfl
    cases h.symm.trans hd
  have hdashes : "---".toList.isPrefixOf (c :: cs) = false := by
    simp [List.isPrefixOf, (hne (d := '-') rfl).symm]
  have hdots : "...".toList.isPrefixOf (c :: cs) = false := by
    simp [List.isPrefixOf, (hne (d := '.') rfl).symm]
  rw [hasFirstIndicator, hdashes, hdots]
  simp [hne]

/-- What a text fits if it can be written plain. -/
structure FitsPlain (cs : List Char) : Prop where
  run : IsPlainRun cs
  ne_space_head : cs.head? ≠ some ' '
  ne_space_last : cs.getLast? ≠ some ' '
  printable : ∀ c ∈ cs, isPrintable c = true
  first : hasFirstIndicator cs = false

theorem fitsPlain_of_eq_true {cs : List Char} (h : fitsPlain cs = true) : FitsPlain cs := by
  simp only [fitsPlain, needsEscapes, Bool.and_eq_true, Bool.not_eq_true', Bool.or_eq_false_iff,
    List.any_eq_false, decide_eq_true_eq, Bool.not_eq_false, Bool.not_eq_true] at h
  obtain ⟨⟨⟨⟨⟨⟨hprintable, -⟩, hbreak⟩, hhead⟩, hlast⟩, hfirst⟩, hinner⟩ := h
  refine ⟨⟨fun c hc => ⟨?_, ?_⟩, ?_, ?_⟩, hhead, hlast, hprintable, hfirst⟩
  · exact Bool.eq_false_iff.2 fun h => by cases (hbreak c hc).symm.trans (isAnyBreak_of_isBreak h)
  · rintro rfl
    cases hprintable _ hc
  · rintro before after rfl
    rcases List.eq_nil_or_concat before with rfl | ⟨before, c, rfl⟩
    · exact exists_of_first_colon hfirst
    · simp only [List.concat_eq_append, List.append_assoc, List.singleton_append] at hinner
      exact (not_indicator_of_append hinner).1 rfl
  · rintro before after rfl
    rcases List.eq_nil_or_concat before with rfl | ⟨before, c, rfl⟩
    · simp [hasFirstIndicator] at hfirst
    · simp only [List.concat_eq_append, List.append_assoc, List.singleton_append] at hinner
      exact ⟨c, by simp, (not_indicator_of_append hinner).2 rfl⟩

/-- A text that fits a plain scalar is read back from one, if the next line stands to the left of
`indent` columns. -/
theorem readPlain_of_fitsPlain {cs : List Char} (h : FitsPlain cs) (hne : cs ≠ []) {k indent : Nat}
    (hk : k < indent) {content : List Char} (hcontent : IsContent content) {m : Mark}
    (hm : m.column ≠ 0) (hindent : indent ≤ m.column) :
    readPlain false indent ⟨cs ++ '\n' :: (margin k ++ content), m⟩ =
      .ok ⟨cs, true, ⟨content, m.afterAll (cs ++ '\n' :: margin k)⟩⟩ :=
  plainFrom_eq h.run hne h.ne_space_head h.ne_space_last hk hcontent hm hindent _ _ _

/-! ## Keys -/

/-- Letters and underscores. -/
def isKeyChar (c : Char) : Bool := c.isAlpha || c = '_'

/-- Whether a text can be a key. -/
structure IsKey (cs : List Char) : Prop where
  ne_nil : cs ≠ []
  char : ∀ c ∈ cs, isKeyChar c = true
  size_le : Utf8.size cs ≤ 1024

instance (cs : List Char) : Decidable (IsKey cs) :=
  decidable_of_iff (cs ≠ [] ∧ cs.all isKeyChar = true ∧ Utf8.size cs ≤ 1024)
    ⟨fun ⟨hne, hall, hsize⟩ => ⟨hne, List.all_eq_true.1 hall, hsize⟩,
      fun ⟨hne, hchar, hsize⟩ => ⟨hne, List.all_eq_true.2 hchar, hsize⟩⟩

theorem ne_of_isKeyChar {c d : Char} (hc : isKeyChar c = true) (hd : isKeyChar d = false) :
    c ≠ d := by
  rintro rfl
  cases hc.symm.trans hd

theorem isBreak_of_isKeyChar {c : Char} (h : isKeyChar c = true) : isBreak c = false := by
  simp [isBreak, ne_of_isKeyChar h (d := '\n') rfl, ne_of_isKeyChar h (d := '\u2028') rfl,
    ne_of_isKeyChar h (d := '\u2029') rfl]

theorem isGap_of_isKeyChar {c : Char} (h : isKeyChar c = true) : isGap c = false :=
  isGap_eq_false_iff.2
    ⟨ne_of_isKeyChar h rfl, ne_of_isKeyChar h rfl, isBreak_of_isKeyChar h⟩

theorem isAlphanum_of_isKeyChar {c : Char} (h : isKeyChar c = true) :
    (c.isAlphanum || c = '_') = true := by
  rw [isKeyChar, Bool.or_eq_true] at h
  rcases h with h | h <;> simp [Char.isAlphanum, h]

/-- A key is read up to the colon after it. -/
theorem readPlain_key {key : List Char} (hkey : IsKey key) (indent : Nat) {rest : List Char}
    (hrest : ∀ c ∈ rest.head?, isGap c = true) (m : Mark) :
    readPlain false indent ⟨key ++ ':' :: rest, m⟩ =
      .ok ⟨key, false, ⟨':' :: rest, m.afterAll key⟩⟩ := by
  have hfirst {c : Char} (hc : c ∈ key.head?) := hkey.char c (List.mem_of_mem_head? hc)
  have hmarker : m.column ≠ 0 ∨ ∃ c ∈ key.head?, c ≠ '-' ∧ c ≠ '.' := by
    obtain ⟨c, cs, rfl⟩ := List.exists_cons_of_ne_nil hkey.ne_nil
    exact .inr ⟨c, rfl, ne_of_isKeyChar (hfirst rfl) rfl, ne_of_isKeyChar (hfirst rfl) rfl⟩
  have hend : endsPlainWord false (':' :: rest) = true := by
    rw [endsPlainWord_cons]
    have hgap : rest.head?.all isGap = true := by
      cases rest with
      | nil => rfl
      | cons c rest => exact hrest c rfl
    simp [hgap]
  have hword : plainWord false (key ++ ':' :: rest) = key := by
    refine plainWord_append (fun c hc => isGap_of_isKeyChar (hkey.char c hc)) ?_ hend
    rintro before after rfl
    exact absurd rfl (ne_of_isKeyChar (hkey.char ':' (by simp)) rfl)
  exact plainFrom_lastWord hmarker hkey.ne_nil (fun h => ne_of_isKeyChar (hfirst h) rfl rfl) hword
    (by simp [isGap, isBlank, isBreak])

end InstallManifest.Yaml
