import InstallManifest.Proofs.Yaml.Scalars

/-!
# Tokens of written blocks

A block that was written is read as the tokens that its structure asks for, whatever the columns at
which it stands. A sequence within a mapping has no tokens for its start and end, since it stands at
the column of its key; a mapping has both, and its end comes to light with the next line.
-/

namespace InstallManifest.Yaml

open Block (margin writeItems writeEntries)

namespace Block

/-! ## What can be read back -/

mutual

/-- Whether all styles in a block fit their texts, all keys are words, and all items of sequences
and no others are mappings with entries. -/
inductive Legible : Block → Prop
  | scalar {style : ScalarStyle} {text : String} (fits : style.Fits text.toList) :
    Legible (scalar style text)
  | sequence {items : List Block} (legible : LegibleItems items) : Legible (sequence items)
  | mapping {first : String × Block} {entries : List (String × Block)}
    (legible : LegibleEntries (first :: entries)) : Legible (mapping (first :: entries))

inductive LegibleItems : List Block → Prop
  | nil : LegibleItems []
  | cons {entries : List (String × Block)} {items : List Block} (first : Legible (mapping entries))
    (rest : LegibleItems items) : LegibleItems (mapping entries :: items)

inductive LegibleEntries : List (String × Block) → Prop
  | nil : LegibleEntries []
  | cons {key : String} {value : Block} {entries : List (String × Block)}
    (isKey : IsKey key.toList) (legible : Legible value) (rest : LegibleEntries entries) :
    LegibleEntries ((key, value) :: entries)

end

/-- Any text can be read back from the style that suits it. -/
theorem legible_text (s : String) : (text s).Legible := .scalar (styleOf_fits s)

/-- Any text can be read back from quotes. -/
theorem legible_quoted (s : String) : (quoted s).Legible := .scalar (quotingStyle_fits _)

theorem legible_sequence {items : List Block}
    (h : ∀ item ∈ items, ∃ entries, item = mapping entries ∧ (mapping entries).Legible) :
    (sequence items).Legible := by
  refine .sequence ?_
  induction items with
  | nil => exact .nil
  | cons item items ih =>
    obtain ⟨⟨entries, rfl, hfirst⟩, hrest⟩ := List.forall_mem_cons.1 h
    exact .cons hfirst (ih hrest)

/-- Entries are legible one by one. -/
theorem LegibleEntries.append {before after : List (String × Block)} :
    LegibleEntries before → LegibleEntries after → LegibleEntries (before ++ after)
  | .nil, hafter => hafter
  | .cons hkey hvalue hrest, hafter => .cons hkey hvalue (hrest.append hafter)

/-- A mapping with entries can be read back if they can. -/
theorem LegibleEntries.legible_mapping {entries : List (String × Block)}
    (h : LegibleEntries entries) (hne : entries ≠ []) : (mapping entries).Legible := by
  obtain ⟨first, entries, rfl⟩ := List.exists_cons_of_ne_nil hne
  exact .mapping h

mutual

/-- The kinds of the tokens of a block after a key. -/
def kinds : Block → List TokenKind
  | scalar style text => [.scalar text style]
  | sequence [] => [.flowSequenceStart, .flowSequenceEnd]
  | sequence items => itemKinds items
  | mapping entries => .blockMappingStart :: (entryKinds entries ++ [.blockEnd])

/-- The kinds of the tokens of the items of a sequence. -/
def itemKinds : List Block → List TokenKind
  | [] => []
  | item :: items => .blockEntry :: (item.kinds ++ itemKinds items)

/-- The kinds of the tokens of the entries of a mapping. -/
def entryKinds : List (String × Block) → List TokenKind
  | [] => []
  | (key, value) :: entries =>
    .key :: .scalar key .plain :: .value :: (value.kinds ++ entryKinds entries)

end

end Block

namespace Lexing

variable {s t : Lexing} {kinds : List TokenKind} {indents outer : List Nat} {column : Nat}
  {rest : List Char}

/-- Whether reading comes to the lines in `rest`, of which the first stands at `column` or to the
left. -/
def Reaches (s : Lexing) (kinds : List TokenKind) (indents : List Nat) (column : Nat)
    (rest : List Char) : Prop :=
  ∀ k content, rest = margin k ++ content → k ≤ column → IsContent content →
    ∃ t : Lexing, tokensFrom s = tokensFrom t ∧ t.AtLine kinds indents k content

/-- What is reached from a later state is reached from an earlier one that goes there. -/
theorem Reaches.of_tokensFrom_eq (h : t.Reaches kinds indents column rest)
    (heq : tokensFrom s = tokensFrom t) : s.Reaches kinds indents column rest := by
  intro k content hrest hk hcontent
  obtain ⟨u, hu, hline⟩ := h k content hrest hk hcontent
  exact ⟨u, heq.trans hu, hline⟩

/-- A block ends before a line to the left of it. -/
theorem Reaches.close {c : Nat} (h : s.Reaches kinds (column :: indents) column rest)
    (hc : c < column) :
    s.Reaches (kinds ++ [.blockEnd]) indents c rest := by
  intro k content hrest hk hcontent
  obtain ⟨t, ht, hplace, inner, kinds', hbetween, hinner, rfl⟩ :=
    h k content hrest (by omega) hcontent
  -- the block is one more that is still open there and ends with the line
  refine ⟨t, ht, hplace, inner ++ [column], kinds', by simpa using hbetween, ?_, by simp⟩
  intro i hi
  rcases List.mem_append.1 hi with hi | hi
  · exact hinner i hi
  · rw [List.mem_singleton.1 hi]
    omega

/-- The end of a line. -/
theorem InLine.reaches (h : s.InLine kinds indents ('\n' :: rest)) :
    s.Reaches kinds indents column rest := by
  rintro k content rfl _ hcontent
  -- no step is needed: the break is passed over with what comes before the next token
  refine ⟨s, rfl, ?_, [], kinds, h.between, nofun, List.append_nil _⟩
  have hcursor : s.cursor = ⟨'\n' :: (margin k ++ content), s.cursor.mark⟩ := by rw [← h.rest]
  rw [hcursor]
  exact skipBetween_line _ k hcontent _

/-- What is known of a state within brackets that have just been opened after a key. -/
structure InBrackets (s : Lexing) (kinds : List TokenKind) (indents : List Nat) (rest : List Char) :
    Prop where
  rest : s.cursor.rest = rest
  column : ∀ i ∈ indents.head?, i < s.cursor.mark.column
  kinds : s.kinds = kinds
  indents : s.indents = indents
  key : s.key = none
  outerKeys : s.outerKeys = [none]

/-- An opening bracket after a key is one step, and the state is within brackets. -/
theorem InLine.openBrackets (h : s.InLine kinds (column :: outer) (' ' :: '[' :: rest)) :
    ∃ t : Lexing, tokensFrom s = tokensFrom t ∧
      t.InBrackets (kinds ++ [.flowSequenceStart]) (column :: outer) rest := by
  obtain ⟨t, ht, hstep, hlt⟩ := h.step_eq (isContent_cons rfl (by decide) (by decide))
  have hm : t.cursor.mark.column ≠ 0 := Nat.ne_zero_of_lt (ht.column column rfl)
  -- a bracket is not taken for a marker, and what it begins may be a key
  have hopening : t.atNext = t.atOpening .flowSequenceStart := by
    rw [atNext, ht.rest]
    simp [atChar, Cursor.atTriple_of_column _ hm]
  have hcursor : t.cursor = ⟨'[' :: rest, t.cursor.mark⟩ := by rw [← ht.rest]
  obtain ⟨u, hu⟩ : ∃ u, u = { t with
      cursor := ⟨rest, t.cursor.mark.after '['⟩, outerKeys := [none], keyAllowed := true }.emit
        .flowSequenceStart t.cursor.mark := ⟨_, rfl⟩
  have hread : t.atOpening .flowSequenceStart = .ok u := by
    have htake : t.cursor.skip 1 = ⟨rest, t.cursor.mark.after '['⟩ := by rw [hcursor]; rfl
    rw [atOpening, ht.keepKey, ok_bind, hu]
    simp [Lexing.take, htake, ht.between.key, ht.between.outerKeys, pure, Except.pure]
  -- a bracket opens a level for keys, but no block
  have hbrackets : u.InBrackets (kinds ++ [.flowSequenceStart]) (column :: outer) rest := by
    have hkinds := ht.between.kinds
    rw [Lexing.kinds] at hkinds
    subst hu
    refine ⟨rfl, fun i hi => Nat.lt_succ_of_lt (ht.column i hi), ?_, ht.between.indents,
      ht.between.key, rfl⟩
    simp [emit, Lexing.kinds, hkinds]
  have hforget : u.forgetOver = .ok u :=
    forgetOver_of_none hbrackets.key (by simp [hbrackets.outerKeys])
  rw [hopening, hread, ok_bind, hforget] at hstep
  refine ⟨u, tokensFrom_step hstep (by rw [hu]; rfl) ?_, hbrackets⟩
  rw [hbrackets.rest, h.rest]
  exact Nat.lt_succ_of_lt (Nat.lt_succ_self _)

/-- A closing bracket is one step, and the state is in the line again. -/
theorem InBrackets.close (h : s.InBrackets kinds indents (']' :: rest)) :
    ∃ t : Lexing, tokensFrom s = tokensFrom t ∧
      t.InLine (kinds ++ [.flowSequenceEnd]) indents rest := by
  have hcursor : s.cursor = ⟨']' :: rest, s.cursor.mark⟩ := by rw [← h.rest]
  have hflow : s.inFlow = true := by
    rw [Lexing.inFlow, h.outerKeys]
    rfl
  obtain ⟨t, ht⟩ : ∃ t, t = { s with
      cursor := ⟨rest, s.cursor.mark.after ']'⟩, outerKeys := [], keyAllowed := false }.emit
        .flowSequenceEnd s.cursor.mark := ⟨_, rfl⟩
  have hline : t.InLine (kinds ++ [.flowSequenceEnd]) indents rest := by
    have hkinds := h.kinds
    rw [Lexing.kinds] at hkinds
    subst ht
    refine ⟨⟨by simp [emit, Lexing.kinds, hkinds], h.indents, h.key, rfl⟩, rfl, rfl, ?_⟩
    exact fun i hi => Nat.lt_succ_of_lt (h.column i hi)
  have hclosing : s.atChar ']' = s.atClosing .flowSequenceEnd := by
    simp [atChar, Cursor.atTriple_of_head, h.rest]
  have hread : s.atClosing .flowSequenceEnd = .ok t := by
    have hforget : s.forgetKey = .ok s := by rw [forgetKey, h.key]
    have htake : s.cursor.skip 1 = ⟨rest, s.cursor.mark.after ']'⟩ := by rw [hcursor]; rfl
    rw [atClosing, hforget, ok_bind, h.outerKeys, ht]
    simp [Lexing.take, htake, h.key, pure, Except.pure]
  have hstep : s.step = .ok t := by
    have hplace : skipBetween s.inFlow s.keyAllowed s.cursor = (s.cursor, s.keyAllowed) := by
      rw [hcursor]
      exact skipBetween_content _ _ (isContent_cons rfl (by decide) (by decide)) _
    have hforget : s.forgetOver = .ok s := forgetOver_of_none h.key (by simp [h.outerKeys])
    -- within brackets the column ends no block
    have hclose : s.closeBlocks (some s.cursor.mark.column) = s := by
      rw [closeBlocks, if_pos hflow]
    rw [step, hplace]
    simp only [hforget, ok_bind, hclose, h.rest, hclosing, hread, hline.between.forgetOver]
  refine ⟨t, tokensFrom_step hstep (by rw [ht]; rfl) ?_, hline⟩
  rw [hline.rest, h.rest]
  exact Nat.lt_succ_self _

/-- Empty brackets are read in two steps, and the state is outside of them again. -/
theorem InLine.readBrackets
    (h : s.InLine kinds (column :: outer) (' ' :: '[' :: ']' :: '\n' :: rest)) :
    ∃ t : Lexing, tokensFrom s = tokensFrom t ∧
      t.InLine (kinds ++ [.flowSequenceStart, .flowSequenceEnd]) (column :: outer)
        ('\n' :: rest) := by
  obtain ⟨t, hst, ht⟩ := h.openBrackets
  obtain ⟨u, htu, hu⟩ := ht.close
  rw [List.append_assoc] at hu
  exact ⟨u, hst.trans htu, hu⟩

/-- The dash of an item, at the column of the block around the sequence. -/
theorem AtLine.readDash (h : s.AtLine kinds (column :: outer) column ('-' :: ' ' :: rest))
    (hrest : IsContent rest) :
    ∃ t : Lexing, tokensFrom s = tokensFrom t ∧
      t.AtLine (kinds ++ [.blockEntry]) (column :: outer) (column + indentStep) rest := by
  obtain ⟨⟨m, rfl, hplace⟩, inner, kinds, hbetween, hinner, rfl⟩ := h
  obtain ⟨t, hcursor, hallowed, ht, hstep⟩ :=
    hbetween.step_eq hplace hinner (by rintro _ ⟨⟩; exact Nat.le_refl _)
  have hlength := length_rest_skipBetween_le false s.keyAllowed s.cursor
  rw [hplace] at hlength
  -- a dash with a space after it is no marker
  have hentry : t.atNext = t.atEntry := by
    have hdash : t.cursor.atTriple '-' = false := by
      simp [Cursor.atTriple, hcursor, List.isPrefixOf]
    have hdot : t.cursor.atTriple '.' = false := Cursor.atTriple_of_head (by simp [hcursor])
    have hgap : t.cursor.gapAfter 1 = true := by simp [Cursor.gapAfter, hcursor, isGap, isBlank]
    rw [atNext, hcursor]
    simp [atChar, hdash, hdot, hgap]
  -- the block around is as far to the right as the dash, so none is opened
  have hopen : t.openBlockHere .blockSequenceStart = t := by
    have hhead : t.indents.head?.any (t.cursor.mark.column ≤ ·) = true := by
      rw [ht.indents, hcursor]
      simp
    rw [openBlockHere, openBlock, hhead, Bool.or_true, if_pos rfl]
  have hnext := (ht.moved ⟨' ' :: rest, m.after '-'⟩ true).emit .blockEntry m
  have hread : t.atEntry =
      .ok ({ t with
        cursor := ⟨' ' :: rest, m.after '-'⟩, keyAllowed := true }.emit .blockEntry m) := by
    rw [atEntry, if_neg (by simp [hallowed]), hopen, ht.forgetKey, ok_bind]
    simp [Lexing.take, hcursor, pure, Except.pure]
  rw [hentry, hread, ok_bind, hnext.forgetOver] at hstep
  refine ⟨_, tokensFrom_step hstep rfl ?_, ⟨(m.after '-').afterAll (margin 1), ?_, ?_⟩,
    [], _, hnext, List.forall_mem_nil _, List.append_nil _⟩
  · exact hlength
  · rw [Mark.column_afterAll_margin]
    rfl
  · exact skipBetween_spaces false true 1 hrest _

end Lexing

namespace Block

open Lexing

/-- Whether a value is read wherever it may be written. -/
def IsRead (b : Block) : Prop :=
  ∀ (s : Lexing) kinds column outer rest,
    s.InLine kinds (column :: outer) (b.write column ++ rest) →
      s.Reaches (kinds ++ b.kinds) (column :: outer) column rest

/-- Whether the items of a sequence are. -/
def ItemsAreRead (items : List Block) : Prop :=
  ∀ (s : Lexing) kinds column outer rest,
    s.Reaches kinds (column :: outer) column (writeItems column items ++ rest) →
      s.Reaches (kinds ++ itemKinds items) (column :: outer) column rest

/-- Whether the entries of an open mapping are. -/
def EntriesAreRead (entries : List (String × Block)) : Prop :=
  ∀ (s : Lexing) kinds column outer rest,
    s.Reaches kinds (column :: outer) column (writeEntries column false entries ++ rest) →
      s.Reaches (kinds ++ entryKinds entries) (column :: outer) column rest

/-- What comes after a colon. -/
theorem isGap_head_write (b : Block) (indent : Nat) (rest : List Char) :
    ∀ c ∈ (b.write indent ++ rest).head?, isGap c = true := by
  unfold write
  split <;> rintro _ ⟨⟩ <;> rfl

section

variable {s : Lexing} {kinds : List TokenKind} {indents outer : List Nat} {column : Nat}
  {key : String} {value : Block} {entries : List (String × Block)} {rest : List Char}

/-- An entry is its key, a colon and its value, and the other entries follow. -/
theorem writeEntries_cons (placed : Bool) : writeEntries column placed ((key, value) :: entries) =
    (if placed then [] else margin column) ++
      (key.toList ++ ':' :: (value.write column ++ writeEntries column false entries)) := by
  rw [writeEntries]
  simp

/-- A further entry of a mapping is read with those after it. -/
theorem readEntry
    (h : s.AtLine kinds (column :: outer) column
      (writeEntries column true ((key, value) :: entries) ++ rest))
    (hkey : IsKey key.toList) (hvalue : value.IsRead) (hentries : EntriesAreRead entries) :
    s.Reaches (kinds ++ entryKinds ((key, value) :: entries)) (column :: outer) column rest := by
  rw [writeEntries_cons, if_pos rfl, List.nil_append, List.append_assoc, List.cons_append,
    List.append_assoc] at h
  obtain ⟨t, heq, ht⟩ := h.readKey hkey (by rintro _ ⟨⟩; exact Nat.le_refl _)
    (isGap_head_write value column _)
  simp only [List.head?_cons, if_true, List.append_nil] at ht
  refine Reaches.of_tokensFrom_eq ?_ heq
  have hall := hentries _ _ _ _ _ (hvalue _ _ _ _ _ ht)
  simpa [entryKinds] using hall

/-- The first entry of a mapping opens it, and is read with those after it. -/
theorem readFirstEntry
    (h : s.AtLine kinds indents column (writeEntries column true ((key, value) :: entries) ++ rest))
    (hindents : ∀ i ∈ indents.head?, i < column) (hkey : IsKey key.toList) (hvalue : value.IsRead)
    (hentries : EntriesAreRead entries) :
    s.Reaches (kinds ++ .blockMappingStart :: entryKinds ((key, value) :: entries))
      (column :: indents) column rest := by
  rw [writeEntries_cons, if_pos rfl, List.nil_append, List.append_assoc, List.cons_append,
    List.append_assoc] at h
  obtain ⟨t, heq, ht⟩ := h.readKey hkey (fun i hi => Nat.le_of_lt (hindents i hi))
    (isGap_head_write value column _)
  -- no block at this column is open yet
  have hnot : indents.head? ≠ some column := fun hhead => Nat.lt_irrefl _ (hindents column hhead)
  simp only [hnot, if_false] at ht
  refine Reaches.of_tokensFrom_eq ?_ heq
  have hall := hentries _ _ _ _ _ (hvalue _ _ _ _ _ ht)
  simpa [entryKinds] using hall

/-- Entries begin with a key, and a key is content. -/
theorem isContent_writeEntries (hkey : IsKey key.toList) :
    IsContent (writeEntries column true ((key, value) :: entries) ++ rest) := by
  obtain ⟨c, cs, hcs⟩ := List.exists_cons_of_ne_nil hkey.ne_nil
  have hc : isKeyChar c = true := hkey.char c (by simp [hcs])
  rw [writeEntries_cons, if_pos rfl, hcs]
  exact isContent_cons (isGap_of_isKeyChar hc) (ne_of_isKeyChar hc rfl) (ne_of_isKeyChar hc rfl)

/-- Entries that are not placed yet are written behind a margin. -/
theorem writeEntries_false : writeEntries column false ((key, value) :: entries) =
    margin column ++ writeEntries column true ((key, value) :: entries) := by
  simp [writeEntries]

theorem isRead_scalar {style : ScalarStyle} {text : String} (hfits : style.Fits text.toList) :
    (scalar style text).IsRead := by
  rintro s kinds column outer rest h k content rfl hk hcontent
  rw [write, List.cons_append] at h
  obtain ⟨t, heq, ht⟩ := h.readScalar hfits hk hcontent
  rw [String.ofList_toList] at ht
  exact ⟨t, heq, ht⟩

theorem isRead_sequence_nil : (sequence []).IsRead := by
  intro s kinds column outer rest h
  obtain ⟨t, heq, ht⟩ := InLine.readBrackets h
  exact Reaches.of_tokensFrom_eq ht.reaches heq

/-- A sequence with items begins on the next line, at the column of the key. -/
theorem isRead_sequence_cons {item : Block} {items : List Block}
    (hitems : ItemsAreRead (item :: items)) : (sequence (item :: items)).IsRead := by
  intro s kinds column outer rest h
  exact hitems _ _ _ _ _ (InLine.reaches h)

/-- A mapping begins on the next line, further to the right, and ends with the first line that does
not. -/
theorem isRead_mapping (hkey : IsKey key.toList) (hvalue : value.IsRead)
    (hentries : EntriesAreRead entries) : (mapping ((key, value) :: entries)).IsRead := by
  intro s kinds column outer rest h
  rw [write, writeEntries_false, List.cons_append, List.append_assoc] at h
  obtain ⟨t, heq, ht⟩ := h.reaches _ _ rfl (Nat.le_refl _) (isContent_writeEntries hkey)
  have hcolumn : column < column + indentStep := Nat.lt_add_of_pos_right (by decide)
  -- the mapping is opened with its first key and closed by the line after its last entry
  have hfirst := readFirstEntry ht (by rintro _ ⟨⟩; exact hcolumn) hkey hvalue hentries
  have hclosed := (hfirst.of_tokensFrom_eq heq).close hcolumn
  rw [List.append_assoc] at hclosed
  exact hclosed

theorem itemsAreRead_nil : ItemsAreRead [] := by
  intro s kinds column outer rest h
  simpa [itemKinds, writeItems] using h

/-- An item begins on the line of its dash, behind it, and the others follow on lines of their own.
-/
theorem itemsAreRead_cons {items : List Block} (hkey : IsKey key.toList) (hvalue : value.IsRead)
    (hentries : EntriesAreRead entries) (hitems : ItemsAreRead items) :
    ItemsAreRead (mapping ((key, value) :: entries) :: items) := by
  intro s kinds column outer rest h
  have hwritten : writeItems column (mapping ((key, value) :: entries) :: items) ++ rest =
      margin column ++ ('-' :: ' ' ::
        (writeEntries (column + indentStep) true ((key, value) :: entries) ++
          (writeItems column items ++ rest))) := by
    simp [writeItems]
  rw [hwritten] at h
  -- to the dash, past it, and through the entries of the item
  obtain ⟨t, heq, ht⟩ := h _ _ rfl (Nat.le_refl _) (isContent_cons rfl (by decide) (by decide))
  obtain ⟨u, heq', hu⟩ := ht.readDash (isContent_writeEntries hkey)
  have hcolumn : column < column + indentStep := Nat.lt_add_of_pos_right (by decide)
  have hfirst := readFirstEntry hu (by rintro _ ⟨⟩; exact hcolumn) hkey hvalue hentries
  have hclosed := (hfirst.of_tokensFrom_eq (heq.trans heq')).close hcolumn
  have hall := hitems _ _ _ _ _ hclosed
  simpa [itemKinds, Block.kinds] using hall

theorem entriesAreRead_nil : EntriesAreRead [] := by
  intro s kinds column outer rest h
  simpa [entryKinds, writeEntries] using h

/-- A further entry begins on a line of its own. -/
theorem entriesAreRead_cons (hkey : IsKey key.toList) (hvalue : value.IsRead)
    (hentries : EntriesAreRead entries) : EntriesAreRead ((key, value) :: entries) := by
  intro s kinds column outer rest h
  rw [writeEntries_false, List.append_assoc] at h
  obtain ⟨t, heq, ht⟩ := h _ _ rfl (Nat.le_refl _) (isContent_writeEntries hkey)
  exact (readEntry ht hkey hvalue hentries).of_tokensFrom_eq heq

end

mutual

theorem Legible.isRead : {b : Block} → b.Legible → b.IsRead
  | _, .scalar hfits => isRead_scalar hfits
  | _, .sequence .nil => isRead_sequence_nil
  | _, .sequence (.cons hfirst hitems) =>
    isRead_sequence_cons (LegibleItems.areRead (.cons hfirst hitems))
  | _, .mapping (.cons hkey hvalue hentries) =>
    isRead_mapping hkey hvalue.isRead hentries.areRead

theorem LegibleItems.areRead : {items : List Block} → LegibleItems items → ItemsAreRead items
  | _, .nil => itemsAreRead_nil
  | _, .cons (.mapping (.cons hkey hvalue hentries)) hitems =>
    itemsAreRead_cons hkey hvalue.isRead hentries.areRead hitems.areRead

theorem LegibleEntries.areRead : {entries : List (String × Block)} → LegibleEntries entries →
    EntriesAreRead entries
  | _, .nil => entriesAreRead_nil
  | _, .cons hkey hvalue hentries => entriesAreRead_cons hkey hvalue.isRead hentries.areRead

end

/-! ## Whole documents -/

/-- At the end of the text the outermost block ends. -/
theorem tokensFrom_end {s : Lexing} {kinds : List TokenKind} (h : s.AtLine kinds [0] 0 []) :
    ∃ ts, tokensFrom s = ⟨ts, none⟩ ∧ ts.map (·.kind) = kinds ++ [.blockEnd, .streamEnd] := by
  obtain ⟨⟨m, hm, hplace⟩, inner, kinds, hbetween, hinner, rfl⟩ := h
  obtain ⟨t, hcursor, -, ht, hstep⟩ :=
    hbetween.step_eq hplace (by rwa [hm]) (by rintro _ ⟨⟩; exact Nat.zero_le _)
  obtain ⟨u, hend, hkey, houter, htokens⟩ : ∃ u, t.atEnd = .ok u ∧ u.key = none ∧ u.outerKeys = [] ∧
      u.tokens = ⟨.streamEnd, m, m⟩ :: ⟨.blockEnd, m, m⟩ :: t.tokens := by
    obtain ⟨-, hindents, hkey, houter⟩ := ht
    obtain ⟨cursor, tokens, indents, keyAllowed, key, outerKeys⟩ := t
    obtain ⟨line, column, width⟩ := m
    subst hindents hkey houter hcursor hm
    exact ⟨_, rfl, rfl, rfl, rfl⟩
  have hnext : t.atNext = .ok u := by
    rw [atNext, hcursor]
    exact hend
  have hforget : u.forgetOver = .ok u := forgetOver_of_none hkey (by simp [houter])
  rw [hnext, ok_bind, hforget] at hstep
  -- the end of the text is told, so no step follows
  have hended : u.hasEnded = true := by simp [hasEnded, htokens]
  refine ⟨u.tokens.reverse, ?_, ?_⟩
  · rw [tokensFrom, hstep]
    simp [hended]
  · have hkinds := ht.kinds
    rw [Lexing.kinds] at hkinds
    simp [htokens, hkinds]

/-- The entries of a document as tokens. -/
theorem tokensFrom_document {key : String} {value : Block} {entries : List (String × Block)}
    (h : LegibleEntries ((key, value) :: entries)) :
    ∃ ts,
      tokensFrom { cursor := ⟨writeEntries 0 false ((key, value) :: entries), {}⟩ } = ⟨ts, none⟩ ∧
      ts.map (·.kind) = .blockMappingStart ::
        (entryKinds ((key, value) :: entries) ++ [.blockEnd, .streamEnd]) := by
  cases h with
  | cons hkey hvalue hentries =>
    have hstart : Lexing.AtLine { cursor := ⟨writeEntries 0 false ((key, value) :: entries), {}⟩ }
        [] [] 0 (writeEntries 0 true ((key, value) :: entries) ++ []) := by
      refine ⟨⟨{}, rfl, ?_⟩, [], [], ⟨rfl, rfl, rfl, rfl⟩, nofun, rfl⟩
      rw [writeEntries_false, List.append_nil]
      refine skipBetween_content false true ?_ {}
      rw [← List.append_nil (writeEntries _ _ _)]
      exact isContent_writeEntries hkey
    obtain ⟨t, heq, ht⟩ := readFirstEntry hstart (by simp) hkey hvalue.isRead hentries.areRead 0 []
      rfl (Nat.le_refl _) isContent_nil
    obtain ⟨ts, hts, hkinds⟩ := tokensFrom_end ht
    exact ⟨ts, heq.trans hts, by simpa using hkinds⟩

end Block

end InstallManifest.Yaml
