import InstallManifest.Proofs.Outcome
import InstallManifest.Proofs.Yaml.Plain

/-!
# Steps through a text

What one step reads where no brackets are open, and what it leaves: the kinds of the tokens so far
and the columns of the open blocks. Blocks to the right of the next line are closed only when that
line is read, so a state counts them as closed before.
-/

namespace InstallManifest.Yaml

open Block (margin)

/-! ## Between tokens -/

theorem skipByteOrderMark_of_head {c : Cursor} (h : c.rest.head? ≠ some '\ufeff') :
    Lexing.skipByteOrderMark c = c := by
  simp [Lexing.skipByteOrderMark, Cursor.startsWith, h]

theorem skipComment_of_head {c : Cursor} (h : c.rest.head? ≠ some '#') :
    Lexing.skipComment c = c := by
  simp [Lexing.skipComment, Cursor.startsWith, h]

/-- Spaces are skipped up to what begins with content. -/
theorem skipBetween_spaces (flow keyAllowed : Bool) (n : Nat) {content : List Char}
    (hcontent : IsContent content) (m : Mark) :
    Lexing.skipBetween flow keyAllowed ⟨margin n ++ content, m⟩ =
      (⟨content, m.afterAll (margin n)⟩, keyAllowed) := by
  have hmark : (margin n ++ content).head? ≠ some '\ufeff' := by
    intro h
    rw [List.head?_append] at h
    cases n with
    | zero => exact (hcontent _ h).2.2 rfl
    | succ n => cases h
  -- content is neither a space nor a tab, so the spaces end there
  have hskipped : ∀ c ∈ content.head?,
      (c = ' ' || ((flow || !keyAllowed) && c = '\t')) = false := fun c hc => by
    simp [hcontent.ne_space_head c hc, hcontent.ne_tab_head c hc]
  have hcomment : content.head? ≠ some '#' := fun h => (hcontent _ h).2.1 rfl
  rw [Lexing.skipBetween, skipByteOrderMark_of_head hmark,
    Cursor.skipWhile_append m (by simp [margin]) hskipped, skipComment_of_head hcomment]
  cases content with
  | nil => rfl
  | cons c content => simp [hcontent.isBreak_head c rfl]

/-- Where content begins nothing is skipped. -/
theorem skipBetween_content (flow keyAllowed : Bool) {content : List Char}
    (hcontent : IsContent content) (m : Mark) :
    Lexing.skipBetween flow keyAllowed ⟨content, m⟩ = (⟨content, m⟩, keyAllowed) :=
  skipBetween_spaces flow keyAllowed 0 hcontent m

/-- After the end of a line a key may begin. -/
theorem skipBetween_break (keyAllowed : Bool) (rest : List Char) (m : Mark) :
    Lexing.skipBetween false keyAllowed ⟨'\n' :: rest, m⟩ =
      Lexing.skipBetween false true ⟨rest, m.after '\n'⟩ := by
  have hskip : (⟨'\n' :: rest, m⟩ : Cursor).skipWhile
      (fun c => c = ' ' || ((false || !keyAllowed) && c = '\t')) = ⟨'\n' :: rest, m⟩ :=
    Cursor.skipWhile_of_head m (by simp)
  have hbreak : isBreak '\n' = true := rfl
  rw [Lexing.skipBetween, skipByteOrderMark_of_head (by simp), hskip, skipComment_of_head (by simp)]
  simp [hbreak]

namespace Lexing

variable {s s' : Lexing}

/-- The kinds of the tokens so far, in order. -/
def kinds (s : Lexing) : List TokenKind := s.tokens.reverse.map (·.kind)

/-- A step that takes something and does not end the text. -/
theorem tokensFrom_step (h : s.step = .ok s') (hend : s'.hasEnded = false)
    (hlt : s'.cursor.rest.length < s.cursor.rest.length) : tokensFrom s = tokensFrom s' := by
  rw [tokensFrom, h]
  simp [hend, hlt]

/-- Where no key may have begun, none is over. -/
theorem forgetOver_of_none (hkey : s.key = none) (houter : ∀ k ∈ s.outerKeys, k = none) :
    s.forgetOver = .ok s := by
  have hstarts : s.keyStarts = [] := by
    simpa [keyStarts, hkey, List.filterMap_eq_nil_iff] using houter
  -- each level has no key before and after
  have hkeys : s.outerKeys.map (·.filter fun k => !s.isOver k) = s.outerKeys := by
    refine (List.map_congr_left fun k hk => ?_).trans (List.map_id _)
    rw [houter k hk]
    rfl
  rw [forgetOver, hstarts]
  simp only [List.reverse_nil, List.find?_nil, hkey, hkeys]
  cases s
  simp_all

/-! ## States outside of brackets -/

/-- What is known of a state outside of brackets where no key has begun. -/
structure IsBetween (s : Lexing) (kinds : List TokenKind) (indents : List Nat) : Prop where
  kinds : s.kinds = kinds
  indents : s.indents = indents
  key : s.key = none
  outerKeys : s.outerKeys = []

/-- The four things that are known, as a conjunction. -/
theorem isBetween_iff {kinds : List TokenKind} {indents : List Nat} :
    s.IsBetween kinds indents ↔
      s.kinds = kinds ∧ s.indents = indents ∧ s.key = none ∧ s.outerKeys = [] :=
  ⟨fun h => ⟨h.kinds, h.indents, h.key, h.outerKeys⟩, fun h => ⟨h.1, h.2.1, h.2.2.1, h.2.2.2⟩⟩

namespace IsBetween

variable {kinds : List TokenKind} {indents : List Nat}

theorem inFlow (h : s.IsBetween kinds indents) : s.inFlow = false := by
  rw [Lexing.inFlow, h.outerKeys]
  rfl

theorem forgetOver (h : s.IsBetween kinds indents) : s.forgetOver = .ok s :=
  forgetOver_of_none h.key (by simp [h.outerKeys])

theorem forgetKey (h : s.IsBetween kinds indents) : s.forgetKey = .ok s := by
  rw [Lexing.forgetKey, h.key]

theorem moved (h : s.IsBetween kinds indents) (cursor : Cursor) (keyAllowed : Bool) :
    { s with cursor, keyAllowed }.IsBetween kinds indents :=
  ⟨h.kinds, h.indents, h.key, h.outerKeys⟩

theorem emit (h : s.IsBetween kinds indents) (kind : TokenKind) (start : Mark) :
    (s.emit kind start).IsBetween (kinds ++ [kind]) indents := by
  refine ⟨?_, h.indents, h.key, h.outerKeys⟩
  rw [← h.kinds]
  simp [Lexing.kinds, Lexing.emit]

/-- The blocks to the right of a column are closed. -/
theorem closeBlocks {inner : List Nat} {column : Nat} (h : s.IsBetween kinds (inner ++ indents))
    (hinner : ∀ i ∈ inner, column < i) (hindents : ∀ i ∈ indents.head?, i ≤ column) :
    (s.closeBlocks (some column)).IsBetween (kinds ++ inner.map fun _ => .blockEnd) indents := by
  -- the open blocks are listed from the innermost
  have hclosed : s.indents.takeWhile (fun i => !(some column).any (i ≤ ·)) = inner := by
    rw [h.indents]
    refine takeWhile_append_exact (fun i hi => ?_) fun i hi => ?_
    · simpa using hinner i hi
    · simpa using hindents i hi
  have hdrop : s.indents.drop inner.length = indents := by
    rw [h.indents]
    exact List.drop_left
  rw [Lexing.closeBlocks, if_neg (by simp [h.inFlow])]
  simp only [hclosed, hdrop]
  refine ⟨?_, rfl, h.key, h.outerKeys⟩
  rw [← h.kinds]
  simp [Lexing.kinds, List.map_const']

end IsBetween

@[simp] theorem cursor_closeBlocks (s : Lexing) (column : Option Nat) :
    (s.closeBlocks column).cursor = s.cursor := by
  unfold closeBlocks
  split <;> rfl

/-- Closing blocks does not allow a key. -/
@[simp] theorem keyAllowed_closeBlocks (s : Lexing) (column : Option Nat) :
    (s.closeBlocks column).keyAllowed = s.keyAllowed := by
  unfold closeBlocks
  split <;> rfl

/-- Reads the token that begins at the cursor. -/
def atNext (s : Lexing) : Except Fault Lexing :=
  match s.cursor.rest with
  | [] => s.atEnd
  | c :: _ => s.atChar c

/-- A step reads a token where it begins, after the blocks to the right have been closed. -/
theorem IsBetween.step_eq {kinds : List TokenKind} {inner indents : List Nat}
    (h : s.IsBetween kinds (inner ++ indents)) {content : List Char} {m : Mark} {keyAllowed : Bool}
    (hplace : skipBetween false s.keyAllowed s.cursor = (⟨content, m⟩, keyAllowed))
    (hinner : ∀ i ∈ inner, m.column < i) (hindents : ∀ i ∈ indents.head?, i ≤ m.column) :
    ∃ t : Lexing, t.cursor = ⟨content, m⟩ ∧ t.keyAllowed = keyAllowed ∧
      t.IsBetween (kinds ++ inner.map fun _ => .blockEnd) indents ∧
      s.step = t.atNext >>= Lexing.forgetOver := by
  have hmoved := h.moved ⟨content, m⟩ keyAllowed
  refine ⟨_, by simp, by simp, hmoved.closeBlocks hinner hindents, ?_⟩
  rw [step, h.inFlow, hplace]
  simp only [hmoved.forgetOver, ok_bind, cursor_closeBlocks, atNext]
  cases content <;> rfl

/-- Where the next token begins: at content in a column, where a key may begin. The blocks to the
right of it count as closed. -/
structure AtLine (s : Lexing) (kinds : List TokenKind) (indents : List Nat) (column : Nat)
    (content : List Char) : Prop where
  place : ∃ m : Mark, m.column = column ∧
    skipBetween false s.keyAllowed s.cursor = (⟨content, m⟩, true)
  blocks : ∃ inner kinds', s.IsBetween kinds' (inner ++ indents) ∧ (∀ i ∈ inner, column < i) ∧
    kinds' ++ inner.map (fun _ => .blockEnd) = kinds

/-- What comes between tokens only gets shorter. -/
theorem length_rest_skipBetween_le (flow keyAllowed : Bool) (c : Cursor) :
    (skipBetween flow keyAllowed c).1.rest.length ≤ c.rest.length := by
  have hnext (c : Cursor) (p : Char → Bool) :
      (skipComment ((skipByteOrderMark c).skipWhile p)).rest.length ≤ c.rest.length :=
    Nat.le_trans (length_rest_skipComment_le _)
      (Nat.le_trans (Cursor.length_rest_skipWhile_le ..) (length_rest_skipByteOrderMark_le c))
  -- line by line: spaces, a comment and the end of a line, which asks for another round
  fun_induction skipBetween flow keyAllowed c with
  | case1 => exact hnext ..
  | case2 keyAllowed c isSkipped next char rest hrest hbreak ih =>
    exact Nat.le_trans ih (Nat.le_trans (Cursor.length_rest_skip_le ..) (hnext ..))
  | case3 => exact hnext ..

/-- No block ends that does not begin to the right of the column. -/
theorem closeBlocks_of_le {column : Nat} (h : ∀ i ∈ s.indents.head?, i ≤ column) :
    s.closeBlocks (some column) = s := by
  have hclosed : s.indents.takeWhile (fun i => !(some column).any (i ≤ ·)) = [] :=
    takeWhile_eq_nil fun i hi => by simpa using h i hi
  unfold closeBlocks
  split
  · rfl
  · simp only [hclosed]
    rfl

/-! ## Which token begins -/

/-- A plain scalar begins with a character that begins nothing else. -/
theorem atChar_plain {c : Char} {cs tail : List Char} (hrest : s.cursor.rest = c :: (cs ++ tail))
    (hflow : s.inFlow = false) (hgap : isGap c = false)
    (hfirst : hasFirstIndicator (c :: cs) = false)
    (hmarker : s.cursor.mark.column ≠ 0 ∨ c ≠ '-' ∧ c ≠ '.') : s.atChar c = s.atPlain := by
  -- a marker stands at the start of a line, and begins with a dash or a dot
  have htriple : s.cursor.atTriple '-' = false ∧ s.cursor.atTriple '.' = false := by
    rcases hmarker with hcolumn | ⟨hdash, hdot⟩
    · exact ⟨Cursor.atTriple_of_column _ hcolumn, Cursor.atTriple_of_column _ hcolumn⟩
    · exact ⟨Cursor.atTriple_of_head (by simpa [hrest] using hdash),
        Cursor.atTriple_of_head (by simpa [hrest] using hdot)⟩
  simp only [hasFirstIndicator, Bool.or_eq_false_iff, List.head?_cons, decide_eq_false_iff_not,
    List.mem_cons, not_or, List.not_mem_nil, List.tail_cons] at hfirst
  obtain ⟨-, hne, hnext⟩ := hfirst
  -- a dash, a question mark or a colon only begins a text if no gap follows it
  have hword (hc : c = '-' ∨ c = '?' ∨ c = ':') : ∃ d ∈ cs.head?, isGap d = false := by
    obtain ⟨d, hd, hblank⟩ :=
      exists_of_not_all (by rcases hc with rfl | rfl | rfl <;> simpa using hnext)
    exact ⟨d, hd, isGap_of_not_blank hblank⟩
  have hafter (hc : c = '-' ∨ c = '?' ∨ c = ':') : s.cursor.gapAfter 1 = false := by
    obtain ⟨d, hd, hd'⟩ := hword hc
    obtain ⟨cs, rfl⟩ := List.head?_eq_some_iff.1 hd
    simp [Cursor.gapAfter, hrest, hd']
  -- so the character may begin a plain scalar
  have hstart : s.atPlainStart = true := by
    by_cases hc : c = '-' ∨ c = '?' ∨ c = ':'
    · obtain ⟨d, hd, hd'⟩ := hword hc
      obtain ⟨cs, rfl⟩ := List.head?_eq_some_iff.1 hd
      have hblank : isBlank d = false := (Bool.or_eq_false_iff.1 hd').1
      rcases hc with rfl | hc
      · simp [atPlainStart, hrest, hblank]
      · simp [atPlainStart, hrest, hflow, hc, hafter (.inr hc)]
    · rw [not_or, not_or] at hc
      simp [atPlainStart, hrest, isIndicator, hgap, hne, hc]
  rw [atChar]
  simp only [hne, htriple, hflow, hstart, decide_false, Bool.and_false, Bool.false_or,
    Bool.false_eq_true, if_false]
  by_cases hc : c = '-' ∨ c = '?' ∨ c = ':'
  · simp [hafter hc]
  · rw [not_or, not_or] at hc
    simp [hc]

/-- A colon with a gap after it begins a value. -/
theorem atChar_colon {rest : List Char} (hrest : s.cursor.rest = ':' :: rest)
    (hgap : ∀ c ∈ rest.head?, isGap c = true) : s.atChar ':' = s.atValue := by
  have hafter : s.cursor.gapAfter 1 = true := by
    cases rest with
    | nil => simp [Cursor.gapAfter, hrest]
    | cons c rest => simp [Cursor.gapAfter, hrest, hgap c rfl]
  simp [atChar, Cursor.atTriple_of_head, hrest, hafter]

/-- A plain scalar is put out with its text and its place, and whether a key may follow. -/
theorem atPlain_eq {t : Lexing} {scalar : PlainScalar} (hkeep : s.keepKey = .ok t)
    (hflow : t.inFlow = false)
    (hread : readPlain false ((t.indents.head?.map (· + 1)).getD 0) t.cursor = .ok scalar) :
    s.atPlain = .ok ({ t with cursor := scalar.next, keyAllowed := scalar.endsLine }.emit
      (.scalar (String.ofList scalar.text) .plain) t.cursor.mark) := by
  rw [atPlain, hkeep, ok_bind, hflow, hread]
  rfl

/-! ## A key and its colon -/

/-- The state after a key that may have begun at `start`. -/
def afterKey (s : Lexing) (key : List Char) (start : Mark) (cursor : Cursor) : Lexing :=
  { s with
    cursor
    keyAllowed := false
    key := some ⟨s.tokens.length, s.indents.head? = some start.column, start⟩
    tokens := ⟨.scalar (String.ofList key) .plain, start, cursor.mark⟩ :: s.tokens }

section

variable {kinds : List TokenKind} {indents : List Nat} {key rest : List Char} {m : Mark}

/-- A key is read as a plain scalar up to its colon, and kept in mind as a key that may have begun.
-/
theorem atNext_key (h : s.IsBetween kinds indents) (hkey : IsKey key)
    (hcursor : s.cursor = ⟨key ++ ':' :: rest, m⟩) (hallowed : s.keyAllowed = true)
    (hrest : ∀ c ∈ rest.head?, isGap c = true) :
    s.atNext = .ok (s.afterKey key m ⟨':' :: rest, m.afterAll key⟩) := by
  obtain ⟨c, cs, rfl⟩ := List.exists_cons_of_ne_nil hkey.ne_nil
  have hchar : isKeyChar c = true := hkey.char c List.mem_cons_self
  have hfirst : hasFirstIndicator (c :: cs) = false :=
    hasFirstIndicator_cons_eq_false (isAlphanum_of_isKeyChar hchar) cs
  have hplain : s.atChar c = s.atPlain :=
    atChar_plain (by rw [hcursor]; rfl) h.inFlow (isGap_of_isKeyChar hchar)
      hfirst (.inr ⟨ne_of_isKeyChar hchar rfl, ne_of_isKeyChar hchar rfl⟩)
  -- where it begins a key is allowed, and it is required if a block is open there
  have hkeep : s.keepKey =
      .ok { s with key := some ⟨s.tokens.length, s.indents.head? = some m.column, m⟩ } := by
    rw [keepKey, if_pos hallowed, h.forgetKey, ok_bind, h.inFlow, hcursor]
    simp [pure, Except.pure]
  have hread : readPlain false ((s.indents.head?.map (· + 1)).getD 0) s.cursor =
      .ok ⟨c :: cs, false, ⟨':' :: rest, m.afterAll (c :: cs)⟩⟩ := by
    rw [hcursor]
    exact readPlain_key hkey _ hrest m
  have hnext : s.atNext = s.atChar c := by
    rw [atNext, hcursor]
    rfl
  rw [hnext, hplain, atPlain_eq hkeep h.inFlow hread]
  simp [afterKey, emit, hcursor]

/-- A key is not over as long as its line goes on, since it is short. -/
theorem forgetOver_afterKey (rest : List Char) (houter : s.outerKeys = []) (hkey : IsKey key)
    (start : Mark) :
    (s.afterKey key start ⟨rest, start.afterAll key⟩).forgetOver =
      .ok (s.afterKey key start ⟨rest, start.afterAll key⟩) := by
  have hmark := start.afterAll_of_line fun c hc => isBreak_of_isKeyChar (hkey.char c hc)
  have hsize : ¬ 1024 < Utf8.size key := Nat.not_lt.2 hkey.size_le
  generalize hs : s.afterKey key start ⟨rest, start.afterAll key⟩ = s'
  have hkeep : s'.key = some ⟨s.tokens.length, s.indents.head? = some start.column, start⟩ := by
    rw [← hs]
    rfl
  -- it is over when its line ends or it is too long, and it is neither
  have hover : s'.isOver ⟨s.tokens.length, s.indents.head? = some start.column, start⟩ = false := by
    rw [← hs]
    simp [isOver, afterKey, hmark, maxKeyWidth, hsize]
  have houter' : s'.outerKeys = [] := by
    rw [← hs]
    exact houter
  have hstarts : s'.keyStarts =
      [⟨s.tokens.length, s.indents.head? = some start.column, start⟩] := by
    rw [keyStarts, hkeep, houter']
    rfl
  have hnone : s'.keyStarts.reverse.find? (fun k => s'.isOver k && k.required) = none := by
    rw [hstarts, List.reverse_singleton, List.find?_singleton, hover]
    rfl
  have hfilter : s'.key.filter (fun k => !s'.isOver k) = s'.key := by
    rw [hkeep, Option.filter_some, hover]
    rfl
  have hmap : s'.outerKeys.map (·.filter fun k => !s'.isOver k) = s'.outerKeys := by
    rw [houter']
    rfl
  rw [forgetOver, hnone]
  simp only [hfilter, hmap]

/-- At its colon a key goes before its tokens, together with the block that it may open. -/
theorem atValue_afterKey (key rest : List Char) (h : s.IsBetween kinds indents) (start : Mark)
    (hstart : ∀ i ∈ indents.head?, i ≤ start.column) (m : Mark) :
    ∃ t : Lexing, (s.afterKey key start ⟨':' :: rest, m⟩).atValue = .ok t ∧
      t.cursor = ⟨rest, m.after ':'⟩ ∧ t.keyAllowed = false ∧
      t.IsBetween
        (kinds ++ (if indents.head? = some start.column then [] else [.blockMappingStart]) ++
          [.key, .scalar (String.ofList key) .plain, .value])
        (if indents.head? = some start.column then indents else start.column :: indents) ∧
      t.hasEnded = false := by
  obtain ⟨rfl, rfl, hkey, houter⟩ := h
  -- a block is open at the column of the key, or one opens with it
  by_cases hhead : s.indents.head? = some start.column
  · refine ⟨_, rfl, ?_⟩
    simp [afterKey, openBlock, hhead, Lexing.take, Lexing.emit, inFlow, houter, isBetween_iff,
      Lexing.kinds, hasEnded]
  · have hopen : s.indents.head?.any (start.column ≤ ·) = false := by
      cases hindents : s.indents.head? with
      | none => rfl
      | some i =>
        have hle := hstart i hindents
        have hne : i ≠ start.column := fun heq => hhead (heq ▸ hindents)
        simp only [Option.any_some, decide_eq_false_iff_not]
        omega
    have hlater : s.tokens.length + 1 + 1 - s.tokens.length = 2 := by omega
    refine ⟨_, rfl, ?_⟩
    simp [afterKey, openBlock, hhead, hopen, hlater, Lexing.take, Lexing.emit, inFlow, houter,
      isBetween_iff, Lexing.kinds, hasEnded]

/-- The state after the colon of a key that began at `start`, whose block may open there. -/
theorem step_colon (h : s.IsBetween kinds indents) (hkey : IsKey key) (start : Mark)
    (hstart : ∀ i ∈ indents.head?, i ≤ start.column)
    (hrest : ∀ c ∈ rest.head?, isGap c = true) :
    ∃ t : Lexing, (s.afterKey key start ⟨':' :: rest, start.afterAll key⟩).step = .ok t ∧
      t.cursor = ⟨rest, (start.afterAll key).after ':'⟩ ∧ t.keyAllowed = false ∧
      t.IsBetween
        (kinds ++ (if indents.head? = some start.column then [] else [.blockMappingStart]) ++
          [.key, .scalar (String.ofList key) .plain, .value])
        (if indents.head? = some start.column then indents else start.column :: indents) ∧
      t.hasEnded = false := by
  have hmark := start.column_afterAll_of_line fun c hc => isBreak_of_isKeyChar (hkey.char c hc)
  have hcolon : IsContent (':' :: rest) := by
    rintro _ ⟨⟩
    exact ⟨rfl, by decide, by decide⟩
  have hforget := forgetOver_afterKey (':' :: rest) h.outerKeys hkey start
  generalize hs : s.afterKey key start ⟨':' :: rest, start.afterAll key⟩ = s' at *
  have hflow : s'.inFlow = false := by rw [← hs]; exact h.inFlow
  -- the key is behind all open blocks, and its colon is behind the key
  have hclose : s'.closeBlocks (some s'.cursor.mark.column) = s' := by
    refine closeBlocks_of_le fun i hi => ?_
    rw [← hs] at hi ⊢
    have hle := hstart i (h.indents ▸ hi)
    simp only [afterKey, hmark]
    omega
  have hchar : s'.atChar ':' = s'.atValue := atChar_colon (by rw [← hs]; rfl) hrest
  have hplace : skipBetween s'.inFlow s'.keyAllowed s'.cursor = (s'.cursor, s'.keyAllowed) := by
    rw [← hs]
    exact skipBetween_content _ _ hcolon _
  have hstep : s'.step = s'.atValue >>= Lexing.forgetOver := by
    rw [step, hplace]
    simp only [hforget, ok_bind, hclose]
    rw [← hchar, ← hs]
    rfl
  obtain ⟨t, hvalue, hcursor, hallowed, hbetween, hend⟩ :=
    atValue_afterKey key rest h start hstart (start.afterAll key)
  rw [hs] at hvalue
  refine ⟨t, ?_, hcursor, hallowed, hbetween, hend⟩
  rw [hstep, hvalue, ok_bind, hbetween.forgetOver]

end

/-- What is known of a state behind the colon of a key, on the line of the key. -/
structure InLine (s : Lexing) (kinds : List TokenKind) (indents : List Nat) (rest : List Char) :
    Prop where
  between : s.IsBetween kinds indents
  keyAllowed : s.keyAllowed = false
  rest : s.cursor.rest = rest
  column : ∀ i ∈ indents.head?, i < s.cursor.mark.column

/-- A key and its colon are read in two steps; a block opens at the key unless it is in one. -/
theorem AtLine.readKey {kinds : List TokenKind} {indents : List Nat} {key rest : List Char}
    {column : Nat} (h : s.AtLine kinds indents column (key ++ ':' :: rest)) (hkey : IsKey key)
    (hindents : ∀ i ∈ indents.head?, i ≤ column) (hrest : ∀ c ∈ rest.head?, isGap c = true) :
    ∃ t : Lexing, tokensFrom s = tokensFrom t ∧
      t.InLine
        (kinds ++ (if indents.head? = some column then [] else [.blockMappingStart]) ++
          [.key, .scalar (String.ofList key) .plain, .value])
        (if indents.head? = some column then indents else column :: indents) rest := by
  obtain ⟨⟨m, rfl, hplace⟩, inner, kinds, hbetween, hinner, rfl⟩ := h
  obtain ⟨t, hcursor, hallowed, ht, hstep⟩ := hbetween.step_eq hplace hinner hindents
  obtain ⟨u, hcolon, hcursor', hallowed', hu, hend⟩ := step_colon ht hkey m hindents hrest
  have hlength := length_rest_skipBetween_le false s.keyAllowed s.cursor
  rw [hplace] at hlength
  simp only [List.length_append, List.length_cons] at hlength
  -- one step reads the key, the other the colon
  have hfirst : s.step = .ok (t.afterKey key m ⟨':' :: rest, m.afterAll key⟩) := by
    rw [hstep, atNext_key ht hkey hcursor hallowed hrest, ok_bind,
      forgetOver_afterKey _ ht.outerKeys hkey]
  refine ⟨u, ?_, hu, hallowed', by rw [hcursor'], ?_⟩
  -- each of them leaves less of the text
  · have hpos := List.length_pos_iff.2 hkey.ne_nil
    rw [tokensFrom_step hfirst rfl, tokensFrom_step hcolon hend]
    · rw [hcursor']
      simp [afterKey]
    · simp only [afterKey, List.length_cons]
      omega
  -- behind the colon the column is to the right of the block of the key
  · have hline := m.column_afterAll_of_line fun c hc => isBreak_of_isKeyChar (hkey.char c hc)
    have hcolon : ((m.afterAll key).after ':').column = (m.afterAll key).column + 1 := rfl
    have hhead : ∀ i ∈ (if indents.head? = some m.column then indents
        else m.column :: indents).head?, i = m.column := by
      split
      · next heq =>
        rw [heq]
        rintro _ ⟨⟩
        rfl
      · rintro _ ⟨⟩
        rfl
    intro i hi
    rw [hhead i hi, hcursor']
    simp only [hcolon, hline]
    omega

/-- Behind a colon a step reads a token on the same line. -/
theorem InLine.step_eq {kinds : List TokenKind} {indents : List Nat} {content : List Char}
    (h : s.InLine kinds indents (' ' :: content)) (hcontent : IsContent content) :
    ∃ t : Lexing, t.InLine kinds indents content ∧ s.step = t.atNext >>= Lexing.forgetOver ∧
      content.length < s.cursor.rest.length := by
  have hcursor : s.cursor = ⟨margin 1 ++ content, s.cursor.mark⟩ := by
    rw [show margin 1 ++ content = s.cursor.rest from h.rest.symm]
  have hplace : skipBetween false s.keyAllowed s.cursor =
      (⟨content, s.cursor.mark.afterAll (margin 1)⟩, s.keyAllowed) := by
    rw [hcursor]
    exact skipBetween_spaces _ _ 1 hcontent _
  have hcolumn : ∀ i ∈ indents.head?, i < (s.cursor.mark.afterAll (margin 1)).column := by
    intro i hi
    have := h.column i hi
    rw [Mark.column_afterAll_margin]
    omega
  -- on the line of a key no block ends
  have hbetween : s.IsBetween kinds ([] ++ indents) := h.between
  obtain ⟨t, hcursor', hallowed, ht, hstep⟩ :=
    hbetween.step_eq hplace nofun fun i hi => Nat.le_of_lt (hcolumn i hi)
  refine ⟨t, ⟨by simpa using ht, hallowed.trans h.keyAllowed, by rw [hcursor'], ?_⟩, hstep, ?_⟩
  · rwa [hcursor']
  · rw [h.rest]
    exact Nat.lt_succ_self _

end Lexing

end InstallManifest.Yaml
