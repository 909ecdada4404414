import InstallManifest.Proofs.Outcome
import InstallManifest.Proofs.Yaml.Cursor

/-!
# Literal blocks read back

A literal block is read line by line. Its text is made of the line breaks that it begins with, a
body that begins and ends with other characters, and the line breaks at the end; the header of the
block says as much of these as reading must know.
-/

namespace InstallManifest.Yaml

open Block (margin)

/-! ## Lines without content -/

/-- How many of the next spaces are indentation. -/
def indentation (indent : Nat) (c : Cursor) : Nat :=
  if indent = 0 then (c.rest.takeWhile (· = ' ')).length
  else min (c.rest.takeWhile (· = ' ')).length (indent - c.mark.column)

section

variable {start : Mark} {indent k : Nat} {breaks more content : List Char} {widest : Nat}
  {c : Cursor} {m : Mark}

/-- Empty lines end with a line that has content. -/
theorem readEmptyLines_of_content (hskip : c.skip (indentation indent c) = ⟨content, m⟩)
    (htab : indent = 0 ∨ m.column < indent → ∀ d ∈ content.head?, d ≠ '\t')
    (hbreak : ∀ d ∈ content.head?, isBreak d = false) :
    readEmptyLines start indent breaks widest c =
      .ok ⟨breaks, max widest m.column, ⟨content, m⟩⟩ := by
  unfold indentation at hskip
  have htab' : ((indent = 0 || m.column < indent) && (⟨content, m⟩ : Cursor).startsWith '\t')
      = false := by
    rw [Bool.and_eq_false_iff]
    by_cases h : indent = 0 ∨ m.column < indent
    · exact .inr (decide_eq_false fun hc => htab h _ hc rfl)
    · exact .inl (by simpa using h)
  rw [readEmptyLines, hskip, if_neg (by simp [htab'])]
  cases content with
  | nil => rfl
  | cons d rest => simp [hbreak d rfl]

/-- A break right after the indentation is one more empty line. -/
theorem readEmptyLines_of_break {d : Char}
    (hskip : c.skip (indentation indent c) = ⟨d :: content, m⟩)
    (hd : isBreak d = true) :
    readEmptyLines start indent breaks widest c =
      readEmptyLines start indent (breaks ++ [d]) (max widest m.column) ⟨content, m.after d⟩ := by
  unfold indentation at hskip
  have htab : (⟨d :: content, m⟩ : Cursor).startsWith '\t' = false := by
    refine decide_eq_false ?_
    rintro ⟨⟩
    cases hd
  rw [readEmptyLines, hskip, if_neg (by simp [htab])]
  simp [hd]

/-- Lines without content go up to a margin of as many columns as are looked at, or to one before
other characters. -/
theorem readEmptyLines_append (start : Mark) (breaks : List Char) (widest : Nat)
    (hm : m.column = 0) (hindent : indent ≠ 0) (hk : k ≤ indent)
    (hmore : ∀ c ∈ more, isBreak c = true) (hbreak : ∀ c ∈ content.head?, isBreak c = false)
    (hblank : k ≠ indent → ∀ c ∈ content.head?, isBlank c = false) :
    ∃ widest', readEmptyLines start indent breaks widest ⟨more ++ (margin k ++ content), m⟩ =
      .ok ⟨breaks ++ more, widest', ⟨content, m.afterAll (more ++ margin k)⟩⟩ := by
  induction more generalizing breaks widest m with
  | nil =>
    -- as many spaces as are looked for, or all that there are
    have hspaces : indentation indent ⟨margin k ++ content, m⟩ = (margin k).length := by
      rw [indentation, List.takeWhile_append_of_pos (by simp [margin]), List.length_append,
        length_margin, if_neg hindent, hm]
      by_cases h : k = indent
      · omega
      · have hnone : content.takeWhile (· = ' ') = [] := by
          cases content with
          | nil => rfl
          | cons c content =>
            have hc := hblank h c rfl
            simp only [isBlank, Bool.or_eq_false_iff, decide_eq_false_iff_not] at hc
            simp [hc.1]
        rw [hnone, List.length_nil]
        omega
    have hskip := Cursor.skip_append m (margin k) content
    rw [← hspaces] at hskip
    refine ⟨max widest (m.afterAll (margin k)).column, ?_⟩
    rw [List.nil_append, readEmptyLines_of_content hskip ?_ hbreak, List.append_nil]
    · rfl
    · rintro (h | h) c hc rfl
      · exact hindent h
      · rw [Mark.column_afterAll_margin, hm] at h
        cases hblank (by omega) '\t' hc
  | cons c more ih =>
    have hc := hmore c List.mem_cons_self
    -- :: a line that is a break has no indentation
    have hspaces : indentation indent ⟨c :: (more ++ (margin k ++ content)), m⟩ = 0 := by
      have hne : c ≠ ' ' := by
        rintro rfl
        cases hc
      simp [indentation, hne]
    have hskip : (⟨c :: (more ++ (margin k ++ content)), m⟩ : Cursor).skip
        (indentation indent ⟨c :: (more ++ (margin k ++ content)), m⟩) =
        ⟨c :: (more ++ (margin k ++ content)), m⟩ := by
      rw [hspaces]
      rfl
    obtain ⟨widest', hread⟩ := ih (breaks ++ [c]) (max widest m.column) (m.column_after_break hc)
      fun d hd => hmore d (List.mem_cons_of_mem _ hd)
    refine ⟨widest', ?_⟩
    rw [List.cons_append, readEmptyLines_of_break hskip hc, hread]
    simp

end

/-! ## Lines with content -/

/-- All that was read so far of a literal block. -/
def BlockText.all (b : BlockText) : List Char := b.text ++ (b.lastBreak ++ b.emptyBreaks)

theorem addLine_literal (b : BlockText) (line : List Char) :
    b.addLine true line = b.all ++ line := by
  simp [BlockText.addLine, BlockText.all]

section

variable {start : Mark} {indent k : Nat} {content : List Char} {m : Mark}

/-- A line is added together with the break that ends it and the empty lines after it. -/
theorem blockFrom_line {line breaks : List Char} {c : Char} (b : BlockText) (hm : m.column = indent)
    (hindent : indent ≠ 0) (hk : k ≤ indent) (hline : ∀ d ∈ line, isBreak d = false)
    (hc : isBreak c = true) (hbreaks : ∀ d ∈ breaks, isBreak d = true)
    (hbreak : ∀ d ∈ content.head?, isBreak d = false)
    (hblank : k ≠ indent → ∀ d ∈ content.head?, isBlank d = false) :
    ∃ blankStart,
      blockFrom true start indent b ⟨line ++ c :: (breaks ++ (margin k ++ content)), m⟩ =
      blockFrom true start indent ⟨b.all ++ line, [c], breaks, blankStart⟩
        ⟨content, m.afterAll (line ++ c :: (breaks ++ margin k))⟩ := by
  refine ⟨line.head?.any isBlank, ?_⟩
  have htake : (line ++ c :: (breaks ++ (margin k ++ content))).takeWhile (!isBreak ·) = line :=
    takeWhile_append_exact (fun d hd => by simp [hline d hd]) (by simpa using hc)
  obtain ⟨widest, hread⟩ := readEmptyLines_append start [] 0
    ((m.afterAll line).column_after_break hc) hindent hk hbreaks hbreak hblank
  rw [blockFrom, dif_neg (by simp [hm]), htake]
  dsimp only
  rw [Cursor.skip_append, Cursor.skip_one, hread]
  simp [addLine_literal]

/-- A literal block ends before a line that stands further to the left. -/
theorem blockFrom_of_column (b : BlockText) {c : Cursor} (h : c.mark.column ≠ indent) :
    blockFrom true start indent b c = .ok (b, c) := by
  rw [blockFrom, dif_pos (.inl h)]

end

/-! ## Written lines -/

section

variable {indent : Nat} {line breaks rest : List Char}

theorem literalFrom_line (hline : ∀ c ∈ line, isBreak c = false) :
    literalFrom indent false (line ++ rest) = line ++ literalFrom indent false rest := by
  induction line with
  | nil => rfl
  | cons c line ih =>
    rw [List.forall_mem_cons] at hline
    rw [List.cons_append, literalFrom, if_neg (by simp [hline.1]), ih hline.2]
    rfl

/-- Breaks are written as they are, without margins between them. -/
theorem literalFrom_breaks (hbreaks : ∀ c ∈ breaks, isBreak c = true) :
    literalFrom indent true (breaks ++ rest) = breaks ++ literalFrom indent true rest := by
  induction breaks with
  | nil => rfl
  | cons c breaks ih =>
    rw [List.forall_mem_cons] at hbreaks
    rw [List.cons_append, literalFrom, if_pos hbreaks.1, ih hbreaks.2, List.cons_append]

theorem literalFrom_break {c : Char} (afterBreak : Bool) (hc : isBreak c = true) :
    literalFrom indent afterBreak (c :: rest) = c :: literalFrom indent true rest := by
  rw [literalFrom, if_pos hc]

theorem literalFrom_true {c : Char} (hc : isBreak c = false) :
    literalFrom indent true (c :: rest) =
      margin indent ++ literalFrom indent false (c :: rest) := by
  simp [literalFrom, hc, margin]

end

/-- Behind breaks and a margin the column is the width of the margin. -/
theorem column_afterAll_breaks {breaks : List Char} (hbreaks : ∀ d ∈ breaks, isBreak d = true)
    {m : Mark} (hm : m.column = 0) (n : Nat) : (m.afterAll (breaks ++ margin n)).column = n := by
  induction breaks generalizing m with
  | nil => simp [hm]
  | cons d breaks ih =>
    rw [List.forall_mem_cons] at hbreaks
    exact ih hbreaks.2 (m.column_after_break hbreaks.1)

/-- Behind lines there is nothing but the margin of the next. -/
theorem column_afterAll_lines (m : Mark) {line breaks : List Char} {c : Char} {n : Nat}
    (hc : isBreak c = true) (hbreaks : ∀ d ∈ breaks, isBreak d = true) :
    (m.afterAll (line ++ c :: (breaks ++ margin n))).column = n := by
  rw [Mark.afterAll_append, Mark.afterAll_cons]
  exact column_afterAll_breaks hbreaks (Mark.column_after_break _ hc) n

/-- A text that does not end with a line break is one line, or a line with the breaks after it and
another such text. -/
theorem isLine_or_split {cs : List Char} (hlast : ∀ c ∈ cs.getLast?, isBreak c = false) :
    (∀ c ∈ cs, isBreak c = false) ∨
      ∃ line d more e rest, cs = line ++ d :: (more ++ e :: rest) ∧
        (∀ c ∈ line, isBreak c = false) ∧ isBreak d = true ∧ (∀ c ∈ more, isBreak c = true) ∧
        isBreak e = false ∧ ∀ c ∈ (e :: rest).getLast?, isBreak c = false := by
  obtain ⟨line, rest, rfl, hline, hrest⟩ := exists_run (!isBreak ·) cs
  simp only [Bool.not_eq_true', Bool.not_eq_false'] at hline hrest
  cases rest with
  | nil =>
    rw [List.append_nil]
    exact .inl hline
  | cons d rest =>
    have hd := hrest d rfl
    obtain ⟨more, rest, rfl, hmore, hstop⟩ := exists_run isBreak rest
    cases rest with
    | nil =>
      -- :: there is more after the breaks, since the text does not end with one
      have hall : ∀ e ∈ d :: more, isBreak e = true := List.forall_mem_cons.2 ⟨hd, hmore⟩
      have hend := List.getLast?_eq_some_getLast (List.cons_ne_nil d more)
      rw [List.append_nil, List.getLast?_append_of_ne_nil _ (List.cons_ne_nil _ _)] at hlast
      cases (hlast _ hend).symm.trans (hall _ (List.mem_of_getLast? hend))
    | cons e rest =>
      rw [← List.cons_append, ← List.append_assoc,
        List.getLast?_append_of_ne_nil _ (List.cons_ne_nil _ _)] at hlast
      exact .inr ⟨line, d, more, e, rest, rfl, hline, hd, hmore, hstop e rfl, hlast⟩

/-- The lines of a literal block from the first with content on, up to the empty lines at the
end. -/
theorem blockFrom_body {start : Mark} {indent k : Nat} {content body breaks : List Char} {c : Char}
    (hindent : indent ≠ 0) (hk : k < indent) (hlast : ∀ d ∈ body.getLast?, isBreak d = false)
    (hc : isBreak c = true) (hbreaks : ∀ d ∈ breaks, isBreak d = true)
    (hcontent : ∀ d ∈ content.head?, isGap d = false) (b : BlockText) {m : Mark}
    (hm : m.column = indent) :
    ∃ blankStart, blockFrom true start indent b
        ⟨literalFrom indent false body ++ c :: (breaks ++ (margin k ++ content)), m⟩ =
      .ok (⟨b.all ++ body, [c], breaks, blankStart⟩,
        ⟨content, m.afterAll (literalFrom indent false body ++ c :: (breaks ++ margin k))⟩) := by
  have hbreak : ∀ d ∈ content.head?, isBreak d = false := fun d hd =>
    (Bool.or_eq_false_iff.1 (hcontent d hd)).2
  have hblank : ∀ d ∈ content.head?, isBlank d = false := fun d hd =>
    (Bool.or_eq_false_iff.1 (hcontent d hd)).1
  -- by the number of characters: each line and the breaks after it are taken off
  induction hlen : body.length using Nat.strongRecOn generalizing body b m with
  | _ n ih =>
    rcases isLine_or_split hlast with hline | ⟨line, d, more, e, body, rfl, hline, hd, hmore, he,
      hbodyLast⟩
    · obtain ⟨blankStart, hread⟩ := blockFrom_line b hm hindent (Nat.le_of_lt hk)
        hline hc hbreaks hbreak fun _ => hblank
      -- the next line stands further to the left, so the block ends
      have hcolumn : (m.afterAll (body ++ c :: (breaks ++ margin k))).column ≠ indent := by
        rw [column_afterAll_lines _ hc hbreaks]
        omega
      have hwritten : literalFrom indent false body = body := by
        rw [← List.append_nil body, literalFrom_line hline, literalFrom]
      refine ⟨blankStart, ?_⟩
      rw [hwritten, hread, blockFrom_of_column _ hcolumn]
    · have hcolumn : (m.afterAll (line ++ d :: (more ++ margin indent))).column = indent :=
        column_afterAll_lines _ hd hmore
      have hshorter : (e :: body).length < n := by
        simp only [List.length_append, List.length_cons] at hlen ⊢
        omega
      -- the line after the breaks is another line of the block
      have hnext : ∀ f ∈ (literalFrom indent false (e :: body) ++
          c :: (breaks ++ (margin k ++ content))).head?, isBreak f = false := by
        simp [literalFrom, he]
      obtain ⟨blankStart, hread⟩ :=
        blockFrom_line b hm hindent (Nat.le_refl _) hline hd hmore hnext (absurd rfl)
      obtain ⟨blankStart', hread'⟩ := ih _ hshorter hbodyLast
        ⟨b.all ++ line, [d], more, blankStart⟩ hcolumn rfl
      have hwritten : literalFrom indent false (line ++ d :: (more ++ e :: body)) =
          line ++ d :: (more ++ (margin indent ++ literalFrom indent false (e :: body))) := by
        rw [literalFrom_line hline, literalFrom_break _ hd, literalFrom_breaks hmore,
          literalFrom_true he]
      have hboth := hread.trans hread'
      simp only [BlockText.all] at hboth
      exact ⟨blankStart', by simpa [hwritten, BlockText.all] using hboth⟩

/-! ## Headers -/

/-- Whether the header of a literal block gives the indentation. -/
def givesIndentation (cs : List Char) : Bool := cs.head?.any fun c => c = ' ' || isBreak c

/-- What a literal block does with the line breaks at the end of a text. -/
def Chomping.ofText (cs : List Char) : Chomping :=
  if !cs.getLast?.any isBreak then strip
  else if cs.dropLast.getLast?.all isBreak then keep
  else clip

/-- How a header tells it. -/
def Chomping.toChars : Chomping → List Char
  | strip => ['-']
  | clip => []
  | keep => ['+']

/-- The header that is written tells the indentation and the chomping. -/
theorem literalHeader_eq (cs : List Char) :
    literalHeader cs =
      '|' :: ((if givesIndentation cs then ['2'] else []) ++ (Chomping.ofText cs).toChars) := by
  have hdigits : Nat.toDigits 10 indentStep = ['2'] := rfl
  rw [literalHeader, Chomping.ofText, hdigits, List.cons_append]
  congr 2
  split
  · rfl
  · split <;> rfl

/-- A header is read as it is written. -/
theorem readHeader_eq (start : Mark) (given : Bool) (chomping : Chomping) (rest : List Char)
    (m : Mark) :
    readHeader start ⟨(if given then ['2'] else []) ++ chomping.toChars ++ '\n' :: rest, m⟩ =
      .ok (⟨chomping, if given then some 2 else none⟩,
        ⟨'\n' :: rest, m.afterAll ((if given then ['2'] else []) ++ chomping.toChars)⟩) := by
  cases given <;> cases chomping <;> rfl

/-- What is left of the line of a header that has ended. -/
theorem skipLineRest_break (context : Context) (start : Mark) (rest : List Char) (m : Mark) :
    skipLineRest context start ⟨'\n' :: rest, m⟩ = .ok ⟨rest, m.after '\n'⟩ := by
  have hskip : (⟨'\n' :: rest, m⟩ : Cursor).skipWhile isBlank = ⟨'\n' :: rest, m⟩ :=
    Cursor.skipWhile_of_head m (by simp [isBlank])
  simp [skipLineRest, hskip, Cursor.startsWith, Cursor.atLineEnd, isBreak]

/-! ## The breaks at the end -/

/-- Without a break at its end a text is stripped of the one that is written. -/
theorem chomping_eq_strip {cs : List Char} (hne : cs ≠ [])
    (hlast : ∀ c ∈ cs.getLast?, isBreak c = false) : Chomping.ofText cs = .strip := by
  have hbreak := hlast _ (List.getLast?_eq_some_getLast hne)
  rw [Chomping.ofText, List.getLast?_eq_some_getLast hne]
  simp [hbreak]

/-- With a break at its end a text keeps all of them, or just that one. -/
theorem chomping_of_break {cs : List Char} {c : Char} (hc : isBreak c = true) :
    Chomping.ofText (cs ++ [c]) = if cs.getLast?.all isBreak then .keep else .clip := by
  simp [Chomping.ofText, hc]

theorem all_getLast? {p : Char → Bool} {cs : List Char} (h : ∀ c ∈ cs, p c = true) :
    cs.getLast?.all p = true :=
  (Option.all_eq_true _ _).2 fun c hc => h c (List.mem_of_getLast? hc)

/-- A text of line breaks keeps all of them. -/
theorem chomped_breaks {breaks : List Char} (hne : breaks ≠ [])
    (hbreaks : ∀ c ∈ breaks, isBreak c = true) :
    BlockText.chomped { emptyBreaks := breaks } (.ofText breaks) = breaks := by
  have hkeep : Chomping.ofText breaks = .keep := by
    rcases List.eq_nil_or_concat breaks with rfl | ⟨init, c, rfl⟩
    · exact absurd rfl hne
    · rw [List.concat_eq_append, List.forall_mem_append, List.forall_mem_singleton] at hbreaks
      rw [List.concat_eq_append, chomping_of_break hbreaks.2, if_pos (all_getLast? hbreaks.1)]
  rw [hkeep]
  rfl

/-- A text with a body keeps as many breaks at its end as it has. -/
theorem chomped_body {text trail breaks : List Char} {c : Char} {blankStart : Bool}
    (hne : text ≠ [])
    (hlast : ∀ d ∈ text.getLast?, isBreak d = false) (htrail : ∀ d ∈ trail, isBreak d = true)
    (hbreaks : c :: breaks = if trail = [] then ['\n'] else trail) :
    BlockText.chomped ⟨text, [c], breaks, blankStart⟩ (.ofText (text ++ trail)) =
      text ++ trail := by
  cases trail with
  | nil =>
    rw [List.append_nil, chomping_eq_strip hne hlast]
    rfl
  | cons d trail =>
    obtain ⟨rfl, rfl⟩ := List.cons.inj hbreaks
    rw [List.forall_mem_cons] at htrail
    rcases List.eq_nil_or_concat breaks with rfl | ⟨init, e, rfl⟩
    -- one break after the body
    · have hclip : text.getLast?.all isBreak = false := by
        have hend := List.getLast?_eq_some_getLast hne
        rw [hend]
        exact hlast _ hend
      rw [chomping_of_break htrail.1, hclip]
      rfl
    · simp only [List.concat_eq_append, List.forall_mem_append,
        List.forall_mem_singleton] at htrail ⊢
      -- :: several breaks after the body
      have hkeep : (text ++ c :: init).getLast?.all isBreak = true := by
        rw [List.getLast?_append_of_ne_nil _ (List.cons_ne_nil _ _)]
        exact all_getLast? (List.forall_mem_cons.2 ⟨htrail.1, htrail.2.1⟩)
      have hsplit : text ++ c :: (init ++ [e]) = text ++ c :: init ++ [e] := by simp
      rw [hsplit, chomping_of_break htrail.2.2, hkeep]
      simp [BlockText.chomped]

/-! ## Whole blocks -/

/-- The end of the line that a literal block would leave open. -/
def lastLineEnd (cs : List Char) : List Char := if cs.getLast?.any isBreak then [] else ['\n']

/-- The body ends the last line unless breaks follow it. -/
theorem lastLineEnd_append {lead body trail : List Char} (hne : body ≠ [])
    (hlast : ∀ c ∈ body.getLast?, isBreak c = false) (htrail : ∀ c ∈ trail, isBreak c = true) :
    lastLineEnd (lead ++ (body ++ trail)) = if trail = [] then ['\n'] else [] := by
  have hend := List.getLast?_eq_some_getLast hne
  by_cases h : trail = []
  · rw [h, lastLineEnd, List.append_nil, List.getLast?_append_of_ne_nil _ hne, hend]
    simp [hlast _ hend]
  · have htrailEnd := List.getLast?_eq_some_getLast h
    rw [lastLineEnd, ← List.append_assoc, List.getLast?_append_of_ne_nil _ h, htrailEnd]
    simp [htrail _ (List.mem_of_getLast? htrailEnd), h]

/-- How the indentation of a literal block is found: by its header, or by the first line. -/
def givenIndent (column : Nat) (cs : List Char) : Nat :=
  if givesIndentation cs then column + indentStep else 0

/-- Reading a literal block is reading the empty lines before it and its lines. -/
theorem readBlock_eq {cs rest lead text : List Char} {column widest : Nat} {m : Mark}
    {c next : Cursor}
    {b : BlockText}
    (hlines : readEmptyLines m (givenIndent column cs) [] 0
      ⟨rest, (m.afterAll (literalHeader cs)).after '\n'⟩ = .ok ⟨lead, widest, c⟩)
    (hindent : givenIndent column cs = 0 → max widest (column + 1) = column + indentStep)
    (hblock : blockFrom true m (column + indentStep) { emptyBreaks := lead } c = .ok (b, next))
    (htext : b.chomped (.ofText cs) = text) :
    readBlock true (some column) ⟨literalHeader cs ++ '\n' :: rest, m⟩ = .ok (text, next) := by
  have hgiven : ((if givesIndentation cs then some 2 else none).map
      ((some column).getD 0 + ·)).getD 0 = givenIndent column cs := by
    rw [givenIndent]
    split <;> rfl
  rw [literalHeader_eq, Mark.afterAll_cons] at hlines
  rw [literalHeader_eq, readBlock, List.cons_append, Cursor.skip_one, readHeader_eq, ok_bind]
  dsimp only
  rw [skipLineRest_break, ok_bind, hgiven, hlines, ok_bind]
  -- given by the header, or as wide as the first line is
  have hcolumn : (if givenIndent column cs = 0 then max widest (column + 1)
      else givenIndent column cs) = column + indentStep := by
    split
    · next h => exact hindent h
    · next h =>
      rw [givenIndent] at h ⊢
      exact if_pos (by_contra fun hnot => h (if_neg hnot))
  simp only [Option.map_some, Option.getD_some, hcolumn, hblock, ok_bind, htext]
  rfl

/-- The line breaks at the end of a text are written as they are. -/
theorem literalFrom_append {indent : Nat} {body trail : List Char} (afterBreak : Bool)
    (htrail : ∀ c ∈ trail, isBreak c = true) :
    literalFrom indent afterBreak (body ++ trail) =
      literalFrom indent afterBreak body ++ trail := by
  induction body generalizing afterBreak with
  | nil =>
    cases trail with
    | nil => rfl
    | cons c trail =>
      rw [List.forall_mem_cons] at htrail
      have h : literalFrom indent true (trail ++ []) = trail ++ [] := literalFrom_breaks htrail.2
      rw [List.append_nil] at h
      rw [List.nil_append, literalFrom_break _ htrail.1, h]
      rfl
  | cons c body ih =>
    rw [List.cons_append, literalFrom, literalFrom]
    split <;> simp [ih]

section

variable {column k : Nat} {content : List Char} (m : Mark)

theorem indentStep_ne_zero : column + indentStep ≠ 0 := Nat.succ_ne_zero _

/-- A literal block of nothing but line breaks is read back. -/
theorem readBlock_breaks {breaks : List Char} (hne : breaks ≠ [])
    (hbreaks : ∀ c ∈ breaks, isBreak c = true) (hk : k ≤ column) (hcontent : IsContent content) :
    ∃ m' : Mark, m'.column = k ∧
      readBlock true (some column)
        ⟨literalHeader breaks ++ '\n' :: (breaks ++ (margin k ++ content)), m⟩ =
        .ok (breaks, ⟨content, m'⟩) := by
  have hgives : givesIndentation breaks = true := by
    obtain ⟨c, breaks, rfl⟩ := List.exists_cons_of_ne_nil hne
    simp [givesIndentation, hbreaks c List.mem_cons_self]
  have hgiven : givenIndent column breaks = column + indentStep := if_pos hgives
  have hstart : ((m.afterAll (literalHeader breaks)).after '\n').column = 0 :=
    Mark.column_after_break _ rfl
  obtain ⟨widest, hlines⟩ := readEmptyLines_append m [] 0 hstart indentStep_ne_zero
    (Nat.le_add_right_of_le hk) hbreaks hcontent.isBreak_head
    fun _ c hc => (Bool.or_eq_false_iff.1 (hcontent.isGap_head c hc)).1
  have hcolumn := column_afterAll_breaks hbreaks hstart k
  rw [List.nil_append, ← hgiven] at hlines
  refine ⟨_, hcolumn, readBlock_eq hlines (fun h => absurd (hgiven.symm.trans h) indentStep_ne_zero)
    (blockFrom_of_column _ ?_) (chomped_breaks hne hbreaks)⟩
  rw [hcolumn, indentStep]
  omega

/-- The empty lines before the body of a literal block, and the margin of its first line. -/
theorem readEmptyLines_lead {lead body trail rest : List Char} (start : Mark) {m : Mark}
    (hm : m.column = 0) (hlead : ∀ c ∈ lead, isBreak c = true) (hne : body ≠ [])
    (hhead : ∀ c ∈ body.head?, isBreak c = false)
    (htab : (lead ++ (body ++ trail)).head? ≠ some '\t') (hrest : rest.head? = body.head?) :
    ∃ widest,
      (givenIndent column (lead ++ (body ++ trail)) = 0 →
        max widest (column + 1) = column + indentStep) ∧
      readEmptyLines start (givenIndent column (lead ++ (body ++ trail))) [] 0
          ⟨lead ++ (margin (column + indentStep) ++ rest), m⟩ =
        .ok ⟨lead, widest, ⟨rest, m.afterAll (lead ++ margin (column + indentStep))⟩⟩ := by
  by_cases hgives : givesIndentation (lead ++ (body ++ trail)) = true
  · have hgiven : givenIndent column (lead ++ (body ++ trail)) = column + indentStep :=
      if_pos hgives
    obtain ⟨widest, hlines⟩ := readEmptyLines_append start [] 0 hm indentStep_ne_zero
      (Nat.le_refl _) hlead (by rwa [hrest]) (absurd rfl)
    refine ⟨widest, fun h => absurd (hgiven.symm.trans h) indentStep_ne_zero, ?_⟩
    rw [hgiven, hlines]
    rfl
  · have hgiven : givenIndent column (lead ++ (body ++ trail)) = 0 := if_neg hgives
    obtain ⟨e, body, rfl⟩ := List.exists_cons_of_ne_nil hne
    have hbreak : isBreak e = false := hhead e rfl
    -- a text that begins with a break has an indentation in its header
    obtain rfl : lead = [] := by
      cases lead with
      | nil => rfl
      | cons c lead => simp [givesIndentation, hlead c List.mem_cons_self] at hgives
    have hspace : e ≠ ' ' := by
      rintro rfl
      exact hgives rfl
    have htab' : e ≠ '\t' := by
      rintro rfl
      exact htab rfl
    obtain ⟨rest, rfl⟩ := List.head?_eq_some_iff.1 (hrest.trans rfl)
    -- the first line is indented by all its spaces, as its text begins with none
    have hspaces : indentation 0 ⟨margin (column + indentStep) ++ e :: rest, m⟩ =
        (margin (column + indentStep)).length := by
      rw [indentation, if_pos rfl,
        takeWhile_append_exact (by simp [margin]) (by simpa using hspace)]
    have hskip := Cursor.skip_append m (margin (column + indentStep)) (e :: rest)
    rw [← hspaces] at hskip
    refine ⟨_, fun _ => ?_, hgiven ▸ readEmptyLines_of_content hskip
      (fun _ d hd => by cases hd; exact htab') (fun d hd => by cases hd; exact hbreak)⟩
    rw [Mark.column_afterAll_margin, hm, indentStep]
    omega

/-- A literal block with a body between line breaks is read back. -/
theorem readBlock_body {lead body trail : List Char} (hlead : ∀ c ∈ lead, isBreak c = true)
    (hne : body ≠ []) (hhead : ∀ c ∈ body.head?, isBreak c = false)
    (hlast : ∀ c ∈ body.getLast?, isBreak c = false) (htrail : ∀ c ∈ trail, isBreak c = true)
    (htab : (lead ++ (body ++ trail)).head? ≠ some '\t') (hk : k ≤ column)
    (hcontent : IsContent content) :
    ∃ m' : Mark, m'.column = k ∧
      readBlock true (some column) ⟨literalHeader (lead ++ (body ++ trail)) ++ '\n' ::
        (lead ++ (margin (column + indentStep) ++ (literalFrom (column + indentStep) false body ++
          ((if trail = [] then ['\n'] else trail) ++ (margin k ++ content))))), m⟩ =
        .ok (lead ++ (body ++ trail), ⟨content, m'⟩) := by
  -- the break that ends the last line, and those of the empty lines after it
  obtain ⟨c, breaks, hbreaks⟩ :
      ∃ c breaks, (if trail = [] then ['\n'] else trail) = c :: breaks := by
    refine List.exists_cons_of_ne_nil ?_
    split <;> simp [*]
  have hall : ∀ d ∈ c :: breaks, isBreak d = true := by
    rw [← hbreaks]
    split
    · exact List.forall_mem_singleton.2 rfl
    · exact htrail
  rw [List.forall_mem_cons] at hall
  have hstart : ((m.afterAll (literalHeader (lead ++ (body ++ trail)))).after '\n').column = 0 :=
    Mark.column_after_break _ rfl
  -- the first line begins with the first character of the body
  have hfirst : (literalFrom (column + indentStep) false body ++
      c :: (breaks ++ (margin k ++ content))).head? = body.head? := by
    obtain ⟨e, body, rfl⟩ := List.exists_cons_of_ne_nil hne
    simp [literalFrom, hhead e rfl]
  obtain ⟨widest, hindent, hlines⟩ := readEmptyLines_lead m hstart hlead hne hhead htab hfirst
  have hcolumn := column_afterAll_breaks hlead hstart (column + indentStep)
  have hk' : k < column + indentStep := by rw [indentStep]; omega
  obtain ⟨blankStart, hblock⟩ := blockFrom_body indentStep_ne_zero hk' hlast hall.1 hall.2
    hcontent.isGap_head { emptyBreaks := lead } hcolumn
  have hlast' : ∀ d ∈ (lead ++ body).getLast?, isBreak d = false := by
    rwa [List.getLast?_append_of_ne_nil _ hne]
  rw [hbreaks]
  refine ⟨_, column_afterAll_lines _ hall.1 hall.2, readBlock_eq hlines hindent hblock ?_⟩
  rw [← List.append_assoc]
  exact chomped_body (by simp [hne]) hlast' htrail hbreaks.symm

end

/-- A literal block below a key at a column is read back, if the next line stands at that column or
further to the left. -/
theorem readBlock_literal {cs : List Char} (hne : cs ≠ []) (htab : cs.head? ≠ some '\t')
    {column k : Nat} (hk : k ≤ column) {content : List Char} (hcontent : IsContent content)
    (m : Mark) :
    ∃ m' : Mark, m'.column = k ∧
      readBlock true (some column) ⟨literalHeader cs ++ '\n' ::
        (literalFrom (column + indentStep) true cs ++ lastLineEnd cs ++ (margin k ++ content)), m⟩ =
        .ok (cs, ⟨content, m'⟩) := by
  obtain ⟨lead, rest, rfl, hlead, hrest⟩ := exists_run isBreak cs
  obtain ⟨body, trail, rfl, htrail, hlast⟩ := exists_last_run isBreak rest
  by_cases hbody : body = []
  · subst hbody
    obtain rfl : trail = [] := by
      cases trail with
      | nil => rfl
      | cons c trail => cases (hrest c rfl).symm.trans (htrail c List.mem_cons_self)
    rw [List.append_nil, List.append_nil] at *
    have hwritten : literalFrom (column + indentStep) true lead ++ lastLineEnd lead = lead := by
      have h : literalFrom (column + indentStep) true ([] ++ lead) = [] ++ lead :=
        literalFrom_append true hlead
      have hend : lead.getLast?.any isBreak = true := by
        have hlast := List.getLast?_eq_some_getLast hne
        rw [hlast]
        exact hlead _ (List.mem_of_getLast? hlast)
      rw [List.nil_append] at h
      rw [h, lastLineEnd, if_pos hend, List.append_nil]
    rw [hwritten]
    exact readBlock_breaks m hne hlead hk hcontent
  · have hhead : ∀ c ∈ body.head?, isBreak c = false := by
      rwa [List.head?_append_of_ne_nil _ hbody] at hrest
    -- what is written for the breaks before the body, the body and the breaks after it
    have hwritten : literalFrom (column + indentStep) true (lead ++ (body ++ trail)) ++
        lastLineEnd (lead ++ (body ++ trail)) =
        lead ++ (margin (column + indentStep) ++ (literalFrom (column + indentStep) false body ++
          (if trail = [] then ['\n'] else trail))) := by
      obtain ⟨e, body', rfl⟩ := List.exists_cons_of_ne_nil hbody
      rw [literalFrom_breaks hlead, List.cons_append, literalFrom_true (hhead e rfl),
        ← List.cons_append, literalFrom_append _ htrail, lastLineEnd_append hbody hlast htrail]
      simp only [List.append_assoc]
      split <;> simp [*]
    have h := readBlock_body m hlead hbody hhead hlast htrail htab hk hcontent
    rw [hwritten]
    simpa using h

end InstallManifest.Yaml
