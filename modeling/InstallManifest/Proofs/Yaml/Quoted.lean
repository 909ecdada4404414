import InstallManifest.Proofs.Yaml.Cursor
import Mathlib.Data.List.Chain

/-!
# Quoted scalars read back

What is written between quotes is a run of spelt characters and gaps, in either style. A quoted
scalar is read through all of them up to its closing quote.
-/

namespace InstallManifest.Yaml

open Block (margin)

/-! ## Texts between quotes -/

/-- Whether some characters spell a character of a word, wherever they stand. -/
def IsSpelling (single : Bool) (c : Char) (spelling : List Char) : Prop :=
  (∀ d ∈ spelling, isBreak d = false) ∧ ∀ start word rest m,
    quotedWord single start word ⟨spelling ++ rest, m⟩ =
      quotedWord single start (c :: word) ⟨rest, m.afterAll spelling⟩

/-- Whether some characters stand for a text between quotes. -/
inductive QuotedText (single : Bool) : (text written : List Char) → Prop
  | nil : QuotedText single [] []
  | char {c : Char} {spelling text written : List Char} (spells : IsSpelling single c spelling)
      (rest : QuotedText single text written) : QuotedText single (c :: text) (spelling ++ written)
  /-- What is between two words; a line after a break does not begin at once. -/
  | gap {between text written : List Char} (ne_nil : between ≠ [])
      (gap : ∀ c ∈ between, isGap c = true)
      (column : ∀ m : Mark, m.column ≠ 0 → (m.afterAll between).column ≠ 0)
      (ends : ∀ c ∈ written.head?, isGap c = false) (rest : QuotedText single text written) :
      QuotedText single ((Gap.ofChars between).folded ++ text) (between ++ written)

/-- Goes on with a quoted scalar in the midst of a word. -/
def quotedWithin (single : Bool) (start : Mark) (text word : List Char) (c : Cursor) :
    Except Fault (List Char × Cursor) :=
  match quotedWord single start word c with
  | .error fault => .error fault
  | .ok (word, stop, c) =>
    if c.startsWith (quoteOf single) then .ok (text ++ word, c.skip 1)
    else
      let between := c.rest.takeWhile isGap
      quotedFrom single start (text ++ word ++ quotedGap stop between) (c.skip between.length)

section

variable {single : Bool} {start : Mark} {text word rest : List Char} {m : Mark}

/-- Off the start of a line there is no marker to be met, so a scalar goes on with a word. -/
theorem quotedFrom_eq_quotedWithin (hm : m.column ≠ 0) (hne : rest ≠ []) :
    quotedFrom single start text ⟨rest, m⟩ = quotedWithin single start text [] ⟨rest, m⟩ := by
  have hmarker : (⟨rest, m⟩ : Cursor).atDocumentMarker = false :=
    Cursor.atDocumentMarker_of_column hm
  rw [quotedFrom, if_neg (by simp [hmarker]), dif_neg hne, quotedWithin]
  cases quotedWord single start [] ⟨rest, m⟩ <;> rfl

/-- A word ends before a gap. -/
theorem quotedWord_gap {c : Char} (h : isGap c = true) :
    quotedWord single start word ⟨c :: rest, m⟩ =
      .ok (word.reverse, .plainly, ⟨c :: rest, m⟩) := by
  rw [quotedWord]
  simp [h]

/-- A word goes up to a gap, which counts for the text as it is folded. -/
theorem quotedWithin_gap {between : List Char} (hne : between ≠ [])
    (hgap : ∀ c ∈ between, isGap c = true) (hrest : ∀ c ∈ rest.head?, isGap c = false) :
    quotedWithin single start text word ⟨between ++ rest, m⟩ =
      quotedFrom single start (text ++ word.reverse ++ (Gap.ofChars between).folded)
        ⟨rest, m.afterAll between⟩ := by
  obtain ⟨c, between, rfl⟩ := List.exists_cons_of_ne_nil hne
  have hc : isGap c = true := hgap c List.mem_cons_self
  -- a quote is no gap, so the scalar does not end here
  have hquote : c ≠ quoteOf single := by
    rintro rfl
    cases single <;> cases hc
  have hstarts : (⟨c :: (between ++ rest), m⟩ : Cursor).startsWith (quoteOf single) = false := by
    simp [Cursor.startsWith, hquote]
  have htake : (c :: (between ++ rest)).takeWhile isGap = c :: between :=
    takeWhile_append_exact hgap hrest
  have hskip : (⟨c :: (between ++ rest), m⟩ : Cursor).skip (c :: between).length =
      ⟨rest, m.afterAll (c :: between)⟩ := Cursor.skip_append m (c :: between) rest
  rw [List.cons_append, quotedWithin, quotedWord_gap hc]
  simp only [hstarts, htake, hskip]
  rfl

/-- The closing quote ends the scalar, unless it is taken for one of the text. -/
theorem quotedWithin_quote (hrest : ∀ c ∈ rest.head?, c ≠ '\'') :
    quotedWithin single start text word ⟨quoteOf single :: rest, m⟩ =
      .ok (text ++ word.reverse, ⟨rest, m.after (quoteOf single)⟩) := by
  have hword : quotedWord single start word ⟨quoteOf single :: rest, m⟩ =
      .ok (word.reverse, .plainly, ⟨quoteOf single :: rest, m⟩) := by
    have htwice : rest.head? ≠ some '\'' := fun h => hrest _ h rfl
    rw [quotedWord]
    cases single <;> simp [quoteOf, isGap, isBlank, isBreak, htwice]
  rw [quotedWithin, hword]
  simp [Cursor.startsWith]

/-- What was written between quotes is read up to the closing quote. -/
theorem QuotedText.quotedWithin_eq {cs written : List Char} (h : QuotedText single cs written)
    (hm : m.column ≠ 0) (hrest : ∀ c ∈ rest.head?, c ≠ '\'') :
    quotedWithin single start text word ⟨written ++ quoteOf single :: rest, m⟩ =
      .ok (text ++ word.reverse ++ cs, ⟨rest, m.afterAll (written ++ [quoteOf single])⟩) := by
  induction h generalizing text word m with
  | nil =>
    rw [List.nil_append, quotedWithin_quote hrest, List.append_nil]
    rfl
  | @char c spelling cs written spells _ ih =>
    have hcolumn := m.column_afterAll_of_line spells.1
    -- the character joins the word, which goes on where its spelling ends
    rw [List.append_assoc, quotedWithin, spells.2, ← quotedWithin, ih (by omega)]
    simp
  | @gap between cs written hne hgap hcolumn hends _ ih =>
    -- the gap ends with the next word or with the closing quote
    have hnext : ∀ c ∈ (written ++ quoteOf single :: rest).head?, isGap c = false := by
      cases written with
      | nil => cases single <;> simp [quoteOf, isGap, isBlank, isBreak]
      | cons d written => exact hends
    rw [List.append_assoc, quotedWithin_gap hne hgap hnext,
      quotedFrom_eq_quotedWithin (hcolumn m hm) (by simp), ih (hcolumn m hm)]
    simp

end

/-- A quoted scalar is read back, whatever follows its closing quote but another quote. -/
theorem QuotedText.readQuoted_eq {single : Bool} {cs written : List Char}
    (h : QuotedText single cs written) {rest : List Char} (hrest : ∀ c ∈ rest.head?, c ≠ '\'')
    (m : Mark) :
    readQuoted single ⟨quoteOf single :: (written ++ quoteOf single :: rest), m⟩ =
      .ok (cs, ⟨rest, m.afterAll (quoteOf single :: written ++ [quoteOf single])⟩) := by
  have hcolumn : (m.after (quoteOf single)).column ≠ 0 := by
    cases single <;> simp [quoteOf, Mark.after, isBreak]
  rw [readQuoted, Cursor.skip_one, quotedFrom_eq_quotedWithin hcolumn (by simp),
    h.quotedWithin_eq hcolumn hrest]
  simp

/-! ## Spellings -/

/-- A character that is no gap and has no special meaning spells itself. -/
theorem isSpelling_self {single : Bool} {c : Char} (hgap : isGap c = false)
    (hquote : c ≠ quoteOf single) (hbackslash : single = false → c ≠ '\\') :
    IsSpelling single c [c] := by
  refine ⟨by simpa using (isGap_eq_false_iff.1 hgap).2.2, fun start word rest m => ?_⟩
  rw [List.singleton_append, quotedWord]
  -- only between double quotes a backslash means something
  cases single with
  | true => simp_all [quoteOf]
  | false => simp_all [quoteOf]

/-- Two single quotes spell one. -/
theorem isSpelling_singleQuote : IsSpelling true '\'' ['\'', '\''] := by
  refine ⟨by simp [isBreak], fun start word rest m => ?_⟩
  rw [List.cons_append, quotedWord]
  simp [isGap, isBlank, isBreak, Cursor.skip]

/-- A backslash, a letter and digits spell what they are read as. -/
theorem isSpelling_escape {c letter : Char} {digits : List Char}
    (hletter : isBreak letter = false) (hdigits : ∀ d ∈ digits, isBreak d = false)
    (hread : ∀ start rest m, readEscape start ⟨'\\' :: letter :: (digits ++ rest), m⟩ =
      .ok (c, digits.length)) : IsSpelling false c ('\\' :: letter :: digits) := by
  constructor
  · exact List.forall_mem_cons.2 ⟨rfl, List.forall_mem_cons.2 ⟨hletter, hdigits⟩⟩
  · intro start word rest m
    have hskip := Cursor.skip_append m ('\\' :: letter :: digits) rest
    simp only [List.cons_append, List.length_cons] at hskip ⊢
    have hgap : isGap '\\' = false := rfl
    rw [quotedWord]
    simp [hgap, hletter, hread, hskip]

/-! ## Escapes -/

theorem length_upperHex (count n : Nat) : (upperHex count n).length = count := by
  induction count generalizing n with
  | zero => rfl
  | succ count ih => rw [upperHex, List.length_append, ih, List.length_singleton]

theorem value?_upperDigit {d : Nat} (h : d < 16) :
    Digit.value? 16 (Nat.digitChar d).toUpper = some d := by
  have hall : ∀ d : Fin 16, Digit.value? 16 (Nat.digitChar d).toUpper = some d.val := by decide
  exact hall ⟨d, h⟩

theorem isBreak_upperDigit {d : Nat} (h : d < 16) : isBreak (Nat.digitChar d).toUpper = false := by
  have hall : ∀ d : Fin 16, isBreak (Nat.digitChar d).toUpper = false := by decide
  exact hall ⟨d, h⟩

theorem isBreak_of_mem_upperHex {count n : Nat} {c : Char} (h : c ∈ upperHex count n) :
    isBreak c = false := by
  induction count generalizing n with
  | zero => cases h
  | succ count ih =>
    rw [upperHex, List.mem_append, List.mem_singleton] at h
    rcases h with h | rfl
    · exact ih h
    · exact isBreak_upperDigit (Nat.mod_lt _ (by decide))

/-- The digits of a number denote its lowest places. -/
theorem natural?_upperHex {count : Nat} (hcount : count ≠ 0) {n : Nat} (h : n < Nat.pow 16 count) :
    Digit.natural? 16 (upperHex count n) = some n := by
  -- the digits are read from the highest, so what was read before is moved up by their count
  have hfold (count n number : Nat) (h : n < 16 ^ count) :
      (upperHex count n).foldlM
        (fun number c => (Digit.value? 16 c).map (number * 16 + ·)) number =
      some (number * 16 ^ count + n) := by
    induction count generalizing n number with
    | zero =>
      obtain rfl : n = 0 := by omega
      simp [upperHex]
    | succ count ih =>
      have hdiv : n / 16 < 16 ^ count := by rw [Nat.pow_succ] at h; omega
      rw [upperHex, List.foldlM_append, ih _ _ hdiv]
      have hdigit := value?_upperDigit (Nat.mod_lt n (by decide : 16 > 0))
      simp only [Option.bind_eq_bind, Option.bind_some, List.foldlM_cons, hdigit, Option.map_some,
        List.foldlM_nil, Nat.pow_succ, ← Nat.mul_assoc]
      exact congrArg some (by omega)
  have hne : upperHex count n ≠ [] := by
    rw [← List.length_pos_iff, length_upperHex]
    omega
  rw [Digit.natural?, if_neg (by simpa using hne), hfold count n 0 h]
  simp

/-- A number of a character spells it after its letter. -/
theorem readEscape_code {c letter : Char} {count : Nat} (hcount : count ≠ 0)
    (hsimple : simpleEscapes.lookup letter = none) (hcode : codeEscapes.lookup letter = some count)
    (hlt : c.toNat < Nat.pow 16 count) (start : Mark) (rest : List Char) (m : Mark) :
    readEscape start ⟨'\\' :: letter :: (upperHex count c.toNat ++ rest), m⟩ =
      .ok (c, (upperHex count c.toNat).length) := by
  have hvalue : hexValue? count (upperHex count c.toNat ++ rest) = some c.toNat := by
    have hlen : ¬ (upperHex count c.toNat ++ rest).length < count := by
      rw [List.length_append, length_upperHex]
      omega
    have htake : (upperHex count c.toNat ++ rest).take count = upperHex count c.toNat :=
      List.take_left' (length_upperHex ..)
    rw [hexValue?, if_neg hlen, htake, natural?_upperHex hcount hlt]
  have hvalid : c.toNat.isValidChar := c.valid
  simp [readEscape, hsimple, hcode, Cursor.skip, hvalue, hvalid, Char.ofNat_toNat, length_upperHex]

/-- Each letter that is written for a character is read as that character. -/
theorem of_letterEscapes {c letter : Char} (h : letterEscapes.lookup c = some letter) :
    isBreak letter = false ∧ simpleEscapes.lookup letter = some c := by
  have hall : ∀ pair ∈ letterEscapes,
      isBreak pair.2 = false ∧ simpleEscapes.lookup pair.2 = some pair.1 := by decide
  obtain ⟨_, _, hpairs, -⟩ := List.lookup_eq_some_iff.1 h
  exact hall (c, letter) (by rw [hpairs]; simp)

/-- A character between double quotes is spelt as it is or by an escape. -/
theorem isSpelling_escapeDouble {c : Char} (hc : c ≠ ' ') :
    IsSpelling false c (escapeDouble c) := by
  unfold escapeDouble
  split
  · next h =>
    simp only [Bool.and_eq_true, Bool.not_eq_true', decide_eq_true_eq] at h
    obtain ⟨⟨⟨hprintable, hbreak⟩, hquote⟩, hbackslash⟩ := h
    -- a tab is not printable, so it is written as an escape
    have htab : c ≠ '\t' := by
      rintro rfl
      cases hprintable
    exact isSpelling_self (isGap_eq_false_iff.2 ⟨hc, htab, hbreak⟩) hquote fun _ => hbackslash
  · split
    · next letter hlookup =>
      obtain ⟨hbreak, hsimple⟩ := of_letterEscapes hlookup
      refine isSpelling_escape hbreak nofun fun start rest m => ?_
      simp [readEscape, hsimple]
    -- every character has a number of eight digits at most
    · have hvalid : c.toNat < 16 ^ 8 := by
        rcases c.valid with h | ⟨-, h⟩
        · exact Nat.lt_trans h (by decide)
        · exact Nat.lt_trans h (by decide)
      dsimp only
      split
      · next hle =>
        exact isSpelling_escape rfl (fun _ => isBreak_of_mem_upperHex)
          (readEscape_code (by decide) rfl rfl (Nat.lt_succ_of_le hle))
      split
      · next hle =>
        exact isSpelling_escape rfl (fun _ => isBreak_of_mem_upperHex)
          (readEscape_code (by decide) rfl rfl (Nat.lt_succ_of_le hle))
      · exact isSpelling_escape rfl (fun _ => isBreak_of_mem_upperHex)
          (readEscape_code (by decide) rfl rfl hvalid)

/-- A character other than a space ends a gap, whether it is escaped or not. -/
theorem isGap_head_escapeDouble {c : Char} (hc : c ≠ ' ') :
    ∃ d ∈ (escapeDouble c).head?, isGap d = false := by
  unfold escapeDouble
  split
  · next h =>
    simp only [Bool.and_eq_true, Bool.not_eq_true', decide_eq_true_eq] at h
    have htab : c ≠ '\t' := by
      rintro rfl
      cases h.1.1.1
    exact ⟨c, rfl, isGap_eq_false_iff.2 ⟨hc, htab, h.1.1.2⟩⟩
  · have hbackslash : isGap '\\' = false := rfl
    split
    · exact ⟨'\\', rfl, hbackslash⟩
    · dsimp only
      split
      · exact ⟨'\\', rfl, hbackslash⟩
      split
      · exact ⟨'\\', rfl, hbackslash⟩
      · exact ⟨'\\', rfl, hbackslash⟩

/-- Spaces within a line are a gap that means itself. -/
theorem QuotedText.after_margin {single : Bool} {cs written : List Char} (n : Nat)
    (hends : ∀ c ∈ written.head?, isGap c = false) (rest : QuotedText single cs written) :
    QuotedText single (margin n ++ cs) (margin n ++ written) := by
  cases n with
  | zero => exact rest
  | succ n =>
    have hfolded : (Gap.ofChars (margin (n + 1))).folded = margin (n + 1) := by
      rw [Gap.ofChars, filter_isBreak_margin, Gap.folded]
    have hne : margin (n + 1) ≠ [] := by simp [margin]
    have hgap := QuotedText.gap hne (fun c => isGap_of_mem_margin) (fun m hm => by simp) hends rest
    rwa [hfolded] at hgap

/-- Any text can stand between double quotes. -/
theorem quotedText_double (cs : List Char) : QuotedText false cs (cs.flatMap escapeDouble) := by
  -- with the spaces that come before, which are no gap until it is known what follows them
  suffices h : ∀ n, QuotedText false (margin n ++ cs) (margin n ++ cs.flatMap escapeDouble) from h 0
  induction cs with
  | nil => exact fun n => QuotedText.after_margin n nofun .nil
  | cons c cs ih =>
    intro n
    -- a space joins the spaces before it, anything else ends them
    by_cases hc : c = ' '
    · subst hc
      have hspace : escapeDouble ' ' = [' '] := rfl
      have hmore : margin (n + 1) = margin n ++ [' '] := List.replicate_succ'
      have h := ih (n + 1)
      rw [hmore, List.append_assoc, List.append_assoc] at h
      rwa [List.flatMap_cons, hspace]
    · obtain ⟨d, hd, hgap⟩ := isGap_head_escapeDouble hc
      obtain ⟨spelling, hspelling⟩ := List.head?_eq_some_iff.1 hd
      refine QuotedText.after_margin n ?_ (.char (isSpelling_escapeDouble hc) (ih 0))
      rw [List.flatMap_cons, hspelling]
      rintro _ ⟨⟩
      exact hgap

/-! ## Single quotes -/

/-- No pair, no neighbours of that kind anywhere in the text. -/
theorem isChain_of_hasPair {first second : Char → Bool} {cs : List Char}
    (h : hasPair first second cs = false) :
    cs.IsChain fun c d => first c = true → second d = false := by
  induction cs with
  | nil => exact .nil
  | cons c cs ih =>
    cases cs with
    | nil => exact .singleton _
    | cons d cs =>
      rw [hasPair, Bool.or_eq_false_iff] at h
      refine .cons_cons (fun hc => ?_) (ih h.2)
      simpa [hc] using h.1

/-- What a text fits if it can be written between single quotes. -/
structure FitsSingleQuotes (cs : List Char) : Prop where
  printable : ∀ c ∈ cs, isPrintable c = true
  space_break : cs.IsChain fun c d => c = ' ' → isBreak d = false
  break_space : cs.IsChain fun c d => isBreak c = true → d ≠ ' '

/-- What the check before writing comes to. -/
theorem fitsSingleQuotes_of_eq_true {cs : List Char} (h : fitsSingleQuotes cs = true) :
    FitsSingleQuotes cs := by
  simp only [fitsSingleQuotes, needsEscapes, Bool.and_eq_true, Bool.not_eq_true',
    Bool.or_eq_false_iff, List.any_eq_false] at h
  obtain ⟨⟨hprintable, hspace⟩, hbreak⟩ := h
  have hany {c : Char} (h : isAnyBreak c = false) : isBreak c = false := by
    rw [isAnyBreak, Bool.or_assoc, Bool.or_eq_false_iff] at h
    exact h.1
  refine ⟨fun c hc => by simpa using hprintable c hc, ?_, ?_⟩
  · exact (isChain_of_hasPair hspace).imp fun c d h hc => hany (h (decide_eq_true hc))
  · refine (isChain_of_hasPair hbreak).imp fun c d h hc => ?_
    exact decide_eq_false_iff_not.1 (h (by rw [isAnyBreak, hc]; rfl))

namespace FitsSingleQuotes

variable {c : Char} {cs : List Char}

theorem tail (h : FitsSingleQuotes (c :: cs)) : FitsSingleQuotes cs :=
  ⟨fun d hd => h.printable d (List.mem_cons_of_mem _ hd), (List.isChain_cons.1 h.space_break).2,
    (List.isChain_cons.1 h.break_space).2⟩

theorem head_of_space (h : FitsSingleQuotes (' ' :: cs)) : ∀ d ∈ cs.head?, isBreak d = false :=
  fun d hd => (List.isChain_cons.1 h.space_break).1 d hd rfl

theorem head_of_break (h : FitsSingleQuotes (c :: cs)) (hc : isBreak c = true) :
    ∀ d ∈ cs.head?, d ≠ ' ' :=
  fun d hd => (List.isChain_cons.1 h.break_space).1 d hd hc

/-- A tab is not printable, so there is none. -/
theorem ne_tab (h : FitsSingleQuotes (c :: cs)) : c ≠ '\t' := by
  rintro rfl
  cases h.printable '\t' List.mem_cons_self

end FitsSingleQuotes

/-- What several breaks between quotes mean, the first of them being no line feed by itself. -/
theorem folded_breaks {first : Char} {more : List Char} (n : Nat) (hfirst : isBreak first = true)
    (hmore : ∀ c ∈ more, isBreak c = true) (h : first = '\n' → more ≠ []) :
    (Gap.ofChars (first :: more ++ margin n)).folded =
      if first = '\n' then more else first :: more := by
  have hbreaks : (first :: more ++ margin n).filter isBreak = first :: more := by
    rw [List.filter_append, filter_isBreak_margin, List.append_nil,
      List.filter_eq_self.2 (List.forall_mem_cons.2 ⟨hfirst, hmore⟩)]
  have hlines : Gap.ofChars (first :: more ++ margin n) = .lines first more := by
    rw [Gap.ofChars, hbreaks]
  rw [hlines]
  split
  · next hfeed =>
    obtain ⟨c, more, rfl⟩ := List.exists_cons_of_ne_nil (h hfeed)
    rw [hfeed]
    rfl
  · next hfeed =>
    rw [Gap.folded]
    · exact fun h => absurd h hfeed
    · exact fun h => absurd h hfeed

/-- The breaks between two words, with the margin of the line after them. -/
theorem QuotedText.after_breaks {first : Char} {more cs written : List Char} {indent : Nat}
    (hindent : indent ≠ 0) (hfirst : isBreak first = true) (hmore : ∀ c ∈ more, isBreak c = true)
    (h : first = '\n' → more ≠ []) (hends : ∀ c ∈ written.head?, isGap c = false)
    (rest : QuotedText true cs written) :
    QuotedText true ((if first = '\n' then more else first :: more) ++ cs)
      (first :: more ++ (margin indent ++ written)) := by
  have hgap : ∀ c ∈ first :: more ++ margin indent, isGap c = true := by
    have hbreaks : ∀ c ∈ first :: more, isBreak c = true := List.forall_mem_cons.2 ⟨hfirst, hmore⟩
    intro c hc
    rcases List.mem_append.1 hc with hc | hc
    · rw [isGap, hbreaks c hc, Bool.or_true]
    · exact isGap_of_mem_margin hc
  have hcolumn (m : Mark) :
      m.column ≠ 0 → (m.afterAll (first :: more ++ margin indent)).column ≠ 0 := by
    simp; omega
  have hall := QuotedText.gap (by simp) hgap (fun m => hcolumn m) hends rest
  rwa [folded_breaks indent hfirst hmore h, List.append_assoc] at hall

/-- A character between single quotes. -/
def singleQuotedChar (c : Char) : List Char := if c = '\'' then ['\'', '\''] else [c]

/-- A character between single quotes is read as itself, a quote from two of them. -/
theorem isSpelling_singleQuotedChar {c : Char} (hgap : isGap c = false) :
    IsSpelling true c (singleQuotedChar c) := by
  unfold singleQuotedChar
  split
  · next hquote => exact hquote ▸ isSpelling_singleQuote
  · next hquote => exact isSpelling_self hgap hquote nofun

/-- What is no gap ends the gap before it, also as two quotes. -/
theorem isGap_head_singleQuotedChar {c : Char} (hgap : isGap c = false) (rest : List Char) :
    ∀ d ∈ (singleQuotedChar c ++ rest).head?, isGap d = false := by
  unfold singleQuotedChar
  split
  · next hquote =>
    subst hquote
    simpa using hgap
  · simpa using hgap

/-- A character that is no gap is written behind the margin if a break came before it. -/
theorem singleQuotedFrom_cons {indent : Nat} {c : Char} (hgap : isGap c = false)
    (afterBreak : Bool) (cs : List Char) :
    singleQuotedFrom indent afterBreak (c :: cs) =
      (if afterBreak then margin indent else []) ++
        (singleQuotedChar c ++ singleQuotedFrom indent false cs) := by
  obtain ⟨hspace, -, hbreak⟩ := isGap_eq_false_iff.1 hgap
  rw [singleQuotedFrom, if_neg (by simp [hbreak]), if_neg hspace, List.append_assoc]
  rfl

/-- A text without spaces around its line breaks can stand between single quotes. -/
theorem quotedText_single {indent : Nat} (hindent : indent ≠ 0) {cs : List Char}
    (h : FitsSingleQuotes cs) : QuotedText true cs (singleQuotedFrom indent false cs) := by
  -- with the spaces or the breaks before it, which are no gap until it is known what follows them
  suffices hboth :
      (∀ n, (n ≠ 0 → ∀ c ∈ cs.head?, isBreak c = false) →
        QuotedText true (margin n ++ cs) (margin n ++ singleQuotedFrom indent false cs)) ∧
      ∀ first more, isBreak first = true → (∀ c ∈ more, isBreak c = true) →
        (first = '\n' → more ≠ []) → (∀ c ∈ cs.head?, c ≠ ' ') →
        QuotedText true ((if first = '\n' then more else first :: more) ++ cs)
          (first :: more ++ singleQuotedFrom indent true cs) from
    hboth.1 0 (absurd rfl)
  induction cs with
  | nil =>
    refine ⟨fun n _ => .after_margin n nofun .nil, fun first more hfirst hmore hfeed _ => ?_⟩
    have h := QuotedText.after_breaks hindent hfirst hmore hfeed (by simp) .nil
    rwa [List.append_nil (margin indent)] at h
  | cons c cs ih =>
    obtain ⟨ihSpaces, ihBreaks⟩ := ih h.tail
    -- a break joins those before it, or is the first after a word or spaces
    by_cases hbreak : isBreak c = true
    · have hhead := h.head_of_break hbreak
      constructor
      · intro n hn
        obtain rfl : n = 0 := by
          by_contra hne
          cases hbreak.symm.trans (hn hne c rfl)
        rw [singleQuotedFrom, if_pos hbreak]
        by_cases hfeed : c = '\n'
        · subst hfeed
          exact ihBreaks '\n' ['\n'] rfl (by simp [isBreak]) (by simp) hhead
        · have h := ihBreaks c [] hbreak nofun (absurd · hfeed) hhead
          simpa [hfeed] using h
      · intro first more hfirst hmore hfeed _
        have h := ihBreaks first (more ++ [c]) hfirst
          (List.forall_mem_append.2 ⟨hmore, by simpa using hbreak⟩) (by simp) hhead
        rw [singleQuotedFrom, if_pos hbreak]
        split at h <;> simpa [*] using h
    -- a space joins those before it, and none comes after a break
    by_cases hspace : c = ' '
    · subst hspace
      refine ⟨fun n _ => ?_, fun first more _ _ _ hhead => absurd rfl (hhead ' ' rfl)⟩
      have hmore : margin (n + 1) = margin n ++ [' '] := List.replicate_succ'
      have h := ihSpaces (n + 1) fun _ => h.head_of_space
      rwa [hmore, List.append_assoc, List.append_assoc] at h
    -- any other character ends the spaces or the breaks before it
    · have hgap : isGap c = false :=
        isGap_eq_false_iff.2 ⟨hspace, h.ne_tab, Bool.eq_false_iff.2 hbreak⟩
      have hrest := QuotedText.char (isSpelling_singleQuotedChar hgap) (ihSpaces 0 (absurd rfl))
      have hends := isGap_head_singleQuotedChar hgap (singleQuotedFrom indent false cs)
      refine ⟨fun n _ => ?_, fun first more hfirst hmore hfeed _ => ?_⟩
      · rw [singleQuotedFrom_cons hgap]
        exact .after_margin n hends hrest
      · rw [singleQuotedFrom_cons hgap]
        exact .after_breaks hindent hfirst hmore hfeed hends hrest

end InstallManifest.Yaml
