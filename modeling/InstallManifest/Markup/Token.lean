import InstallManifest.Markup.Attribute

/-!
# Tokens of markup

Marked-up text is a sequence of tags with other things between them: character data, references,
comments, instructions and declarations. `Token.next` cuts the first token off a text, and
`Token.scan` cuts a whole text into tokens up to the first fault. Names and characters are not
judged, and tags need not match; that is for the reader of the tokens.
-/

namespace InstallManifest.Markup

/-- What stands in a tag: the element's name and the text of its attribute list. -/
structure Tag where
  name : List Char
  attributeText : List Char
  deriving DecidableEq

namespace Tag

/-- The tag with the given content: its name ends at the first white space. -/
def ofContent (content : List Char) : Tag :=
  ⟨content.takeWhile (!isBlank ·), content.dropWhile (!isBlank ·)⟩

/-- The attributes of a tag. -/
def attributes (t : Tag) : AttributeList := readAttributes [] (Utf8.size t.name) t.attributeText

end Tag

/-- A piece of marked-up text. -/
inductive Token where
  /-- Begins an element. -/
  | opening (tag : Tag)
  /-- A whole element without content. -/
  | empty (tag : Tag)
  /-- Ends the element of the name. -/
  | closing (name : List Char)
  /-- Something that is no tag. -/
  | aside
  deriving DecidableEq

/-- Why a text is not cut into tokens. -/
inductive TokenFault where
  | tagNotClosed
  | commentNotClosed
  | cdataNotClosed
  | doctypeNotClosed
  | instructionNotClosed
  | unknownMarkup
  | doctypeWithoutName
  | referenceNotClosed
  deriving DecidableEq

def TokenFault.message : TokenFault → String
  | tagNotClosed => "syntax error: tag not closed: `>` not found before end of input"
  | commentNotClosed => "syntax error: comment not closed: `-->` not found before end of input"
  | cdataNotClosed => "syntax error: CDATA not closed: `]]>` not found before end of input"
  | doctypeNotClosed => "syntax error: DOCTYPE not closed: `>` not found before end of input"
  | instructionNotClosed =>
    "syntax error: processing instruction or xml declaration not closed: " ++
      "`?>` not found before end of input"
  | unknownMarkup => "syntax error: unknown or missed symbol in markup"
  | doctypeWithoutName =>
    "ill-formed document: `<!DOCTYPE>` declaration does not contain a name of a document type"
  | referenceNotClosed =>
    "ill-formed document: entity or character reference not closed: " ++
      "`;` not found before end of input"

/-! ## Tags -/

/-- The quote that is open after a character, given the one open before it. -/
def quoteAfter : (quote : Option Char) → Char → Option Char
  | none, c => if c = '"' || c = '\'' then some c else none
  | some quote, c => if c = quote then none else some quote

/-- Splits a tag from the text after it, at the first `>` outside quotes. -/
def splitTag : (quote : Option Char) → List Char → Option (List Char × List Char)
  | _, [] => none
  | quote, c :: cs =>
    if quote = none && c = '>' then some ([], cs)
    else (splitTag (quoteAfter quote c) cs).map fun (content, rest) => (c :: content, rest)

/-- The name of a closing tag: white space at its end does not count, unless there is nothing
else. -/
def closingName (content : List Char) : List Char :=
  if allBlank content then content else (content.reverse.dropWhile isBlank).reverse

/-- The tag token with the given content. -/
def tagToken (content : List Char) : Token :=
  if content.getLast? = some '/' then .empty (.ofContent content.dropLast)
  else .opening (.ofContent content)

/-! ## Declarations, comments and instructions -/

/-- The text after the first place where `stop` stands. -/
def skipPast (stop : List Char) : List Char → Option (List Char)
  | [] => none
  | c :: cs =>
    if stop.isPrefixOf (c :: cs) then some ((c :: cs).drop stop.length) else skipPast stop cs

/-- Splits a document type declaration from the text after it, at the `>` that balances every `<`
inside it. -/
def splitDoctype : (depth : Nat) → List Char → Option (List Char × List Char)
  | _, [] => none
  | depth, c :: cs =>
    if c = '>' && depth = 0 then some ([], cs)
    else
      let depth := if c = '<' then depth + 1 else if c = '>' then depth - 1 else depth
      (splitDoctype depth cs).map fun (content, rest) => (c :: content, rest)

/-- The rest after a declaration or comment, given what follows `<!`. -/
def skipDeclaration (cs : List Char) : Except TokenFault (List Char) :=
  match cs with
  | '-' :: rest =>
    match rest with
    | '-' :: body => (skipPast ['-', '-', '>'] body).elim (.error .commentNotClosed) .ok
    | _ => .error .commentNotClosed
  | '[' :: rest =>
    if ['C', 'D', 'A', 'T', 'A', '['].isPrefixOf rest then
      (skipPast [']', ']', '>'] (rest.drop 6)).elim (.error .cdataNotClosed) .ok
    else .error .cdataNotClosed
  | c :: rest =>
    if c = 'D' || c = 'd' then
      if (rest.take 6).map Char.toUpper = ['O', 'C', 'T', 'Y', 'P', 'E'] then
        match splitDoctype 0 (rest.drop 6) with
        | none => .error .doctypeNotClosed
        | some (content, after) =>
          if allBlank content then .error .doctypeWithoutName else .ok after
      else .error .doctypeNotClosed
    else .error .unknownMarkup
  | [] => .error .unknownMarkup

/-- The rest after an instruction, given what follows `<?`. -/
def skipInstruction (cs : List Char) : Except TokenFault (List Char) :=
  if cs.head? = some '>' then .error .instructionNotClosed
  else (skipPast ['?', '>'] cs).elim (.error .instructionNotClosed) .ok

/-! ## The first token of a text -/

/-- The token that starts with `<`, given what follows. -/
def markup (cs : List Char) : Except TokenFault (Token × List Char) :=
  match cs with
  | '!' :: rest => (skipDeclaration rest).map (.aside, ·)
  | '?' :: rest => (skipInstruction rest).map (.aside, ·)
  | '/' :: rest =>
    match splitTag none rest with
    | some (content, after) => .ok (.closing (closingName content), after)
    | none => .error .tagNotClosed
  | rest =>
    match splitTag none rest with
    | some (content, after) => .ok (tagToken content, after)
    | none => .error .tagNotClosed

/-- Whether a character ends a run of character data. -/
def endsText (c : Char) : Bool := c = '<' || c = '&'

/-- The first token of a text that starts with `c`, and the text after it. -/
def Token.next (c : Char) (cs : List Char) : Except TokenFault (Token × List Char) :=
  if c = '<' then markup cs
  else if c = '&' then
    match splitReference endsText cs with
    | some (_, rest) => .ok (.aside, rest)
    | none => .error .referenceNotClosed
  else .ok (.aside, cs.dropWhile (!endsText ·))

/-! ## What is left is shorter -/

theorem splitTag_length {quote : Option Char} {cs content rest : List Char}
    (h : splitTag quote cs = some (content, rest)) : rest.length < cs.length := by
  induction cs generalizing quote content rest with
  | nil => simp [splitTag] at h
  | cons c cs ih =>
    rw [splitTag] at h
    split at h
    · simp only [Option.some.injEq, Prod.mk.injEq] at h
      simp [h.2]
    · obtain ⟨⟨b, r⟩, hr, heq⟩ := Option.map_eq_some_iff.1 h
      have := ih hr
      simp only [Prod.mk.injEq] at heq
      simp only [List.length_cons, ← heq.2]
      omega

theorem skipPast_length {stop cs rest : List Char} (h : skipPast stop cs = some rest) :
    rest.length ≤ cs.length := by
  induction cs with
  | nil => simp [skipPast] at h
  | cons c cs ih =>
    rw [skipPast] at h
    split at h
    · simp only [Option.some.injEq] at h
      simp only [← h, List.length_drop]
      omega
    · exact Nat.le_succ_of_le (ih h)

theorem splitDoctype_length {depth : Nat} {cs content rest : List Char}
    (h : splitDoctype depth cs = some (content, rest)) : rest.length < cs.length := by
  induction cs generalizing depth content rest with
  | nil => simp [splitDoctype] at h
  | cons c cs ih =>
    rw [splitDoctype] at h
    split at h
    · simp only [Option.some.injEq, Prod.mk.injEq] at h
      simp [h.2]
    · obtain ⟨⟨b, r⟩, hr, heq⟩ := Option.map_eq_some_iff.1 h
      have := ih hr
      simp only [Prod.mk.injEq] at heq
      simp only [List.length_cons, ← heq.2]
      omega

theorem skipDeclaration_length {cs rest : List Char} (h : skipDeclaration cs = .ok rest) :
    rest.length ≤ cs.length := by
  unfold skipDeclaration at h
  split at h
  · split at h
    · rename_i body
      cases hs : skipPast ['-', '-', '>'] body with
      | none => simp [hs] at h
      | some r =>
        simp only [hs, Option.elim_some, Except.ok.injEq] at h
        have := skipPast_length hs
        simp only [← h, List.length_cons]
        omega
    · simp at h
  · rename_i rest'
    split at h
    · cases hs : skipPast [']', ']', '>'] (rest'.drop 6) with
      | none => simp [hs] at h
      | some r =>
        simp only [hs, Option.elim_some, Except.ok.injEq] at h
        have := skipPast_length hs
        simp only [← h, List.length_cons, List.length_drop] at this ⊢
        omega
    · simp at h
  · split at h
    · split at h
      · split at h
        · simp at h
        · rename_i rest' _ _ _ _ _ hs
          split at h
          · simp at h
          · have := splitDoctype_length hs
            simp only [Except.ok.injEq] at h
            simp only [← h, List.length_cons, List.length_drop] at this ⊢
            omega
      · simp at h
    · simp at h
  · simp at h

theorem skipInstruction_length {cs rest : List Char} (h : skipInstruction cs = .ok rest) :
    rest.length ≤ cs.length := by
  unfold skipInstruction at h
  split at h
  · simp at h
  · cases hs : skipPast ['?', '>'] cs with
    | none => simp [hs] at h
    | some r =>
      simp only [hs, Option.elim_some, Except.ok.injEq] at h
      exact h ▸ skipPast_length hs

theorem markup_length {cs rest : List Char} {t : Token} (h : markup cs = .ok (t, rest)) :
    rest.length ≤ cs.length := by
  unfold markup at h
  split at h
  · rename_i r
    cases hs : skipDeclaration r with
    | error e => simp [hs, Except.map] at h
    | ok after =>
      simp only [hs, Except.map, Except.ok.injEq, Prod.mk.injEq] at h
      exact Nat.le_succ_of_le (h.2 ▸ skipDeclaration_length hs)
  · rename_i r
    cases hs : skipInstruction r with
    | error e => simp [hs, Except.map] at h
    | ok after =>
      simp only [hs, Except.map, Except.ok.injEq, Prod.mk.injEq] at h
      exact Nat.le_succ_of_le (h.2 ▸ skipInstruction_length hs)
  · split at h
    · rename_i hs
      simp only [Except.ok.injEq, Prod.mk.injEq] at h
      exact Nat.le_succ_of_le (Nat.le_of_lt (h.2 ▸ splitTag_length hs))
    · simp at h
  · split at h
    · rename_i hs
      simp only [Except.ok.injEq, Prod.mk.injEq] at h
      exact Nat.le_of_lt (h.2 ▸ splitTag_length hs)
    · simp at h

theorem Token.next_length {c : Char} {cs rest : List Char} {t : Token}
    (h : Token.next c cs = .ok (t, rest)) : rest.length ≤ cs.length := by
  unfold Token.next at h
  split at h
  · exact markup_length h
  · split at h
    · split at h
      · rename_i hs
        simp only [Except.ok.injEq, Prod.mk.injEq] at h
        exact Nat.le_of_lt (h.2 ▸ splitReference_length hs)
      · simp at h
    · simp only [Except.ok.injEq, Prod.mk.injEq] at h
      exact h.2 ▸ (List.dropWhile_suffix _).length_le

/-! ## All tokens -/

/-- The tokens of a text up to the first fault, and that fault. -/
def Token.scan : List Char → List Token × Option TokenFault
  | [] => ([], none)
  | c :: cs =>
    match _h : Token.next c cs with
    | .error fault => ([], some fault)
    | .ok (t, rest) =>
      let (ts, fault) := Token.scan rest
      (t :: ts, fault)
termination_by cs => cs.length
decreasing_by exact Nat.lt_succ_of_le (Token.next_length _h)

/-- A text without a byte order mark at its start. -/
def dropMark : List Char → List Char
  | c :: cs => if c = '\uFEFF' then cs else c :: cs
  | [] => []

/-- The tokens of a whole document. -/
def tokens (document : String) : List Token × Option TokenFault :=
  Token.scan (dropMark document.toList)

end InstallManifest.Markup
