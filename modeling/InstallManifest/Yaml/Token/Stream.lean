import InstallManifest.Yaml.Token.Directive

/-!
# Texts as tokens

A text is cut into tokens from its start. Two things cannot be told from the characters at hand.
Blocks open and close by indentation, so the columns of the open blocks are kept. And what begins
a node may turn out to be a key once a colon follows on the same line, so the places where such a
key may begin are kept, one for each level of brackets and braces; the tokens of the key are put
in later.

A fault may come to light only after tokens that could still change. `TokenStream.tokens` holds
those that were certain by then.
-/

namespace InstallManifest.Yaml

/-- A place where a key may begin. -/
structure KeyStart where
  /-- How many tokens come before it. -/
  position : Nat
  /-- Whether it must be a key, for it stands where only a key can. -/
  required : Bool
  mark : Mark
  deriving DecidableEq

/-- How many bytes a key may take before its colon. -/
def maxKeyWidth : Nat := 1024

/-- How far a text has been cut into tokens. -/
structure Lexing where
  cursor : Cursor
  /-- The tokens so far, the last first. -/
  tokens : List Token := []
  /-- The columns of the open blocks, innermost first. -/
  indents : List Nat := []
  /-- Whether a key may begin here. -/
  keyAllowed : Bool := true
  /-- Where a key may have begun within the innermost brackets or braces. -/
  key : Option KeyStart := none
  /-- The same for the levels around, innermost first. -/
  outerKeys : List (Option KeyStart) := []

namespace Lexing

/-- Whether brackets or braces are open. -/
def inFlow (s : Lexing) : Bool := !s.outerKeys.isEmpty

/-- All places where a key may have begun, innermost first. -/
def keyStarts (s : Lexing) : List KeyStart := (s.key :: s.outerKeys).filterMap id

/-- The tokens that can no longer change, in order. -/
def certain (s : Lexing) : List Token :=
  s.tokens.reverse.take ((s.keyStarts.map (·.position)).foldl min s.tokens.length)

/-- Adds a token that begins at `start` and ends at the cursor. -/
def emit (s : Lexing) (kind : TokenKind) (start : Mark) : Lexing :=
  { s with tokens := ⟨kind, start, s.cursor.mark⟩ :: s.tokens }

/-- Adds a token of the next `n` characters. -/
def take (s : Lexing) (n : Nat) (kind : TokenKind) : Lexing :=
  { s with cursor := s.cursor.skip n }.emit kind s.cursor.mark

/-! ## Keys that may have begun -/

/-- A fault for a key that is not there. -/
def keyFault (s : Lexing) (k : KeyStart) : Except Fault α :=
  faultWithin .simpleKey k.mark .keyWithoutValue s.cursor

/-- Whether a key that may have begun can no longer be one. -/
def isOver (s : Lexing) (k : KeyStart) : Bool :=
  k.mark.line < s.cursor.mark.line || k.mark.width + maxKeyWidth < s.cursor.mark.width

/-- Forgets the places of keys that are over. -/
def forgetOver (s : Lexing) : Except Fault Lexing :=
  -- the outermost place is the first to be told of
  match s.keyStarts.reverse.find? fun k => s.isOver k && k.required with
  | some k => s.keyFault k
  | none =>
    let keep (k : KeyStart) : Bool := !s.isOver k
    .ok { s with key := s.key.filter keep, outerKeys := s.outerKeys.map (·.filter keep) }

/-- Forgets the place of a key within the innermost brackets or braces. -/
def forgetKey (s : Lexing) : Except Fault Lexing :=
  match s.key with
  | some k => if k.required then s.keyFault k else .ok { s with key := none }
  | none => .ok s

/-- Keeps this place, if a key may begin here. -/
def keepKey (s : Lexing) : Except Fault Lexing := do
  if s.keyAllowed then
    let s ← s.forgetKey
    return { s with
      key := some {
        position := s.tokens.length
        -- at the column of the innermost block nothing but a key can stand
        required := !s.inFlow && s.indents.head? = some s.cursor.mark.column
        mark := s.cursor.mark } }
  else return s

/-! ## Blocks -/

/-- Opens a block at a column, unless the innermost block is there or brackets or braces are open;
its token begins at `start` and goes before all but the first `position` tokens. -/
def openBlock (s : Lexing) (column position : Nat) (kind : TokenKind) (start : Mark) : Lexing :=
  if s.inFlow || s.indents.head?.any (column ≤ ·) then s
  else
    -- the tokens are kept last first, so what comes later is in front
    let later := s.tokens.length - position
    { s with
      indents := column :: s.indents
      tokens := s.tokens.take later ++ ⟨kind, start, start⟩ :: s.tokens.drop later }

/-- Opens a block at the cursor. -/
def openBlockHere (s : Lexing) (kind : TokenKind) : Lexing :=
  s.openBlock s.cursor.mark.column s.tokens.length kind s.cursor.mark

/-- Closes the blocks to the right of a column, or all of them. -/
def closeBlocks (s : Lexing) (column : Option Nat) : Lexing :=
  if s.inFlow then s
  else
    -- without a column no block stays
    let stays (indent : Nat) : Bool := column.any (indent ≤ ·)
    let closed := s.indents.takeWhile (!stays ·)
    let ends := closed.map fun _ => (⟨.blockEnd, s.cursor.mark, s.cursor.mark⟩ : Token)
    { s with tokens := ends ++ s.tokens, indents := s.indents.drop closed.length }

/-! ## One token of each kind -/

/-- Adds what a reader found at the cursor, where it may be that a key begins. -/
def read (s : Lexing) (reader : Cursor → Except Fault (TokenKind × Cursor)) :
    Except Fault Lexing := do
  let s ← s.keepKey
  let (kind, next) ← reader s.cursor
  return { s with cursor := next, keyAllowed := false }.emit kind s.cursor.mark

/-- Goes before a document or a directive: all blocks end. -/
def leaveDocument (s : Lexing) : Except Fault Lexing := do
  let s ← (s.closeBlocks none).forgetKey
  return { s with keyAllowed := false }

/-- The end of the text, which ends its last line. -/
def atEnd (s : Lexing) : Except Fault Lexing := do
  let m := s.cursor.mark
  -- a last line without a break ends all the same
  let s := { s with cursor := ⟨[], if m.column = 0 then m else { line := m.line + 1 }⟩ }
  return (← s.leaveDocument).take 0 .streamEnd

def atDirective (s : Lexing) : Except Fault Lexing := do
  let s ← s.leaveDocument
  let (token, next) ← readDirective s.cursor
  return { s with cursor := next, tokens := token :: s.tokens }

/-- Brackets or braces open. -/
def atOpening (s : Lexing) (kind : TokenKind) : Except Fault Lexing := do
  let s ← s.keepKey
  return { s with key := none, outerKeys := s.key :: s.outerKeys, keyAllowed := true }.take 1 kind

/-- Brackets or braces close. -/
def atClosing (s : Lexing) (kind : TokenKind) : Except Fault Lexing := do
  let s ← s.forgetKey
  let s := match s.outerKeys with
    | [] => s
    | key :: outerKeys => { s with key, outerKeys }
  return { s with keyAllowed := false }.take 1 kind

def atComma (s : Lexing) : Except Fault Lexing := do
  let s ← s.forgetKey
  return { s with keyAllowed := true }.take 1 .flowEntry

/-- A fault for something that cannot begin here. -/
def notAllowed (s : Lexing) (problem : Problem) : Except Fault α :=
  .error (.malformed problem s.cursor.mark none)

/-- An entry of a block sequence. -/
def atEntry (s : Lexing) : Except Fault Lexing := do
  if !s.inFlow && !s.keyAllowed then s.notAllowed .entryNotAllowed
  else
    let s ← (s.openBlockHere .blockSequenceStart).forgetKey
    return { s with keyAllowed := true }.take 1 .blockEntry

/-- A key with an indicator of its own. -/
def atKey (s : Lexing) : Except Fault Lexing := do
  if !s.inFlow && !s.keyAllowed then s.notAllowed .keyNotAllowed
  else
    let s ← (s.openBlockHere .blockMappingStart).forgetKey
    return { s with keyAllowed := !s.inFlow }.take 1 .key

/-- A value: what may have been a key since its line began was one. -/
def atValue (s : Lexing) : Except Fault Lexing :=
  match s.key with
  | some k =>
    let later := s.tokens.length - k.position
    -- the key and the block that it may open go before the tokens of the key
    let keyToken : Token := ⟨.key, k.mark, k.mark⟩
    let s := { s with tokens := s.tokens.take later ++ keyToken :: s.tokens.drop later }
    let s := s.openBlock k.mark.column k.position .blockMappingStart k.mark
    .ok ({ s with key := none, keyAllowed := false }.take 1 .value)
  | none =>
    if !s.inFlow && !s.keyAllowed then s.notAllowed .valueNotAllowed
    else
      let s := s.openBlockHere .blockMappingStart
      .ok ({ s with keyAllowed := !s.inFlow }.take 1 .value)

def atReference (s : Lexing) : Except Fault Lexing :=
  s.read fun c => do
    let (name, next) ← readAnchor .reference c
    return (.reference name, next)

def atAnchor (s : Lexing) : Except Fault Lexing :=
  s.read fun c => do
    let (name, next) ← readAnchor .anchor c
    return (.anchor name, next)

def atTag (s : Lexing) : Except Fault Lexing :=
  s.read fun c => do
    let (handle, suffix, next) ← readTag s.inFlow c
    return (.tag handle suffix, next)

def atQuoted (s : Lexing) (single : Bool) : Except Fault Lexing :=
  s.read fun c => do
    let (text, next) ← readQuoted single c
    return (.scalar (String.ofList text) (if single then .singleQuoted else .doubleQuoted), next)

def atBlock (s : Lexing) (literal : Bool) : Except Fault Lexing := do
  let s ← s.forgetKey
  let (text, next) ← readBlock literal s.indents.head? s.cursor
  let kind := .scalar (String.ofList text) (if literal then .literal else .folded)
  return { s with cursor := next, keyAllowed := true }.emit kind s.cursor.mark

def atPlain (s : Lexing) : Except Fault Lexing := do
  let s ← s.keepKey
  let scalar ← readPlain s.inFlow ((s.indents.head?.map (· + 1)).getD 0) s.cursor
  let kind := .scalar (String.ofList scalar.text) .plain
  return { s with cursor := scalar.next, keyAllowed := scalar.endsLine }.emit kind s.cursor.mark

/-! ## Which token begins here -/

/-- Characters that cannot begin a plain scalar by themselves. -/
def isIndicator (c : Char) : Bool :=
  c ∈ ['-', '?', ':', ',', '[', ']', '\x7b', '\x7d', '#', '&', '*', '!', '|', '>', '\'', '"', '%',
    '@', '`']

/-- Whether a plain scalar begins at the cursor. -/
def atPlainStart (s : Lexing) : Bool :=
  match s.cursor.rest with
  | [] => false
  | char :: rest =>
    !(isGap char || isIndicator char) || (char = '-' && !rest.head?.any isBlank) ||
      (!s.inFlow && (char = '?' || char = ':') && !s.cursor.gapAfter 1)

/-- The next token of a text that goes on, at its first character. -/
def atChar (s : Lexing) (char : Char) : Except Fault Lexing :=
  let c := s.cursor
  -- markers of a whole line
  if c.mark.column = 0 && char = '%' then s.atDirective
  else if c.atTriple '-' then return (← s.leaveDocument).take 3 .documentStart
  else if c.atTriple '.' then return (← s.leaveDocument).take 3 .documentEnd
  -- brackets and braces
  else if char = '[' then s.atOpening .flowSequenceStart
  else if char = '\x7b' then s.atOpening .flowMappingStart
  else if char = ']' then s.atClosing .flowSequenceEnd
  else if char = '\x7d' then s.atClosing .flowMappingEnd
  else if char = ',' then s.atComma
  -- indicators that need a gap after them
  else if char = '-' && c.gapAfter 1 then s.atEntry
  else if char = '?' && (s.inFlow || c.gapAfter 1) then s.atKey
  else if char = ':' && (s.inFlow || c.gapAfter 1) then s.atValue
  -- properties of nodes and scalars
  else if char = '*' then s.atReference
  else if char = '&' then s.atAnchor
  else if char = '!' then s.atTag
  else if char = '|' && !s.inFlow then s.atBlock true
  else if char = '>' && !s.inFlow then s.atBlock false
  else if char = '\'' then s.atQuoted true
  else if char = '"' then s.atQuoted false
  else if s.atPlainStart then s.atPlain
  else faultWithin .nextToken c.mark .strayCharacter c

/-! ## Between tokens -/

/-- The cursor after a comment, if one stands here. -/
def skipComment (c : Cursor) : Cursor :=
  if c.startsWith '#' then c.skipWhile (!isBreak ·) else c

theorem length_rest_skipComment_le (c : Cursor) :
    (skipComment c).rest.length ≤ c.rest.length := by
  unfold skipComment
  split
  · exact c.length_rest_skipWhile_le _
  · exact Nat.le_refl _

/-- The cursor after a byte order mark, if one stands here at the start of a line. -/
def skipByteOrderMark (c : Cursor) : Cursor :=
  if c.mark.column = 0 && c.startsWith '\ufeff' then c.skip 1 else c

theorem length_rest_skipByteOrderMark_le (c : Cursor) :
    (skipByteOrderMark c).rest.length ≤ c.rest.length := by
  unfold skipByteOrderMark
  split
  · exact c.length_rest_skip_le 1
  · exact Nat.le_refl _

/-- The cursor after the white space and comments before a token, and whether a key may begin there:
outside of brackets and braces it may on a new line. A byte order mark counts as a column. -/
def skipBetween (flow keyAllowed : Bool) (c : Cursor) : Cursor × Bool :=
  let isSkipped (char : Char) : Bool := char = ' ' || ((flow || !keyAllowed) && char = '\t')
  let next := skipComment ((skipByteOrderMark c).skipWhile isSkipped)
  match _h : next.rest with
  | [] => (next, keyAllowed)
  | char :: _ =>
    if isBreak char then skipBetween flow (keyAllowed || !flow) (next.skip 1)
    else (next, keyAllowed)
termination_by c.rest.length
decreasing_by
  have hle : next.rest.length ≤ c.rest.length :=
    Nat.le_trans (length_rest_skipComment_le _)
      (Nat.le_trans (Cursor.length_rest_skipWhile_le ..) (length_rest_skipByteOrderMark_le c))
  have hlen := congrArg List.length _h
  rw [List.length_cons] at hlen
  rw [Cursor.rest_skip, List.length_drop]
  change next.rest.length - 1 < c.rest.length
  omega

/-- Reads one more token. -/
def step (s : Lexing) : Except Fault Lexing := do
  let (cursor, keyAllowed) := skipBetween s.inFlow s.keyAllowed s.cursor
  let s ← { s with cursor, keyAllowed }.forgetOver
  let s := s.closeBlocks (some s.cursor.mark.column)
  let s ← match s.cursor.rest with
    | [] => s.atEnd
    | char :: _ => s.atChar char
  s.forgetOver

end Lexing

/-- The tokens of a text, up to the first fault if there is one. -/
structure TokenStream where
  tokens : List Token
  fault : Option Fault
  deriving DecidableEq

/-- Whether the whole text has been cut. -/
def Lexing.hasEnded (s : Lexing) : Bool := s.tokens.head?.any (·.kind = .streamEnd)

/-- Cuts the rest of a text into tokens; every step but the last takes some characters. -/
def tokensFrom (s : Lexing) : TokenStream :=
  match s.step with
  | .error fault => ⟨s.certain, some fault⟩
  | .ok next =>
    if next.hasEnded then ⟨next.tokens.reverse, none⟩
    else if _h : next.cursor.rest.length < s.cursor.rest.length then tokensFrom next
    else ⟨next.tokens.reverse, none⟩
termination_by s.cursor.rest.length
decreasing_by exact _h

/-- Cuts the rest of a text into tokens, where what follows it cannot be taken in: a step that comes
to the place `last` at its end fails with `stop`. -/
def tokensBefore (stop : Fault) (last : Mark) (s : Lexing) : TokenStream :=
  match s.step with
  | .error fault => ⟨s.certain, some (if fault.isAt last then stop else fault)⟩
  | .ok next =>
    if _h : next.cursor.rest ≠ [] ∧ next.cursor.rest.length < s.cursor.rest.length then
      tokensBefore stop last next
    else ⟨s.certain, some stop⟩
termination_by s.cursor.rest.length
decreasing_by exact _h.2

/-- The tokens of a text. A forbidden character comes to light when the block of it is taken in,
which is when all before that block has been cut. -/
def tokens (text : String) : TokenStream :=
  let cs := text.toList
  match forbiddenOffset? cs with
  | none => tokensFrom { cursor := .start cs }
  | some offset =>
    let cursor := Cursor.start (blocksBefore blockBytes [] cs)
    tokensBefore (.forbidden offset) cursor.lastMark { cursor }

end InstallManifest.Yaml
