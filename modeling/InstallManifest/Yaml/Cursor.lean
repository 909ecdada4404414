import InstallManifest.Utf8

/-!
# Places in a YAML text

A text is read from its start to its end by a cursor, which knows the characters still to come and
the place where the first of them stands. Line breaks other than the separators of Unicode are
unified before, so every character moves the cursor in one of two ways: along the line or to the
next.
-/

namespace InstallManifest.Yaml

/-- Whether no description may hold the character as it is. -/
def isForbidden (c : Char) : Bool :=
  let n := c.toNat
  !(n = 0x09 || n = 0x0A || n = 0x0D || (0x20 ≤ n && n ≤ 0x7E) || n = 0x85 ||
    (0xA0 ≤ n && n ≤ 0xFFFD) || 0x10000 ≤ n)

/-- The offset in bytes of the first forbidden character. -/
def forbiddenOffset? (cs : List Char) : Option Nat :=
  if cs.any isForbidden then some (Utf8.size (cs.takeWhile (!isForbidden ·))) else none

/-- How many bytes of a text are taken in at a time. -/
def blockBytes : Nat := 16384

/-- The characters of all blocks before the one with the first forbidden character. A block holds as
many whole characters as it can; `block` are those that it holds so far, the last first, and `room`
is how many bytes it has left. -/
def blocksBefore (room : Nat) (block : List Char) : List Char → List Char
  | [] => []
  | c :: cs =>
    if c.utf8Size ≤ room then
      if isForbidden c then [] else blocksBefore (room - c.utf8Size) (c :: block) cs
    else
      block.reverse ++
        if isForbidden c then [] else blocksBefore (blockBytes - c.utf8Size) [c] cs

/-- One line feed for each line break but the separators. -/
def unifyBreaks : List Char → List Char
  | '\r' :: '\n' :: rest => '\n' :: unifyBreaks rest
  | '\r' :: rest => '\n' :: unifyBreaks rest
  | '\u0085' :: rest => '\n' :: unifyBreaks rest
  | c :: rest => c :: unifyBreaks rest
  | [] => []

/-- Whether a character ends a line; the separators of lines and paragraphs do. -/
def isBreak (c : Char) : Bool := c = '\n' || c = '\u2028' || c = '\u2029'

/-- Space and tab. -/
def isBlank (c : Char) : Bool := c = ' ' || c = '\t'

/-- Whether a character keeps words apart. -/
def isGap (c : Char) : Bool := isBlank c || isBreak c

/-- Whether a character may stand in the name of an anchor or of a tag handle. -/
def isNameChar (c : Char) : Bool := c.isAlphanum || c = '_' || c = '-'

/-- A line and a column, both counted from zero. -/
structure Mark where
  line : Nat := 0
  column : Nat := 0
  /-- How many bytes come before the place in its line. -/
  width : Nat := 0
  deriving DecidableEq

namespace Mark

/-- The place after a character. -/
def after (m : Mark) (c : Char) : Mark :=
  if isBreak c then { line := m.line + 1 }
  else { line := m.line, column := m.column + 1, width := m.width + c.utf8Size }

/-- Whether this is the very start of a text, which messages do not tell. -/
def isOrigin (m : Mark) : Bool := m.line = 0 && m.column = 0

/-- The place as messages tell it, counted from one. -/
def text (m : Mark) : String := s!"line {m.line + 1} column {m.column + 1}"

end Mark

/-- The characters still to come and the place of the first. -/
structure Cursor where
  rest : List Char
  mark : Mark
  deriving DecidableEq

namespace Cursor

/-- The start of a text. -/
def start (text : List Char) : Cursor := ⟨unifyBreaks text, {}⟩

/-- The cursor after the next `n` characters. -/
def skip (c : Cursor) (n : Nat) : Cursor :=
  ⟨c.rest.drop n, (c.rest.take n).foldl Mark.after c.mark⟩

@[simp] theorem rest_skip (c : Cursor) (n : Nat) : (c.skip n).rest = c.rest.drop n := rfl

theorem length_rest_skip_le (c : Cursor) (n : Nat) : (c.skip n).rest.length ≤ c.rest.length := by
  simp only [rest_skip, List.length_drop]
  omega

theorem length_rest_skip_lt {c : Cursor} {n : Nat} (taken : 0 < n) (more : c.rest ≠ []) :
    (c.skip n).rest.length < c.rest.length := by
  have := List.length_pos_iff.2 more
  simp only [rest_skip, List.length_drop]
  omega

/-- The next characters as long as they are of a kind, and the cursor after them. -/
def span (c : Cursor) (p : Char → Bool) : List Char × Cursor :=
  let taken := c.rest.takeWhile p
  (taken, c.skip taken.length)

/-- The cursor after all next characters of a kind. -/
def skipWhile (c : Cursor) (p : Char → Bool) : Cursor := (c.span p).2

theorem length_rest_skipWhile_le (c : Cursor) (p : Char → Bool) :
    (c.skipWhile p).rest.length ≤ c.rest.length := c.length_rest_skip_le _

/-- Whether the next character is the given one. -/
def startsWith (c : Cursor) (char : Char) : Bool := c.rest.head? = some char

/-- Whether a gap or the end of the text comes after the next `n` characters. -/
def gapAfter (c : Cursor) (n : Nat) : Bool := c.rest[n]?.all isGap

/-- The place after all characters still to come. -/
def lastMark (c : Cursor) : Mark := (c.skip c.rest.length).mark

/-- Whether a line ends here. -/
def atLineEnd (c : Cursor) : Bool := c.rest.head?.all isBreak

/-- Whether three of a character stand here at the start of a line, with a gap after them. -/
def atTriple (c : Cursor) (char : Char) : Bool :=
  c.mark.column = 0 && [char, char, char].isPrefixOf c.rest && c.gapAfter 3

/-- Whether a document begins or ends here with a marker of its own. -/
def atDocumentMarker (c : Cursor) : Bool := c.atTriple '-' || c.atTriple '.'

end Cursor

end InstallManifest.Yaml
