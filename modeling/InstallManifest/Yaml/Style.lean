import InstallManifest.Yaml.Scalar

/-!
# Styles of written scalars

A text is written plain where possible, between single quotes where its plain form would be read as
something else, as a literal block where it holds line feeds, and between double quotes where
nothing but an escape can tell some of its characters.
-/

namespace InstallManifest.Yaml

/-- Whether a character ends a line in a text of any kind. -/
def isAnyBreak (c : Char) : Bool := isBreak c || c = '\r' || c = '\u0085'

/-- Whether a character is written as it is outside of escapes. -/
def isPrintable (c : Char) : Bool :=
  let n := c.toNat
  n = 0x0A || (0x20 ≤ n && n ≤ 0x7E) || (0xA0 ≤ n && n ≠ 0xFEFF && n ≠ 0xFFFE && n ≠ 0xFFFF)

/-- Whether some character of a class comes directly before one of another. -/
def hasPair (first second : Char → Bool) : List Char → Bool
  | c :: d :: rest => (first c && second d) || hasPair first second (d :: rest)
  | _ => false

/-- Whether the characters from the second on would end a plain scalar: a colon before white space
or at the end, or a number sign after white space. -/
def hasInnerIndicator : List Char → Bool
  | c :: d :: rest =>
    let blank (c : Char) : Bool := isBlank c || isAnyBreak c
    (d = ':' && rest.head?.all blank) || (d = '#' && blank c) || hasInnerIndicator (d :: rest)
  | _ => false

/-- Whether the first characters of a text begin something other than a plain scalar. -/
def hasFirstIndicator (cs : List Char) : Bool :=
  let blankNext := cs.tail.head?.all fun c => isBlank c || isAnyBreak c
  "---".toList.isPrefixOf cs || "...".toList.isPrefixOf cs ||
    match cs.head? with
    | none => false
    | some c =>
      c ∈ ['#', ',', '[', ']', '\x7b', '\x7d', '&', '*', '!', '|', '>', '\'', '"', '%', '@', '`'] ||
        ((c = '?' || c = ':' || c = '-') && blankNext)

/-- Whether a text has characters that must be escaped, or a space before a line break; then only
double quotes can hold it. -/
def needsEscapes (cs : List Char) : Bool :=
  cs.any (!isPrintable ·) || hasPair (· = ' ') isAnyBreak cs

/-- Whether single quotes can hold a text. -/
def fitsSingleQuotes (cs : List Char) : Bool :=
  !needsEscapes cs && !hasPair isAnyBreak (· = ' ') cs

/-- Whether a plain scalar can hold a text. -/
def fitsPlain (cs : List Char) : Bool :=
  !needsEscapes cs && !cs.any isAnyBreak && cs.head? ≠ some ' ' && cs.getLast? ≠ some ' ' &&
    !hasFirstIndicator cs && !hasInnerIndicator cs

/-- Whether a literal block can hold a text. -/
def fitsLiteral (cs : List Char) : Bool :=
  !cs.isEmpty && !needsEscapes cs && cs.getLast? ≠ some ' '

/-! ## The style of a text -/

/-- The style for a text that shall stand between quotes. -/
def quotingStyle (cs : List Char) : ScalarStyle :=
  if fitsSingleQuotes cs then .singleQuoted else .doubleQuoted

/-- The style for any text. -/
def styleOf (s : String) : ScalarStyle :=
  let cs := s.toList
  -- a text of several lines is easier to read in a block
  if '\n' ∈ cs then if fitsLiteral cs then .literal else .doubleQuoted
  else if meansItself s && fitsPlain cs then .plain
  else quotingStyle cs

/-! ## The characters of a scalar -/

/-- Escapes that are a single letter. -/
def letterEscapes : List (Char × Char) :=
  [('\x00', '0'), ('\x07', 'a'), ('\x08', 'b'), ('\t', 't'), ('\n', 'n'), ('\x0b', 'v'),
    ('\x0c', 'f'), ('\r', 'r'), ('\x1b', 'e'), ('"', '"'), ('\\', '\\'), ('\u0085', 'N'),
    ('\u00a0', '_'), ('\u2028', 'L'), ('\u2029', 'P')]

/-- The lowest hexadecimal digits of a number, in upper case. -/
def upperHex : (count : Nat) → Nat → List Char
  | 0, _ => []
  | count + 1, n => upperHex count (n / 16) ++ [(Nat.digitChar (n % 16)).toUpper]

/-- A character between double quotes. -/
def escapeDouble (c : Char) : List Char :=
  if isPrintable c && !isBreak c && c ≠ '"' && c ≠ '\\' then [c]
  else
    match letterEscapes.lookup c with
    | some letter => ['\\', letter]
    | none =>
      let n := c.toNat
      if n ≤ 0xFF then '\\' :: 'x' :: upperHex 2 n
      else if n ≤ 0xFFFF then '\\' :: 'u' :: upperHex 4 n
      else '\\' :: 'U' :: upperHex 8 n

/-- The text between single quotes, where further lines stand at `indent` columns. The first of
several line breaks is written twice if it is a line feed, since reading folds it. -/
def singleQuotedFrom (indent : Nat) (afterBreak : Bool) : List Char → List Char
  | [] => if afterBreak then List.replicate indent ' ' else []
  | c :: rest =>
    if isBreak c then
      (if !afterBreak && c = '\n' then ['\n', '\n'] else [c]) ++ singleQuotedFrom indent true rest
    else if c = ' ' then ' ' :: singleQuotedFrom indent afterBreak rest
    else
      (if afterBreak then List.replicate indent ' ' else []) ++
        (if c = '\'' then ['\'', '\''] else [c]) ++ singleQuotedFrom indent false rest

/-- The lines of a literal block, which stand at `indent` columns unless they are empty. -/
def literalFrom (indent : Nat) (afterBreak : Bool) : List Char → List Char
  | [] => []
  | c :: rest =>
    if isBreak c then c :: literalFrom indent true rest
    else
      (if afterBreak then List.replicate indent ' ' else []) ++ c :: literalFrom indent false rest

/-- How many columns a block stands to the right of what is around it. -/
def indentStep : Nat := 2

/-- The header of a literal block: the indentation if the text begins with white space, and what
becomes of the line breaks at the end. -/
def literalHeader (cs : List Char) : List Char :=
  let indentation :=
    if cs.head?.any fun c => c = ' ' || isBreak c then Nat.toDigits 10 indentStep else []
  let chomping :=
    if !cs.getLast?.any isBreak then ['-']
    else if cs.dropLast.getLast?.all isBreak then ['+']
    else []
  '|' :: indentation ++ chomping

/-- A scalar in a style, at the end of a line and with its further lines at `indent` columns. -/
def writeScalar (indent : Nat) (style : ScalarStyle) (cs : List Char) : List Char :=
  match style with
  | .plain => cs ++ ['\n']
  | .singleQuoted => '\'' :: singleQuotedFrom indent false cs ++ ['\'', '\n']
  | .doubleQuoted => '"' :: cs.flatMap escapeDouble ++ ['"', '\n']
  | .literal | .folded =>
    let lines := '\n' :: literalFrom indent true cs
    literalHeader cs ++ if lines.getLast?.any isBreak then lines else lines ++ ['\n']

end InstallManifest.Yaml
