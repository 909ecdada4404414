import InstallManifest.Yaml.Token

/-!
# Block scalars

A block scalar is a header line and the lines below it that are indented as its first line is. The
literal style keeps line breaks, the folded style makes spaces of some. The header may give the
indentation and may say what becomes of the breaks at the end.
-/

namespace InstallManifest.Yaml

/-- What becomes of the line breaks at the end. -/
inductive Chomping where
  /-- None is kept. -/
  | strip
  /-- One is kept. -/
  | clip
  /-- All are kept. -/
  | keep
  deriving DecidableEq

/-- What the header of a block scalar says. -/
structure BlockHeader where
  chomping : Chomping := .clip
  /-- The columns of indentation below the parent, if given. -/
  indentation : Option Nat := none
  deriving DecidableEq

/-- The chomping that a character stands for. -/
def Chomping.ofChar? (c : Char) : Option Chomping :=
  if c = '+' then some keep else if c = '-' then some strip else none

/-- The chomping that is given here, if any, and the cursor after it. -/
def readChomping (c : Cursor) : Option Chomping × Cursor :=
  match c.rest.head?.bind Chomping.ofChar? with
  | some chomping => (some chomping, c.skip 1)
  | none => (none, c)

/-- The indentation that is given here, if any, and the cursor after it. -/
def readIndentation (start : Mark) (c : Cursor) : Except Fault (Option Nat × Cursor) :=
  match c.rest.head? with
  | some digit =>
    if digit = '0' then faultWithin .blockScalar start .indentationZero c
    else if digit.isDigit then .ok (some (digit.toNat - '0'.toNat), c.skip 1)
    else .ok (none, c)
  | none => .ok (none, c)

/-- The header after the indicator of the style; its parts may come in either order. -/
def readHeader (start : Mark) (c : Cursor) : Except Fault (BlockHeader × Cursor) := do
  match readChomping c with
  | (some chomping, c) =>
    let (indentation, c) ← readIndentation start c
    return (⟨chomping, indentation⟩, c)
  | (none, c) =>
    let (indentation, c) ← readIndentation start c
    if indentation.isSome then
      let (chomping, c) := readChomping c
      return (⟨chomping.getD .clip, indentation⟩, c)
    else return ({}, c)

/-- The cursor after the rest of a line that holds nothing but a comment, and after the line's
break. -/
def skipLineRest (context : Context) (start : Mark) (c : Cursor) : Except Fault Cursor :=
  let c := c.skipWhile isBlank
  let c := if c.startsWith '#' then c.skipWhile (!isBreak ·) else c
  if c.atLineEnd then .ok (c.skip 1) else faultWithin context start .commentOrBreakExpected c

/-! ## Lines -/

/-- Lines without content, up to the first that has some. -/
structure EmptyLines where
  breaks : List Char
  /-- The most columns that spaces took in one of the lines. -/
  widest : Nat
  next : Cursor

/-- Reads lines without content, where at most `indent` columns of each are indentation; any number
of them is if `indent` is zero. -/
def readEmptyLines (start : Mark) (indent : Nat) (breaks : List Char) (widest : Nat) (c : Cursor) :
    Except Fault EmptyLines :=
  -- spaces beyond the indentation are content
  let spaces := (c.rest.takeWhile (· = ' ')).length
  let c' := c.skip (if indent = 0 then spaces else min spaces (indent - c.mark.column))
  let widest := max widest c'.mark.column
  if (indent = 0 || c'.mark.column < indent) && c'.startsWith '\t' then
    faultWithin .blockScalar start .tabInIndentation c'
  else
    match _h : c'.rest with
    | [] => .ok ⟨breaks, widest, c'⟩
    | char :: _ =>
      if isBreak char then readEmptyLines start indent (breaks ++ [char]) widest (c'.skip 1)
      else .ok ⟨breaks, widest, c'⟩
termination_by c.rest.length
decreasing_by
  have hle : c'.rest.length ≤ c.rest.length := by
    simp only [c', Cursor.rest_skip, List.length_drop]
    omega
  simp only [Cursor.rest_skip, List.length_drop, _h, List.length_cons] at hle ⊢
  omega

theorem length_rest_readEmptyLines_le {start : Mark} {indent : Nat} {breaks : List Char}
    {widest : Nat} {c : Cursor} {lines : EmptyLines}
    (h : readEmptyLines start indent breaks widest c = .ok lines) :
    lines.next.rest.length ≤ c.rest.length := by
  fun_induction readEmptyLines start indent breaks widest c with
  | case1 => cases h
  | case2 breaks widest c spaces c' =>
    cases h
    simp only [c', Cursor.rest_skip, List.length_drop]
    omega
  | case3 breaks widest c spaces c' widest' _ char rest hrest _ ih =>
    have := ih h
    simp only [c', Cursor.rest_skip, List.length_drop] at this
    omega
  | case4 breaks widest c spaces c' =>
    cases h
    simp only [c', Cursor.rest_skip, List.length_drop]
    omega

/-- A block scalar of which some lines have been read. -/
structure BlockText where
  text : List Char := []
  /-- The break that ended the last line with content. -/
  lastBreak : List Char := []
  /-- The breaks of the lines without content after it. -/
  emptyBreaks : List Char := []
  /-- Whether the last line with content began with a blank. -/
  blankStart : Bool := false

/-- Adds one line with content to a block scalar, after the breaks that came before it. In the
folded style a single break between two lines that begin without a blank becomes a space. -/
def BlockText.addLine (literal : Bool) (b : BlockText) (line : List Char) : List Char :=
  let blank := line.head?.any isBlank
  -- lines that begin with a blank keep the breaks around them
  let folds := !literal && b.lastBreak = ['\n'] && !b.blankStart && !blank
  let gap :=
    if folds then if b.emptyBreaks.isEmpty then [' '] else b.emptyBreaks
    else b.lastBreak ++ b.emptyBreaks
  b.text ++ gap ++ line

/-- Goes on with the lines of a block scalar that stand at `indent` columns. -/
def blockFrom (literal : Bool) (start : Mark) (indent : Nat) (b : BlockText) (c : Cursor) :
    Except Fault (BlockText × Cursor) :=
  if _hc : c.mark.column ≠ indent ∨ c.rest = [] then .ok (b, c)
  else
    let line := c.rest.takeWhile (!isBreak ·)
    let c' := c.skip line.length
    match _h : readEmptyLines start indent [] 0 (c'.skip 1) with
    | .error fault => .error fault
    | .ok lines =>
      let b' : BlockText := {
        text := b.addLine literal line
        lastBreak := c'.rest.take 1
        emptyBreaks := lines.breaks
        blankStart := line.head?.any isBlank }
      blockFrom literal start indent b' lines.next
termination_by c.rest.length
decreasing_by
  have hle := length_rest_readEmptyLines_le _h
  have hpos : 0 < c.rest.length := List.length_pos_iff.2 (not_or.1 _hc).2
  simp only [c', Cursor.rest_skip, List.length_drop] at hle
  omega

/-- The text of a block scalar with the breaks at its end chomped. -/
def BlockText.chomped (b : BlockText) : Chomping → List Char
  | .strip => b.text
  | .clip => b.text ++ b.lastBreak
  | .keep => b.text ++ b.lastBreak ++ b.emptyBreaks

/-- The block scalar whose indicator stands here, in a block indented by `parent` columns, which are
none at the top. -/
def readBlock (literal : Bool) (parent : Option Nat) (c : Cursor) :
    Except Fault (List Char × Cursor) := do
  let start := c.mark
  let (header, c) ← readHeader start (c.skip 1)
  let c ← skipLineRest .blockScalar start c
  let given := (header.indentation.map (parent.getD 0 + ·)).getD 0
  let lines ← readEmptyLines start given [] 0 c
  let least := (parent.map (· + 1)).getD 1
  -- without an indicator the first line with content decides
  let indent := if given = 0 then max lines.widest least else given
  let (b, c) ← blockFrom literal start indent { emptyBreaks := lines.breaks } lines.next
  return (b.chomped header.chomping, c)

end InstallManifest.Yaml
