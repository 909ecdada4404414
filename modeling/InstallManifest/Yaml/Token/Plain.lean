import InstallManifest.Yaml.Token

/-!
# Plain scalars

A plain scalar is a run of words. What stands between two of its words is kept as it is within a
line and folded across lines.
-/

namespace InstallManifest.Yaml

/-- What stands between two words, blanks that touch a line break apart. -/
inductive Gap where
  /-- Blanks within a line. -/
  | inner (blanks : List Char)
  /-- Line breaks. -/
  | lines (first : Char) (more : List Char)
  deriving DecidableEq

namespace Gap

def ofChars (cs : List Char) : Gap :=
  match cs.filter isBreak with
  | [] => inner cs
  | first :: more => lines first more

def spansLines : Gap → Bool
  | inner _ => false
  | lines _ _ => true

/-- What a gap means: a single line feed becomes a space, and of several the first is dropped; the
separators of Unicode stay. -/
def folded : Gap → List Char
  | inner blanks => blanks
  | lines '\n' [] => [' ']
  | lines '\n' more => more
  | lines first more => first :: more

end Gap

/-- Characters that end a word between brackets or braces. -/
def isFlowIndicator (c : Char) : Bool :=
  c = ',' || c = '[' || c = ']' || c = '\x7b' || c = '\x7d'

/-- Whether a colon before the given rest is no part of a word in any case: between brackets or
braces that is an error. -/
def isColonFault (flow : Bool) : List Char → Bool
  | ':' :: next :: _ => flow && (isFlowIndicator next || next = '?')
  | _ => false

/-- Whether a plain scalar goes no further than these characters. -/
def endsPlainWord (flow : Bool) : List Char → Bool
  | [] => true
  | c :: rest =>
    isGap c || (c = ':' && rest.head?.all isGap) || (flow && isFlowIndicator c) ||
      isColonFault flow (c :: rest)

/-- The word that begins here. -/
def plainWord (flow : Bool) : List Char → List Char
  | [] => []
  | c :: rest => if endsPlainWord flow (c :: rest) then [] else c :: plainWord flow rest

theorem length_plainWord_le (flow : Bool) (cs : List Char) :
    (plainWord flow cs).length ≤ cs.length := by
  induction cs with
  | nil => exact Nat.le_refl _
  | cons c rest ih =>
    unfold plainWord
    split
    · exact Nat.zero_le _
    · exact Nat.succ_le_succ ih

/-- Where a tab stands before `indent` columns at the start of a line, in a gap that begins at the
mark. -/
def tabInIndentation? (indent : Nat) (newLine : Bool) (m : Mark) : List Char → Option Mark
  | [] => none
  | c :: rest =>
    if newLine && c = '\t' && m.column < indent then some m
    else tabInIndentation? indent (newLine || isBreak c) (m.after c) rest

/-- What was read of a plain scalar. -/
structure PlainScalar where
  text : List Char
  /-- Whether the scalar ended with a line, so that the next line may begin with a key. -/
  endsLine : Bool
  next : Cursor

/-- Goes on with a plain scalar that began at `start` and whose lines stand at `indent` columns at
least. So far it has the given text, then a gap. -/
def plainFrom (flow : Bool) (indent : Nat) (start : Mark) (text : List Char) (gap : Gap)
    (c : Cursor) : Except Fault PlainScalar :=
  let word := plainWord flow c.rest
  let c' := c.skip word.length
  let between := c'.rest.takeWhile isGap
  let next := c'.skip between.length
  -- the gap is not part of the scalar unless a word follows
  if c.atDocumentMarker || c.startsWith '#' then .ok ⟨text, gap.spansLines, c⟩
  else if isColonFault flow c'.rest then faultWithin .plainScalar start .colonInText c'
  else if _hw : word = [] then .ok ⟨text, gap.spansLines, c⟩
  else if between.isEmpty then .ok ⟨text ++ gap.folded ++ word, false, c'⟩
  else
    match tabInIndentation? indent false c'.mark between with
    | some m => .error (.malformed .tabBeforeText m (some (.plainScalar, start)))
    | none =>
      let text := text ++ gap.folded ++ word
      let gap := Gap.ofChars between
      -- to the left of its block a line belongs to something else
      if !flow && next.mark.column < indent then .ok ⟨text, gap.spansLines, next⟩
      else plainFrom flow indent start text gap next
termination_by c.rest.length
decreasing_by
  have hpos : 0 < (plainWord flow c.rest).length := List.length_pos_iff.2 _hw
  have hle := length_plainWord_le flow c.rest
  simp only [Cursor.rest_skip, List.length_drop]
  omega

/-- The plain scalar that begins here. -/
def readPlain (flow : Bool) (indent : Nat) (c : Cursor) : Except Fault PlainScalar :=
  plainFrom flow indent c.mark [] (.inner []) c

end InstallManifest.Yaml
