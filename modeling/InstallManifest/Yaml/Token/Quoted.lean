import InstallManifest.Number.Digit
import InstallManifest.Yaml.Token.Plain

/-!
# Quoted scalars

Between single quotes only the quote itself is written in a special way, as two of them. Between
double quotes a backslash begins an escape, and one at the end of a line joins it to the next.
-/

namespace InstallManifest.Yaml

/-- What the character after a backslash stands for. -/
def simpleEscapes : List (Char × Char) :=
  [('0', '\x00'), ('a', '\x07'), ('b', '\x08'), ('t', '\t'), ('\t', '\t'), ('n', '\n'),
    ('v', '\x0b'), ('f', '\x0c'), ('r', '\r'), ('e', '\x1b'), (' ', ' '), ('"', '"'), ('/', '/'),
    ('\\', '\\'), ('N', '\u0085'), ('_', '\u00a0'), ('L', '\u2028'), ('P', '\u2029')]

/-- How many hexadecimal digits follow the character after a backslash. -/
def codeEscapes : List (Char × Nat) := [('x', 2), ('u', 4), ('U', 8)]

/-- The value of the next `n` characters as hexadecimal digits. -/
def hexValue? (n : Nat) (cs : List Char) : Option Nat :=
  if cs.length < n then none else Digit.natural? 16 (cs.take n)

/-- The escape that begins with the backslash here: the character that it stands for, and how many
digits follow the letter after the backslash. -/
def readEscape (start : Mark) (c : Cursor) : Except Fault (Char × Nat) :=
  match c.rest[1]? with
  | none => faultWithin .quotedEscape start .escapeUnknown c
  | some letter =>
    match simpleEscapes.lookup letter, codeEscapes.lookup letter with
    | some char, _ => .ok (char, 0)
    | none, none => faultWithin .quotedEscape start .escapeUnknown c
    | none, some n =>
      let digits := c.skip 2
      match hexValue? n digits.rest with
      | none => faultWithin .quotedEscape start .escapeDigits digits
      | some code =>
        if code.isValidChar then .ok (Char.ofNat code, n)
        else faultWithin .quotedEscape start .escapeCode digits

/-! ## Words between quotes -/

/-- How a word between quotes ended. -/
inductive QuotedStop where
  /-- At a gap, at the closing quote or with the text. -/
  | plainly
  /-- At a backslash with a line break after it. -/
  | joined
  deriving DecidableEq

/-- The characters from here to the next gap or closing quote, put before what was read so far, last
character first. -/
def quotedWord (single : Bool) (start : Mark) (word : List Char) (c : Cursor) :
    Except Fault (List Char × QuotedStop × Cursor) :=
  match _h : c.rest with
  | [] => .ok (word.reverse, .plainly, c)
  | char :: rest =>
    if isGap char then .ok (word.reverse, .plainly, c)
    else if single then
      if char = '\'' then
        -- two single quotes stand for one
        if rest.head? = some '\'' then quotedWord single start ('\'' :: word) (c.skip 2)
        else .ok (word.reverse, .plainly, c)
      else quotedWord single start (char :: word) (c.skip 1)
    else if char = '"' then .ok (word.reverse, .plainly, c)
    else if char = '\\' then
      -- the break after the backslash is dropped
      if rest.head?.any isBreak then .ok (word.reverse, .joined, c.skip 2)
      else
        match readEscape start c with
        | .error fault => .error fault
        | .ok (char, digits) => quotedWord single start (char :: word) (c.skip (digits + 2))
    else quotedWord single start (char :: word) (c.skip 1)
termination_by c.rest.length
decreasing_by all_goals simp [_h]; try omega

/-- The quote that begins and ends a scalar. -/
def quoteOf (single : Bool) : Char := if single then '\'' else '"'

theorem length_rest_quotedWord_le {single : Bool} {start : Mark} {word text : List Char}
    {c next : Cursor} {stop : QuotedStop}
    (h : quotedWord single start word c = .ok (text, stop, next)) :
    next.rest.length ≤ c.rest.length := by
  fun_induction quotedWord single start word c with
  | case1 | case2 | case4 | case6 => cases h; exact Nat.le_refl _
  | case3 | case5 | case9 | case10 =>
    rename_i ih
    exact Nat.le_trans (ih h) (Cursor.length_rest_skip_le ..)
  | case7 => cases h; exact Cursor.length_rest_skip_le ..
  | case8 => cases h

/-- A word between quotes takes something, unless a gap or the closing quote comes first, or nothing
at all. -/
theorem quotedWord_progress {single : Bool} {start : Mark} {word text : List Char} {c next : Cursor}
    {stop : QuotedStop} (h : quotedWord single start word c = .ok (text, stop, next)) :
    next.rest.length < c.rest.length ∨
      next = c ∧ ∀ char ∈ c.rest.head?, isGap char = true ∨ char = quoteOf single := by
  have more {char : Char} {rest : List Char} (hc : c.rest = char :: rest) : c.rest ≠ [] := by
    simp [hc]
  unfold quotedWord at h
  split at h
  · next hc => cases h; simp [hc]
  · next char rest hc =>
    have taken {n : Nat} (hn : 0 < n) := Cursor.length_rest_skip_lt hn (more hc)
    split at h
    · next gap => cases h; simp [hc, gap]
    · split at h
      · next isSingle =>
        split at h
        · next quote =>
          split at h
          · exact .inl (Nat.lt_of_le_of_lt (length_rest_quotedWord_le h) (taken (by decide)))
          · cases h; simp [hc, quote, quoteOf, isSingle]
        · exact .inl (Nat.lt_of_le_of_lt (length_rest_quotedWord_le h) (taken (by decide)))
      · next isDouble =>
        split at h
        · next quote => cases h; simp [hc, quote, quoteOf, isDouble]
        · split at h
          · split at h
            · cases h; exact .inl (taken (by decide))
            · split at h
              · cases h
              · exact .inl (Nat.lt_of_le_of_lt (length_rest_quotedWord_le h) (taken (by omega)))
          · exact .inl (Nat.lt_of_le_of_lt (length_rest_quotedWord_le h) (taken (by decide)))

/-- What a gap between quotes means; after a joined line all its breaks stay. -/
def quotedGap (stop : QuotedStop) (between : List Char) : List Char :=
  match stop with
  | .plainly => (Gap.ofChars between).folded
  | .joined => between.filter isBreak

/-- Goes on with a quoted scalar that began at `start`, up to its closing quote. -/
def quotedFrom (single : Bool) (start : Mark) (text : List Char) (c : Cursor) :
    Except Fault (List Char × Cursor) :=
  if c.atDocumentMarker then faultWithin .quotedScalar start .documentInQuotes c
  else if _hc : c.rest = [] then faultWithin .quotedScalar start .endInQuotes c
  else
    match _hw : quotedWord single start [] c with
    | .error fault => .error fault
    | .ok (word, stop, c') =>
      if _hq : c'.startsWith (quoteOf single) then .ok (text ++ word, c'.skip 1)
      else
        let between := c'.rest.takeWhile isGap
        quotedFrom single start (text ++ word ++ quotedGap stop between) (c'.skip between.length)
termination_by c.rest.length
decreasing_by
  rcases quotedWord_progress _hw with shorter | ⟨rfl, first⟩
  · exact Nat.lt_of_le_of_lt (Cursor.length_rest_skip_le ..) shorter
  · obtain ⟨char, rest, hrest⟩ := List.exists_cons_of_ne_nil _hc
    have gap : isGap char = true := by
      rcases first char (by simp [hrest]) with gap | quote
      · exact gap
      · simp [Cursor.startsWith, hrest, quote] at _hq
    refine Cursor.length_rest_skip_lt ?_ _hc
    simp [hrest, gap]

/-- The quoted scalar that begins with the quote here. -/
def readQuoted (single : Bool) (c : Cursor) : Except Fault (List Char × Cursor) :=
  quotedFrom single c.mark [] (c.skip 1)

end InstallManifest.Yaml
