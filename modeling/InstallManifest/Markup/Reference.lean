import InstallManifest.Number.Digit
import InstallManifest.Utf8

/-!
# References

Characters that have a meaning in markup, and white space that a reader would turn into a space,
are written in attribute values as references. `escape` writes them and `unescape` reads them,
along with every other character reference.
-/

namespace InstallManifest.Markup

/-- How one character is written inside an attribute value. -/
def escapeChar (c : Char) : List Char :=
  if c = '<' then ['&', 'l', 't', ';']
  else if c = '>' then ['&', 'g', 't', ';']
  else if c = '\'' then ['&', 'a', 'p', 'o', 's', ';']
  else if c = '&' then ['&', 'a', 'm', 'p', ';']
  else if c = '"' then ['&', 'q', 'u', 'o', 't', ';']
  else if c = '\t' then ['&', '#', '9', ';']
  else if c = '\n' then ['&', '#', '1', '0', ';']
  else if c = '\r' then ['&', '#', '1', '3', ';']
  else [c]

/-- The written form of an attribute value. -/
def escape (cs : List Char) : List Char := cs.flatMap escapeChar

/-- Why a number is no character reference. -/
inductive NumberFault where
  | sign
  | empty
  | digit
  | tooLarge
  | zero
  | notCharacter (code : Nat)
  deriving DecidableEq

def NumberFault.message : NumberFault → String
  | sign => "unexpected number sign"
  | empty => "cannot parse integer from empty string"
  | digit => "invalid digit found in string"
  | tooLarge => "number too large to fit in target type"
  | zero => "0x0 character is not permitted in XML"
  | notCharacter code => s!"`{code}` is not a valid codepoint"

/-- Why an attribute value cannot be read. Positions are byte offsets in the written value, and
`stop` is the first one after the place. -/
inductive ReferenceFault where
  | unterminated (start stop : Nat)
  | unknown (start stop : Nat) (name : List Char)
  | number (cause : NumberFault)
  deriving DecidableEq

def ReferenceFault.message : ReferenceFault → String
  | unterminated start stop =>
    s!"Error while escaping character at range {start}..{stop}: Cannot find ';' after '&'"
  | unknown start stop name => s!"at {start}..{stop}: unrecognized entity `{String.ofList name}`"
  | number cause => s!"invalid character reference: {cause.message}"

/-- Reads on in a number below 2^32, given the value so far; the first fault from the left
counts. -/
def numberFrom (base : Nat) : (value : Nat) → List Char → Except NumberFault Nat
  | value, [] => .ok value
  | value, c :: cs =>
    match Digit.value? base c with
    | none => .error .digit
    | some d =>
      if value * base + d < 2 ^ 32 then numberFrom base (value * base + d) cs
      else .error .tooLarge

/-- Reads a number without a sign. -/
def number (base : Nat) : List Char → Except NumberFault Nat
  | [] => .error .empty
  | c :: cs => if c = '+' || c = '-' then .error .sign else numberFrom base 0 (c :: cs)

/-- The character of a reference, given what stands between `&#` and `;`. -/
def characterReference (body : List Char) : Except NumberFault Char := do
  let code ← match body with
    | 'x' :: digits => number 16 digits
    | digits => number 10 digits
  if code = 0 then .error .zero
  else if code.isValidChar then .ok (Char.ofNat code)
  else .error (.notCharacter code)

/-- The characters that have a name. -/
def named : List (List Char × Char) :=
  [(['l', 't'], '<'), (['g', 't'], '>'), (['a', 'm', 'p'], '&'), (['a', 'p', 'o', 's'], '\''),
    (['q', 'u', 'o', 't'], '"')]

/-- The character that a reference stands for, given what is between `&` and `;` and the offset of
that in the value. -/
def resolve (start : Nat) (body : List Char) : Except ReferenceFault Char :=
  match body with
  | '#' :: digits => (characterReference digits).mapError .number
  | name =>
    match named.lookup name with
    | some c => .ok c
    | none => .error (.unknown start (start + Utf8.size name) name)

/-- Splits at the `;` that ends a reference; `none` if the list ends, or a character that `breaks`
a reference comes, before it. -/
def splitReference (breaks : Char → Bool) : List Char → Option (List Char × List Char)
  | [] => none
  | c :: cs =>
    if c = ';' then some ([], cs)
    else if breaks c then none
    else (splitReference breaks cs).map fun (body, rest) => (c :: body, rest)

theorem splitReference_length {breaks : Char → Bool} {cs body rest : List Char}
    (h : splitReference breaks cs = some (body, rest)) : rest.length < cs.length := by
  induction cs generalizing body rest with
  | nil => simp [splitReference] at h
  | cons c cs ih =>
    rw [splitReference] at h
    split at h
    · simp only [Option.some.injEq, Prod.mk.injEq] at h
      simp [h.2]
    · split at h
      · simp at h
      · obtain ⟨⟨b, r⟩, hr, heq⟩ := Option.map_eq_some_iff.1 h
        have := ih hr
        simp only [Prod.mk.injEq] at heq
        simp only [List.length_cons, ← heq.2]
        omega

/-- Reads a value from byte offset `start` on, where the whole value has `stop` bytes. -/
def unescapeFrom (start stop : Nat) : List Char → Except ReferenceFault (List Char)
  | [] => .ok []
  | c :: cs =>
    if c = '&' then
      match h : splitReference (· = '&') cs with
      | none => .error (.unterminated start stop)
      | some (body, rest) => do
        let char ← resolve (start + 1) body
        let text ← unescapeFrom (start + Utf8.size body + 2) stop rest
        .ok (char :: text)
    else do
      let text ← unescapeFrom (start + c.utf8Size) stop cs
      .ok (c :: text)
termination_by cs => cs.length
decreasing_by
  · exact Nat.lt_succ_of_lt (splitReference_length h)
  · exact Nat.lt_succ_self _

/-- The text that a written attribute value stands for. -/
def unescape (raw : List Char) : Except ReferenceFault (List Char) :=
  unescapeFrom 0 (Utf8.size raw) raw

end InstallManifest.Markup
