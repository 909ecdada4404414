import InstallManifest.Text.Quoted
import InstallManifest.Yaml.Node.Reading
import InstallManifest.Yaml.Scalar

/-!
# Nodes as values

Readers turn nodes into values of a kind that is known beforehand. What does not fit is a mismatch;
it is told with the path and the place of the innermost node that was being read, unless that node
could not be named.
-/

namespace InstallManifest.Yaml

/-- Where in a document a node stands. -/
inductive Path where
  | root
  | field (parent : Path) (key : String)
  | item (parent : Path) (index : Nat)
  /-- The value of a key that is no scalar itself. -/
  | unnamed (parent : Path)
  deriving DecidableEq

namespace Path

/-- The text of a path; the root has none. -/
def text : Path → String
  | root => ""
  | field parent key => (if parent = root then "" else parent.text ++ ".") ++ key
  | item parent index => s!"{parent.text}[{index}]"
  | unnamed parent => (if parent = root then "" else parent.text ++ ".") ++ "?"

end Path

/-! ## What may not fit -/

/-- What was found where something else was expected. -/
inductive Found where
  | meaning (value : Meaning)
  | sequence
  | mapping
  deriving DecidableEq

/-- A whole number as messages tell it: one that takes more than 64 bits is told with its size. -/
def integerText (value : Int) : String :=
  let wide :=
    if value ≥ Int.pow 2 64 then " as u128"
    else if value < -Int.pow 2 63 then " as i128"
    else ""
  s!"integer `{value}`{wide}"

namespace Meaning

/-- A floating point number without its sign, and its sign. -/
def floatText (negative : Bool) (magnitude : List Char) : String :=
  let sign := if negative then ['-'] else []
  String.ofList ("floating point `".toList ++ sign ++ magnitude ++ ['`'])

/-- A meaning as messages tell it. -/
def describe : Meaning → String
  | null => "unit value"
  | boolean value => s!"boolean `{value}`"
  | integer value => integerText value
  | float negative magnitude => floatText negative magnitude.toDecimal.toChars
  | infinity negative => floatText negative "inf".toList
  | notANumber => floatText false "NaN".toList
  | text value => "string " ++ Text.quoted value

end Meaning

def Found.describe : Found → String
  | meaning value => value.describe
  | sequence => "sequence"
  | mapping => "map"

/-- Why a node does not fit. -/
inductive Mismatch where
  | type (found : Found) (expected : String)
  | value (found : String) (expected : String)
  | missingField (name : String)
  | duplicateField (name : String)
  | unknownVariant (found : String) (known : List String)
  deriving DecidableEq

def Mismatch.message : Mismatch → String
  | type found expected => s!"invalid type: {found.describe}, expected {expected}"
  | value found expected => s!"invalid value: string {Text.quoted found}, expected {expected}"
  | missingField name => s!"missing field `{name}`"
  | duplicateField name => s!"duplicate field `{name}`"
  | unknownVariant found known =>
    let names := ", ".intercalate (known.map fun name => s!"`{name}`")
    s!"unknown variant `{found}`, expected one of {names}"

/-- Why a text cannot be decoded. -/
inductive DecodeFault where
  | text (cause : Fault)
  | mismatch (cause : Mismatch) (place : Option (Path × Mark))
  /-- The text holds nothing, but a value is needed. -/
  | ended
  /-- References were followed too often for the size of the document. -/
  | repetition
  | manyDocuments
  deriving DecidableEq

def DecodeFault.message : DecodeFault → String
  | text cause => cause.message
  | mismatch cause none => cause.message
  | mismatch cause (some (path, mark)) =>
    (if path = .root then "" else path.text ++ ": ") ++ cause.message ++ Fault.placeText mark
  | ended => "EOF while parsing a value"
  | repetition => "repetition limit exceeded"
  | manyDocuments =>
    "deserializing from YAML containing more than one document is not supported"

/-! ## Decoding -/

/-- Decoding reads a document and counts the references that it follows. -/
abbrev Decode := ReaderT Document (StateT Nat (Except DecodeFault))

namespace Decode

def fail (fault : DecodeFault) : Decode α := throw fault

/-- A mismatch without a place. -/
def reject (cause : Mismatch) : Decode α := fail (.mismatch cause none)

/-- Gives a place to a mismatch that has none. -/
def within (path : Path) (mark : Mark) (decode : Decode α) : Decode α := fun d count =>
  match decode d count with
  | .error (.mismatch cause none) => .error (.mismatch cause (some (path, mark)))
  | result => result

/-- A mismatch at a place. -/
def rejectAt (path : Path) (mark : Mark) (cause : Mismatch) : Decode α :=
  fail (.mismatch cause (some (path, mark)))

/-- The fault where a document breaks off. -/
def breakOff : Decode α := do
  match (← read).fault with
  | some fault => fail (.text fault)
  | none => fail .ended

/-- How often references may be followed for each thing in a document. -/
def maxRepetition : Nat := 100

/-- Follows a reference. -/
def follow : Node → Decode Node
  | .reference _ id => do
    let count := (← get) + 1
    if count > (← read).root.size * maxRepetition then fail .repetition
    else
      set count
      return ((← read).target? id).getD .void
  | node => return node

/-- Refuses a node, since something else was expected. -/
def refuse (path : Path) (expected : String) : Node → Decode α
  | .cut => breakOff
  | .void => fail .ended
  | .reference mark _ => rejectAt path mark (.type (.meaning .null) expected)
  | .sequence mark _ _ _ => rejectAt path mark (.type .sequence expected)
  | .mapping mark _ _ _ => rejectAt path mark (.type .mapping expected)
  | .scalar mark _ tag style text =>
    match Meaning.ofScalar tag style text with
    | .ok meaning => rejectAt path mark (.type (.meaning meaning) expected)
    | .error wrong => rejectAt path mark (.value wrong.found wrong.expected)

/-- A reader of nodes. -/
abbrev Reader (α : Type) := Path → Node → Decode α

/-! ## Readers of scalars -/

/-- Any scalar, as its text. -/
def textOf (expected : String) : Reader String := fun path node => do
  match ← follow node with
  | .scalar _ _ _ _ text => return text
  | node => refuse path expected node

/-- A text of one character. -/
def char : Reader Char := fun path node => do
  match ← follow node with
  | .scalar mark _ _ _ text =>
    match text.toList with
    | [c] => return c
    | _ => rejectAt path mark (.value text "a character")
  | node => refuse path "a character" node

/-- A scalar that is spelt as a value; it must be plain, or a literal block with the given tag. -/
def spelt (tagName expected : String) (value? : String → Option α) : Reader α := fun path node => do
  match ← follow node with
  | .scalar mark anchor tag style text =>
    let counts := style = .plain || (style = .literal && tag = some (standardTag tagName))
    match if counts then value? text else none with
    | some value => return value
    | none => refuse path expected (.scalar mark anchor tag style text)
  | node => refuse path expected node

/-- A truth value. -/
def boolean : Reader Bool := spelt "bool" "a boolean" boolean?

/-- A natural number below 2^64. -/
def natural : Reader Nat := spelt "int" "usize" fun s => unsigned? (Nat.pow 2 64) s.toList

/-- A value, or none where the scalar is left out or spelt as nothing. -/
def optional (reader : Reader α) : Reader (Option α) := fun path node => do
  match ← follow node with
  | .void => return none
  | .scalar mark anchor tag style text =>
    let some' : Decode (Option α) := some <$> reader path (.scalar mark anchor tag style text)
    if style ≠ .plain then some'
    else
      match tag with
      | none => if text.isEmpty || isNull text then return none else some'
      | some tag =>
        -- a tag other than the one of nothing asks for a value
        if tag ≠ standardTag "null" then some'
        else if isNull text then return none
        else reject (.value text "null")
  | node => some <$> reader path node

/-- Nothing, as the content of a variant: a plain scalar that is left out or spelt as nothing. -/
def unit (path : Path) : Node → Decode Unit
  | .scalar mark _ _ style text =>
    if style = .plain && (text.isEmpty || isNull text) then return ()
    else rejectAt path mark (.value text "null")
  | node => refuse path "unit" node

/-- The variant that a tag names: what follows the exclamation mark, or the mark itself. -/
def variantOfTag? (tag : Option Utf8.Bytes) : Option String :=
  match tag with
  | some (33 :: []) => some "!"
  | some (33 :: rest) => Utf8.decode? rest
  | _ => none

/-- The tag of a node. -/
def tagOf : Node → Option Utf8.Bytes
  | .scalar _ _ tag _ _ => tag
  | .sequence _ _ tag _ => tag
  | .mapping _ _ tag _ => tag
  | _ => none

/-- One of several variants, named by a scalar, or by a tag on nothing. -/
def variant (known : List String) (ofName? : String → Option α) : Reader α := fun path node => do
  let ofName (name : String) : Decode α :=
    match ofName? name with
    | some value => return value
    | none => reject (.unknownVariant name known)
  let node ← follow node
  match variantOfTag? (tagOf node) with
  | some name =>
    -- the name is judged before what it stands on
    let value ← ofName name
    unit path node
    return value
  | none =>
    match node with
    | .scalar mark _ _ _ text => within path mark (ofName text)
    | node => refuse path "a YAML tag starting with '!'" node

/-! ## Readers of sequences and mappings -/

/-- Reads items one after another. -/
def items (reader : Reader α) (path : Path) (index : Nat) : List Node → Decode (List α)
  | [] => return []
  | node :: nodes => do
    let value ← reader (.item path index) node
    return value :: (← items reader path (index + 1) nodes)

/-- A sequence; a scalar that is left out is an empty one. -/
def list (reader : Reader α) : Reader (List α) := fun path node => do
  match ← follow node with
  | .sequence mark _ _ nodes => within path mark (items reader path 0 nodes)
  | .scalar mark anchor tag style text =>
    if style = .plain && text.isEmpty then return []
    else refuse path "a sequence" (.scalar mark anchor tag style text)
  | .void => return []
  | node => refuse path "a sequence" node

/-- Passes over a node that means nothing here; its references are not followed. -/
def ignore : Node → Decode Unit
  | .cut => breakOff
  | _ => return ()

/-- Reads the entries of a mapping one after another. `step` reads the value of a key that it knows
into what has been collected so far. -/
def entries (step : σ → String → Path → Node → Decode σ) (path : Path) (collected : σ) :
    List (Node × Node) → Decode σ
  | [] => return collected
  | (key, value) :: rest => do
    let name ← textOf "field identifier" path key
    -- a key behind a reference has a name but is not shown
    let place : Path :=
      match key with
      | .scalar _ _ _ _ _ => .field path name
      | _ => .unnamed path
    entries step path (← step collected name place value) rest

/-- A mapping with known keys, of which `finish` makes the value; a scalar that is left out is an
empty one. -/
def record (expected : String) (start : σ) (step : σ → String → Path → Node → Decode σ)
    (finish : σ → Decode α) : Reader α := fun path node => do
  match ← follow node with
  | .mapping mark _ _ es => within path mark (entries step path start es >>= finish)
  | .scalar mark anchor tag style text =>
    if style = .plain && text.isEmpty then within path mark (finish start)
    else refuse path expected (.scalar mark anchor tag style text)
  | .void => finish start
  | node => refuse path expected node

/-- Reads a field that may be given once. -/
def once (name : String) (old : Option α) (decode : Decode α) : Decode (Option α) :=
  if old.isSome then reject (.duplicateField name) else some <$> decode

/-- A field that must be given. -/
def required (name : String) : Option α → Decode α
  | some value => return value
  | none => reject (.missingField name)

end Decode

/-- Decodes the only document of a text. -/
def decode (reader : Decode.Reader α) (text : String) : Except DecodeFault α :=
  let d := Document.ofText text
  match reader .root d.root d 0 with
  | .error fault => .error fault
  | .ok (value, _) =>
    match d.fault with
    | some fault => .error (.text fault)
    | none => if d.more then .error .manyDocuments else .ok value

end InstallManifest.Yaml
