import InstallManifest.Number.Binary64
import InstallManifest.Yaml.Node

/-!
# Meanings of scalars

A plain scalar without a tag means nothing, a truth value, a number or its own text, by how it is
spelt. Digits after a leading zero are a text.
-/

namespace InstallManifest.Yaml

/-- What a scalar means. -/
inductive Meaning where
  | null
  | boolean (value : Bool)
  | integer (value : Int)
  | float (negative : Bool) (magnitude : Binary64)
  | infinity (negative : Bool)
  | notANumber
  | text (value : String)
  deriving DecidableEq

/-- Spellings of nothing. -/
def isNull (s : String) : Bool := s ∈ ["null", "Null", "NULL", "~"]

/-- The truth value of a spelling. -/
def boolean? (s : String) : Option Bool :=
  if s ∈ ["true", "True", "TRUE"] then some true
  else if s ∈ ["false", "False", "FALSE"] then some false
  else none

/-- A text without the given beginning. -/
def dropStart? (start : String) (cs : List Char) : Option (List Char) :=
  if start.toList.isPrefixOf cs then some (cs.drop start.length) else none

/-- Whether a sign comes first. -/
def isSigned (cs : List Char) : Bool := cs.head?.any fun c => c = '+' || c = '-'

/-- A text without the plus sign that comes first, if one does. -/
def dropPlus (cs : List Char) : List Char := (dropStart? "+" cs).getD cs

/-- Whether the text is digits that begin with a zero and are no number, after a sign or without
one. -/
def isZeroPadded (cs : List Char) : Bool :=
  let digits := if isSigned cs then cs.tail else cs
  digits.length > 1 && digits.head? = some '0' && digits.tail.all Char.isDigit

/-- Beginnings of numbers that are not decimal, and their bases. -/
def radixes : List (String × Nat) := [("0x", 16), ("0o", 8), ("0b", 2)]

/-- The number after the beginning of a base; `sign` comes before that. -/
def radixNumber? (sign : String) (cs : List Char) : Option Nat :=
  radixes.findSome? fun (start, base) => (dropStart? (sign ++ start) cs).bind (Digit.natural? base)

/-- The number from zero up to a bound that a text denotes. -/
def unsigned? (bound : Nat) (cs : List Char) : Option Nat :=
  let digits := dropPlus cs
  (radixNumber? "" digits).filter (· < bound) <|>
    if isSigned digits || isZeroPadded cs then none
    else (Digit.natural? 10 digits).filter (· < bound)

/-- The number that a text with a minus sign denotes, if it is `-bound` at least. -/
def negative? (bound : Nat) (cs : List Char) : Option Int :=
  let magnitude? := (radixNumber? "-" cs).filter (· ≤ bound) <|>
    if isZeroPadded cs then none
    else ((dropStart? "-" cs).bind (Digit.natural? 10)).filter (· ≤ bound)
  magnitude?.map fun n => -(n : Int)

/-- The whole number that a text denotes, within 128 bits. -/
def integer? (cs : List Char) : Option Int :=
  (unsigned? (Nat.pow 2 128) cs).map (fun n => (n : Int)) <|> negative? (Nat.pow 2 127) cs

/-- The finite number that a text denotes, in decimal with a sign or without one. -/
def finite? (cs : List Char) : Option Meaning :=
  let (negative, digits) :=
    match dropStart? "-" cs with
    | some digits => (true, digits)
    | none => (false, dropPlus cs)
  ((Decimal.ofChars? digits).bind Binary64.ofDecimal?).map (.float negative)

/-- The number that a text denotes in floating point. -/
def float? (cs : List Char) : Option Meaning :=
  let s := String.ofList cs
  if String.ofList (dropPlus cs) ∈ [".inf", ".Inf", ".INF"] then some (.infinity false)
  else if s ∈ ["-.inf", "-.Inf", "-.INF"] then some (.infinity true)
  else if s ∈ [".nan", ".NaN", ".NAN"] then some .notANumber
  else finite? cs

/-- What a plain scalar without a tag means. -/
def Meaning.ofPlain (s : String) : Meaning :=
  let cs := s.toList
  if s.isEmpty || isNull s then .null
  else
    match boolean? s, integer? cs with
    | some value, _ => .boolean value
    | none, some value => .integer value
    | none, none => if isZeroPadded cs then .text s else (float? cs).getD (.text s)

/-- Tags that decide the meaning of a scalar. -/
def standardTag (name : String) : Utf8.Bytes := Utf8.encode ("tag:yaml.org,2002:" ++ name)

/-- Whether a tag is one that a document makes up. -/
def isLocalTag (tag : Utf8.Bytes) : Bool := tag.head? = some 33

/-- A spelling that is no member of what the tag of the scalar names. -/
structure Misspelling where
  found : String
  expected : String
  deriving DecidableEq

/-- What a scalar means: the standard tags ask for a kind, and a quoted text means itself. -/
def Meaning.ofScalar (tag : Option Utf8.Bytes) (style : ScalarStyle) (s : String) :
    Except Misspelling Meaning :=
  let orElse (meaning? : Option Meaning) (expected : String) : Except Misspelling Meaning :=
    match meaning? with
    | some meaning => .ok meaning
    | none => .error ⟨s, expected⟩
  match tag with
  | none => .ok (if style = .plain then ofPlain s else .text s)
  | some tag =>
    if tag = standardTag "bool" then orElse ((boolean? s).map .boolean) "a boolean"
    else if tag = standardTag "int" then orElse ((integer? s.toList).map .integer) "an integer"
    else if tag = standardTag "float" then orElse (float? s.toList) "a float"
    else if tag = standardTag "null" then orElse (if isNull s then some .null else none) "null"
    else .ok (if isLocalTag tag && style = .plain then ofPlain s else .text s)

/-- Whether a text is read back from a plain scalar. -/
def meansItself (s : String) : Bool :=
  match Meaning.ofPlain s with
  | .text _ => !isZeroPadded s.toList
  | _ => false

end InstallManifest.Yaml
