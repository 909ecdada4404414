import InstallManifest.Yaml.Cursor

/-!
# Faults of a YAML text

A fault says what is wrong and where, and often within what it was found and where that begins.
-/

namespace InstallManifest.Yaml

/-- What is wrong. -/
inductive Problem where
  | keyWithoutValue
  | strayCharacter
  | entryNotAllowed
  | keyNotAllowed
  | valueNotAllowed
  | directiveNameMissing
  | directiveNameUnclear
  | directiveUnknown
  | versionMissing
  | versionTooLong
  | versionIncomplete
  | spaceExpected
  | spaceOrBreakExpected
  | commentOrBreakExpected
  | exclamationExpected
  | angleExpected
  | uriExpected
  | octetExpected
  | leadingOctet
  | trailingOctet
  | nameExpected
  | indentationZero
  | tabInIndentation
  | tabBeforeText
  | colonInText
  | documentInQuotes
  | endInQuotes
  | escapeUnknown
  | escapeDigits
  | escapeCode
  | documentStartExpected
  | versionTwice
  | versionUnsupported
  | handleTwice
  | handleUnknown
  | contentExpected
  | entryExpected
  | keyExpected
  | sequenceCommaExpected
  | mappingCommaExpected
  deriving DecidableEq

def Problem.message : Problem → String
  | keyWithoutValue => "could not find expected ':'"
  | strayCharacter => "found character that cannot start any token"
  | entryNotAllowed => "block sequence entries are not allowed in this context"
  | keyNotAllowed => "mapping keys are not allowed in this context"
  | valueNotAllowed => "mapping values are not allowed in this context"
  | directiveNameMissing => "could not find expected directive name"
  | directiveNameUnclear => "found unexpected non-alphabetical character"
  | directiveUnknown => "found unknown directive name"
  | versionMissing => "did not find expected version number"
  | versionTooLong => "found extremely long version number"
  | versionIncomplete => "did not find expected digit or '.' character"
  | spaceExpected => "did not find expected whitespace"
  | spaceOrBreakExpected => "did not find expected whitespace or line break"
  | commentOrBreakExpected => "did not find expected comment or line break"
  | exclamationExpected => "did not find expected '!'"
  | angleExpected => "did not find the expected '>'"
  | uriExpected => "did not find expected tag URI"
  | octetExpected => "did not find URI escaped octet"
  | leadingOctet => "found an incorrect leading UTF-8 octet"
  | trailingOctet => "found an incorrect trailing UTF-8 octet"
  | nameExpected => "did not find expected alphabetic or numeric character"
  | indentationZero => "found an indentation indicator equal to 0"
  | tabInIndentation => "found a tab character where an indentation space is expected"
  | tabBeforeText => "found a tab character that violates indentation"
  | colonInText => "found unexpected ':'"
  | documentInQuotes => "found unexpected document indicator"
  | endInQuotes => "found unexpected end of stream"
  | escapeUnknown => "found unknown escape character"
  | escapeDigits => "did not find expected hexadecimal number"
  | escapeCode => "found invalid Unicode character escape code"
  | documentStartExpected => "did not find expected <document start>"
  | versionTwice => "found duplicate %YAML directive"
  | versionUnsupported => "found incompatible YAML document"
  | handleTwice => "found duplicate %TAG directive"
  | handleUnknown => "found undefined tag handle"
  | contentExpected => "did not find expected node content"
  | entryExpected => "did not find expected '-' indicator"
  | keyExpected => "did not find expected key"
  | sequenceCommaExpected => "did not find expected ',' or ']'"
  | mappingCommaExpected => "did not find expected ',' or '\x7d'"

/-- Within what something is wrong. -/
inductive Context where
  | simpleKey
  | nextToken
  | directive
  | versionDirective
  | tagDirective
  | tagDirectiveHandle
  | tagDirectiveHandleEnd
  | tagDirectiveUri
  | anchor
  | reference
  | tag
  | tagUri
  | blockScalar
  | quotedScalar
  | quotedEscape
  | plainScalar
  | node
  | blockNode
  | flowNode
  | blockSequence
  | blockMapping
  | flowSequence
  | flowMapping
  deriving DecidableEq

def Context.message : Context → String
  | simpleKey => "while scanning a simple key"
  | nextToken => "while scanning for the next token"
  | directive => "while scanning a directive"
  | versionDirective => "while scanning a %YAML directive"
  | tagDirective => "while scanning a %TAG directive"
  | tagDirectiveHandle => "while scanning a tag directive"
  | tagDirectiveHandleEnd => "while parsing a tag directive"
  | tagDirectiveUri => "while parsing a %TAG directive"
  | anchor => "while scanning an anchor"
  | reference => "while scanning an alias"
  | tag => "while scanning a tag"
  | tagUri => "while parsing a tag"
  | blockScalar => "while scanning a block scalar"
  | quotedScalar => "while scanning a quoted scalar"
  | quotedEscape => "while parsing a quoted scalar"
  | plainScalar => "while scanning a plain scalar"
  | node => "while parsing a node"
  | blockNode => "while parsing a block node"
  | flowNode => "while parsing a flow node"
  | blockSequence => "while parsing a block collection"
  | blockMapping => "while parsing a block mapping"
  | flowSequence => "while parsing a flow sequence"
  | flowMapping => "while parsing a flow mapping"

/-- Why a text cannot be read as YAML. -/
inductive Fault where
  /-- A forbidden character, so many bytes after the start. -/
  | forbidden (offset : Nat)
  | malformed (problem : Problem) (mark : Mark) (context : Option (Context × Mark))
  /-- A reference to an anchor that no node before it has. -/
  | unknownAnchor (mark : Mark)
  deriving DecidableEq

namespace Fault

/-- A place as it follows a message; the very start is left out. -/
def placeText (m : Mark) : String := if m.isOrigin then "" else s!" at {m.text}"

/-- The context is told with its place only if that is another one. -/
def contextText (mark : Mark) : Option (Context × Mark) → String
  | none => ""
  | some (context, start) =>
    ", " ++ context.message ++ if start = mark then "" else placeText start

/-- Whether a fault was found at a place. -/
def isAt (m : Mark) : Fault → Bool
  | forbidden _ => false
  | malformed _ mark _ => mark = m
  | unknownAnchor mark => mark = m

def message : Fault → String
  | forbidden offset =>
    "control characters are not allowed" ++ if offset = 0 then "" else s!" at position {offset}"
  | malformed problem mark context => problem.message ++ placeText mark ++ contextText mark context
  | unknownAnchor mark => "unknown anchor" ++ placeText mark

end Fault

/-- A fault found within something that began at `start`. -/
def faultWithin (context : Context) (start : Mark) (problem : Problem) (c : Cursor) :
    Except Fault α :=
  .error (.malformed problem c.mark (some (context, start)))

end InstallManifest.Yaml
