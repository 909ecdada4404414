import InstallManifest.Yaml.Token.Block
import InstallManifest.Yaml.Token.Tag

/-!
# Directives

A line before a document may tell the version of the language or give a tag handle its meaning.
-/

namespace InstallManifest.Yaml

/-- How many digits a part of a version may have. -/
def maxVersionDigits : Nat := 9

/-- A part of a version. -/
def readVersionPart (start : Mark) (c : Cursor) : Except Fault (Nat × Cursor) :=
  let (digits, next) := c.span Char.isDigit
  if digits.isEmpty then faultWithin .versionDirective start .versionMissing c
  else if digits.length > maxVersionDigits then
    faultWithin .versionDirective start .versionTooLong (c.skip maxVersionDigits)
  else .ok (digits.foldl (fun n d => n * 10 + (d.toNat - '0'.toNat)) 0, next)

/-- The version after the name of its directive. -/
def readVersion (start : Mark) (c : Cursor) : Except Fault (TokenKind × Cursor) := do
  let (major, c) ← readVersionPart start (c.skipWhile isBlank)
  if !c.startsWith '.' then faultWithin .versionDirective start .versionIncomplete c
  else
    let (minor, c) ← readVersionPart start (c.skip 1)
    return (.versionDirective major minor, c)

/-- The handle and its meaning after the name of their directive. -/
def readTagMeaning (start : Mark) (c : Cursor) : Except Fault (TokenKind × Cursor) := do
  let (handle, c) ← readHandle .tagDirectiveHandle start (c.skipWhile isBlank)
  if handle ≠ ['!'] && !isClosedHandle handle then
    faultWithin .tagDirectiveHandleEnd start .exclamationExpected c
  else if !c.rest.head?.any isBlank then
    faultWithin .tagDirective start .spaceExpected c
  else
    let (uri, c) ← readUri .tagDirectiveUri start true (c.skipWhile isBlank)
    if c.gapAfter 0 then return (.tagDirective (String.ofList handle) uri, c)
    else faultWithin .tagDirective start .spaceOrBreakExpected c

/-- The directive whose indicator stands here. The place after it is where its rest of the line
begins. -/
def readDirective (c : Cursor) : Except Fault (Token × Cursor) := do
  let start := c.mark
  let (name, c) := (c.skip 1).span isNameChar
  if name.isEmpty then faultWithin .directive start .directiveNameMissing c
  else if !c.gapAfter 0 then faultWithin .directive start .directiveNameUnclear c
  else
    let (kind, c) ←
      if name = "YAML".toList then readVersion start c
      else if name = "TAG".toList then readTagMeaning start c
      else faultWithin .directive start .directiveUnknown c
    let next ← skipLineRest .directive start c
    return (⟨kind, start, c.mark⟩, next)

end InstallManifest.Yaml
