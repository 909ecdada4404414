import InstallManifest.Yaml.Fault

/-!
# Tokens of YAML

A token is an indicator, a directive, a property of a node or a scalar, together with the place
where it begins and the place after it. Indentation becomes tokens of its own: one that opens a
block and one that closes it.
-/

namespace InstallManifest.Yaml

open Utf8 (Bytes)

/-- How a scalar is written. -/
inductive ScalarStyle where
  | plain
  | singleQuoted
  | doubleQuoted
  | literal
  | folded
  deriving DecidableEq

inductive TokenKind where
  | versionDirective (major minor : Nat)
  | tagDirective (handle : String) (uri : Bytes)
  | documentStart
  | documentEnd
  | blockSequenceStart
  | blockMappingStart
  | blockEnd
  | flowSequenceStart
  | flowSequenceEnd
  | flowMappingStart
  | flowMappingEnd
  | blockEntry
  | flowEntry
  | key
  | value
  | reference (name : String)
  | anchor (name : String)
  /-- A tag; its handle is missing if the tag is written out in full. -/
  | tag (handle : Option String) (suffix : Bytes)
  | scalar (text : String) (style : ScalarStyle)
  | streamEnd
  deriving DecidableEq

structure Token where
  kind : TokenKind
  start : Mark
  stop : Mark
  deriving DecidableEq

end InstallManifest.Yaml
