import InstallManifest.Description.Reading
import InstallManifest.Disk.Node
import InstallManifest.Repository.Reading

/-!
# Failures

Everything that can go wrong for a user of the library, and how it is told.
-/

namespace InstallManifest

inductive Failure where
  | disk (cause : Disk.Fault)
  /-- A directory, or the base of a walk, could not be opened. -/
  | walk (path : Utf8.Bytes) (cause : Disk.Fault)
  /-- The path of a found file, relative to the base of the walk, is no text. -/
  | unnamable (path : Utf8.Bytes)
  | manifest (cause : ReadFault)
  | packageType (text : String)
  | render (cause : RenderFault)
  /-- There is no description at the path. -/
  | noDescription (path : String)
  | description (cause : Yaml.DecodeFault)
  /-- A description names a directory by a path that is no text, so it cannot be written. -/
  | unwritablePath
  /-- Logging had been set up before. -/
  | loggingTwice
  deriving DecidableEq

namespace Failure

def message : Failure → String
  | disk cause => s!"I/O error: {cause.message}"
  | walk path cause =>
    s!"Directory walk error: IO error for operation on {Utf8.decodeLossy path}: {cause.message}"
  | unnamable path => s!"Path is not valid UTF-8: {Utf8.decodeLossy path}"
  | manifest cause => s!"Parse error: {cause.message}"
  | packageType text => s!"Parse error: Unknown package type: {text}"
  | render (.indentation char) =>
    "Configuration error: Indent character must be ASCII whitespace, got " ++ Text.quotedChar char
  | render (.illegalCharacter name value) =>
    s!"Invalid character in {name} attribute: {Text.quoted value}"
  | noDescription path => s!"Configuration error: Repository description not found: {path}"
  | description cause => s!"YAML error: {cause.message}"
  | unwritablePath => "YAML error: path contains invalid UTF-8 characters"
  | loggingTwice =>
    "Failed to initialize tracing: a global default trace dispatcher has already been set"

end Failure

/-- The package type of a name, for a user who asks for it. -/
def PackageType.ofText (s : String) : Except Failure PackageType :=
  match ofName? s with
  | some t => .ok t
  | none => .error (.packageType s)

end InstallManifest
