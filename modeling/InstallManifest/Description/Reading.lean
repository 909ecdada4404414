import InstallManifest.Description
import InstallManifest.Yaml.Decode

/-!
# Reading descriptions

The fields of a description may come in any order and all but a few may be left out; keys that are
not known are passed over.
-/

namespace InstallManifest

open Yaml Yaml.Decode

namespace DirectorySource

/-- The fields read so far. -/
structure Fields where
  path : Option String := none
  lead : Option String := none

def Fields.step (f : Fields) (key : String) (place : Path) (node : Node) : Decode Fields := do
  match key with
  | "path" => return { f with path := ← once key f.path (textOf "path string" place node) }
  | "prefix" => return { f with lead := ← once key f.lead (textOf "a string" place node) }
  | _ => ignore node; return f

def Fields.finish (f : Fields) : Decode DirectorySource := do
  return { path := Utf8.encode (← required "path" f.path), lead := f.lead.getD "" }

def reader : Reader DirectorySource := record "struct DirectorySource" {} Fields.step Fields.finish

end DirectorySource

namespace FileEntry

/-- The fields read so far. -/
structure Fields where
  source : Option String := none
  target : Option (Option String) := none

def Fields.step (f : Fields) (key : String) (place : Path) (node : Node) : Decode Fields := do
  match key with
  | "source" => return { f with source := ← once key f.source (textOf "a string" place node) }
  | "target" =>
    return { f with target := ← once key f.target (optional (textOf "a string") place node) }
  | _ => ignore node; return f

def Fields.finish (f : Fields) : Decode FileEntry := do
  return { source := ← required "source" f.source, target := f.target.getD none }

def reader : Reader FileEntry := record "struct FileSource" {} Fields.step Fields.finish

end FileEntry

namespace FileSetDescription

/-- The fields read so far. -/
structure Fields where
  name : Option (Option String) := none
  id : Option (Option String) := none
  sourcePackage : Option (Option String) := none
  directories : Option (List DirectorySource) := none
  files : Option (List FileEntry) := none
  sort : Option Bool := none

def Fields.step (f : Fields) (key : String) (place : Path) (node : Node) : Decode Fields := do
  let text? : Decode (Option String) := optional (textOf "a string") place node
  match key with
  | "name" => return { f with name := ← once key f.name text? }
  | "id" => return { f with id := ← once key f.id text? }
  | "source_package" => return { f with sourcePackage := ← once key f.sourcePackage text? }
  | "directories" =>
    return { f with
      directories := ← once key f.directories (list DirectorySource.reader place node) }
  | "files" => return { f with files := ← once key f.files (list FileEntry.reader place node) }
  | "sort" => return { f with sort := ← once key f.sort (boolean place node) }
  | _ => ignore node; return f

def Fields.finish (f : Fields) : Decode FileSetDescription :=
  return {
    name := f.name.getD none
    id := f.id.getD none
    sourcePackage := f.sourcePackage.getD none
    directories := f.directories.getD []
    files := f.files.getD []
    sort := f.sort.getD false }

def reader : Reader FileSetDescription := record "struct FileSetConfig" {} Fields.step Fields.finish

end FileSetDescription

namespace RenderOptions

/-- The fields read so far. -/
structure Fields where
  prettyPrint : Option Bool := none
  indentChar : Option Char := none
  indentSize : Option Nat := none
  emitSourcePackage : Option Bool := none

def Fields.step (f : Fields) (key : String) (place : Path) (node : Node) : Decode Fields := do
  match key with
  | "pretty_print" => return { f with prettyPrint := ← once key f.prettyPrint (boolean place node) }
  | "indent_char" => return { f with indentChar := ← once key f.indentChar (char place node) }
  | "indent_size" => return { f with indentSize := ← once key f.indentSize (natural place node) }
  | "emit_source_package" =>
    return { f with emitSourcePackage := ← once key f.emitSourcePackage (boolean place node) }
  | _ => ignore node; return f

def Fields.finish (f : Fields) : Decode RenderOptions :=
  let d : RenderOptions := {}
  return {
    prettyPrint := f.prettyPrint.getD d.prettyPrint
    indentChar := f.indentChar.getD d.indentChar
    indentSize := (f.indentSize.map UInt64.ofNat).getD d.indentSize
    emitSourcePackage := f.emitSourcePackage.getD d.emitSourcePackage }

def reader : Reader RenderOptions := record "struct RenderOptions" {} Fields.step Fields.finish

end RenderOptions

namespace PackageType

def reader : Reader PackageType := variant (all.map name) ofName?

end PackageType

namespace Description

/-- The fields read so far. -/
structure Fields where
  packageType : Option (Option PackageType) := none
  fileSets : Option (List FileSetDescription) := none
  render : Option RenderOptions := none

def Fields.step (f : Fields) (key : String) (place : Path) (node : Node) : Decode Fields := do
  match key with
  | "package_type" =>
    return { f with
      packageType := ← once key f.packageType (optional PackageType.reader place node) }
  | "file_sets" =>
    return { f with fileSets := ← once key f.fileSets (list FileSetDescription.reader place node) }
  | "render" => return { f with render := ← once key f.render (RenderOptions.reader place node) }
  | _ => ignore node; return f

def Fields.finish (f : Fields) : Decode Description :=
  return {
    packageType := f.packageType.getD none
    fileSets := f.fileSets.getD []
    render := f.render.getD {} }

def reader : Reader Description := record "struct RepositoryConfig" {} Fields.step Fields.finish

/-- Reads the description that a text is. -/
def ofYaml (text : String) : Except DecodeFault Description := decode reader text

end Description

end InstallManifest
