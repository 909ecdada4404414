import InstallManifest.Description
import InstallManifest.Yaml.Writing

/-!
# Writing descriptions

The fields are written in a fixed order, and those without a value are left out. A description
cannot be written if the path of a directory is no text.
-/

namespace InstallManifest

open Yaml (Block)

/-- A truth value. -/
def booleanBlock (b : Bool) : Block := .bare (toString b)

/-- A field, if there is a text for it. -/
def textField? (name : String) (text : Option String) : List (String × Block) :=
  (text.map fun s => (name, .text s)).toList

/-- A directory, if its path is a text. -/
def DirectorySource.toBlock? (d : DirectorySource) : Option Block :=
  (Utf8.decode? d.path).map fun path => .mapping [("path", .text path), ("prefix", .text d.lead)]

def FileEntry.toBlock (f : FileEntry) : Block :=
  .mapping (("source", .text f.source) :: textField? "target" f.target)

/-- A file set, if its directories can be written. -/
def FileSetDescription.toBlock? (s : FileSetDescription) : Option Block :=
  (s.directories.mapM DirectorySource.toBlock?).map fun directories =>
    .mapping (
      textField? "name" s.name ++ textField? "id" s.id ++
      textField? "source_package" s.sourcePackage ++ [
        ("directories", .sequence directories),
        ("files", .sequence (s.files.map (·.toBlock))),
        ("sort", booleanBlock s.sort)])

def RenderOptions.toBlock (o : RenderOptions) : Block :=
  .mapping [
    ("pretty_print", booleanBlock o.prettyPrint),
    ("indent_char", .quoted (String.singleton o.indentChar)),
    ("indent_size", .bare (toString o.indentSize.toNat)),
    ("emit_source_package", booleanBlock o.emitSourcePackage)]

/-- The text of a description, if its file sets can be written. -/
def Description.toYaml? (d : Description) : Option String :=
  (d.fileSets.mapM FileSetDescription.toBlock?).map fun fileSets =>
    Block.document (
      textField? "package_type" (d.packageType.map (·.name)) ++ [
        ("file_sets", .sequence fileSets),
        ("render", d.render.toBlock)])

end InstallManifest
