import InstallManifest.Disk.Walk
import InstallManifest.Failure

/-!
# File sets from directories

What a walk finds becomes files of a file set. The source of a file is its path relative to the
base of the walk, after a lead that the user chooses. A walk that fails leaves what it found before
in the file set.
-/

namespace InstallManifest

open Utf8 (Bytes)

namespace FileEntry

/-- Continues a source by one name, with a slash between if there is something to divide. -/
def extendSource (source name : String) : String :=
  if source = "" || source.toList.getLast? = some '/' then source ++ name else source ++ "/" ++ name

/-- The file with the source that a lead and names make, if all of them are texts. -/
def ofNames? (lead : String) (names : List Bytes) : Option FileEntry :=
  (names.mapM Utf8.decode?).map fun texts => { source := texts.foldl extendSource lead }

/-- The files of what a walk found, up to the first whose names are no texts. -/
def ofFound (lead : String) : List (List Bytes) → List FileEntry × Option Failure
  | [] => ([], none)
  | names :: rest =>
    match ofNames? lead names with
    | none => ([], some (.unnamable (names.foldl Disk.joinBytes [])))
    | some file =>
      let (files, failure) := ofFound lead rest
      (file :: files, failure)

end FileEntry

namespace Disk

/-- The files below a base, and why there may be more of them. A base need not be a text. -/
def filesUnder (disk : Disk) (base : Bytes) (lead : String) : List FileEntry × Option Failure :=
  let walk := disk.walk base
  let (files, failure) := FileEntry.ofFound lead walk.found
  (files, failure <|> walk.fault.map fun (path, cause) => .walk path cause)

end Disk

namespace FileSet

/-- Adds all files below a base, and tells how many they are. -/
def addFilesUnder (disk : Disk) (base : Bytes) (lead : String) (s : FileSet) :
    FileSet × Except Failure Nat :=
  let (files, failure) := disk.filesUnder base lead
  ({ s with files := s.files ++ files },
    match failure with
    | some cause => .error cause
    | none => .ok files.length)

end FileSet

end InstallManifest
