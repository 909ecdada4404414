import InstallManifest.Builder

/-!
# Building what a description says

The file sets are built in order, and the directories of each before its files. The first walk that
fails ends it.
-/

namespace InstallManifest

open Utf8 (Bytes)

/-- Where a directory is, given the base of the description if there is one. -/
def DirectorySource.located (base : Option Bytes) (d : DirectorySource) : Bytes :=
  match base with
  | some base => Disk.joinBytes base d.path
  | none => d.path

namespace FileSetDescription

/-- Adds the files of all directories, in order. -/
def addDirectories (disk : Disk) (base : Option Bytes) (s : FileSet) :
    List DirectorySource → Except Failure FileSet
  | [] => .ok s
  | d :: ds =>
    match s.addFilesUnder disk (d.located base) d.lead with
    | (_, .error failure) => .error failure
    | (s, .ok _) => addDirectories disk base s ds

/-- The file set that a description makes of a new one. -/
def fill (disk : Disk) (base : Option Bytes) (d : FileSetDescription) (s : FileSet) :
    Except Failure FileSet := do
  let s := match d.sourcePackage with
    | some reference => { s with sourcePackage := some reference }
    | none => s
  let s ← addDirectories disk base s d.directories
  let s := d.files.foldl FileSet.addFile s
  return if d.sort then s.sortFiles else s

/-- Adds the file set to a builder. -/
def build (disk : Disk) (base : Option Bytes) (b : Builder) (d : FileSetDescription) :
    Except Failure Builder := do
  let index := b.repository.fileSets.length
  let b := b.addFileSet d.name (d.id.map FileSetId.ofText)
  match b.fileSet? index with
  | none => return b
  | some s =>
    let s ← d.fill disk base s
    return b.changeFileSet index fun _ => s

end FileSetDescription

namespace Description

/-- The builder with everything that a description says. -/
def toBuilder (disk : Disk) (base : Option Bytes) (ids : IdSupply) (d : Description) :
    Except Failure Builder :=
  let start : Builder := { ids }
  let start := match d.packageType with
    | some t => start.setPackageType t
    | none => start
  d.fileSets.foldlM (FileSetDescription.build disk base) start

/-- The manifest of what a description says, in the layout that it says. -/
def toManifest (disk : Disk) (base : Option Bytes) (ids : IdSupply) (d : Description) :
    Except Failure String := do
  (← d.toBuilder disk base ids).finalizeWith d.render

end Description

end InstallManifest
