import InstallManifest.Uuid

/-!
# File sets

A file set is a group of files that is installed together. It has an identifier, an optional name,
the package it comes from if that is known, and its files in order.
-/

namespace InstallManifest

/-- Identifier of a file set: a UUID, or any other text taken as it is. -/
inductive FileSetId where
  | uuid (value : Uuid)
  | raw (text : String)
  deriving DecidableEq

namespace FileSetId

/-- The identifier that a written text stands for. -/
def ofText (s : String) : FileSetId :=
  match Uuid.ofString? s with
  | some u => uuid u
  | none => raw s

/-- The written form: upper case for a UUID, the text itself otherwise. -/
def toText : FileSetId → String
  | uuid u => u.toString
  | raw s => s

end FileSetId

/-- One file: where it is taken from, and where it goes if that is somewhere else. -/
structure FileEntry where
  source : String
  target : Option String := none
  deriving DecidableEq

/-- The place the installer puts the file at. -/
def FileEntry.destination (f : FileEntry) : String := f.target.getD f.source

/-- A group of files. -/
structure FileSet where
  name : Option String
  id : FileSetId
  sourcePackage : Option String := none
  files : List FileEntry := []
  deriving DecidableEq

namespace FileSet

/-- Adds one file at the end. -/
def addFile (s : FileSet) (f : FileEntry) : FileSet := { s with files := s.files ++ [f] }

/-- Orders the files by source; files of one source keep their order. Texts are compared by code
point, which is also the order of their UTF-8 bytes. -/
def sortFiles (s : FileSet) : FileSet :=
  { s with files := s.files.mergeSort fun a b => decide (a.source ≤ b.source) }

end FileSet

end InstallManifest
