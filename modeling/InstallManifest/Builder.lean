import InstallManifest.FileSet.Walked
import InstallManifest.Repository.Check

/-!
# Building a repository

A builder is a repository that grows. Everything is kept in the order of the calls and nothing is
merged: a package type that is set twice is there twice. A builder also holds the supply of
identifiers for file sets that come without one.
-/

namespace InstallManifest

structure Builder where
  repository : Repository := {}
  ids : IdSupply

namespace Builder

/-- Adds the property of a package type. -/
def setPackageType (b : Builder) (t : PackageType) : Builder :=
  { b with
    repository :=
      { b.repository with properties := b.repository.properties ++ [.ofPackageType t] } }

/-- Adds a file set, under the next fresh identifier if none is given. -/
def addFileSet (b : Builder) (name : Option String) (id : Option FileSetId) : Builder where
  repository :=
    { b.repository with
      fileSets := b.repository.fileSets ++ [{ name, id := id.getD (.uuid b.ids.next) }] }
  ids := if id.isSome then b.ids else b.ids.advance

/-- The file set at a position. -/
def fileSet? (b : Builder) (index : Nat) : Option FileSet := b.repository.fileSets[index]?

/-- Changes the file set at a position; nothing changes if there is none. -/
def changeFileSet (b : Builder) (index : Nat) (change : FileSet → FileSet) : Builder :=
  { b with
    repository := { b.repository with fileSets := b.repository.fileSets.modify index change } }

/-- What is wrong with the repository so far. -/
def complaints (b : Builder) : List Complaint := b.repository.complaints

/-- The manifest of the repository so far. -/
def finalizeWith (b : Builder) (o : RenderOptions) : Except Failure String :=
  (b.repository.render o).mapError .render

/-- The manifest of the repository so far, indented with tabs or on one line. -/
def finalize (b : Builder) (prettyPrint : Bool) : Except Failure String :=
  b.finalizeWith { prettyPrint }

end Builder

/-- A change of one file set. -/
inductive FileSetOperation where
  | addFile (file : FileEntry)
  | setSourcePackage (reference : String)
  | sortFiles
  | addFilesUnder (base : Utf8.Bytes) (lead : String)
  deriving DecidableEq

/-- A file set after an operation on it, succeeding or not, over the files of a disk. -/
def FileSet.apply (disk : Disk) (s : FileSet) : FileSetOperation → FileSet
  | .addFile file => s.addFile file
  | .setSourcePackage reference => { s with sourcePackage := some reference }
  | .sortFiles => s.sortFiles
  | .addFilesUnder base lead => (s.addFilesUnder disk base lead).1

/-- A call to a builder. -/
inductive Operation where
  | setPackageType (t : PackageType)
  | addFileSet (name : Option String) (id : Option FileSetId)
  | onFileSet (index : Nat) (operation : FileSetOperation)
  | finalize (prettyPrint : Bool)
  | finalizeWith (options : RenderOptions)
  | validate
  deriving DecidableEq

namespace Builder

/-- A builder after a call. -/
def apply (disk : Disk) (b : Builder) : Operation → Builder
  | .setPackageType t => b.setPackageType t
  | .addFileSet name id => b.addFileSet name id
  | .onFileSet index operation => b.changeFileSet index (·.apply disk operation)
  | .finalize _ | .finalizeWith _ | .validate => b

/-- A builder after a sequence of calls. -/
def run (disk : Disk) (b : Builder) (operations : List Operation) : Builder :=
  operations.foldl (apply disk) b

end Builder

end InstallManifest
