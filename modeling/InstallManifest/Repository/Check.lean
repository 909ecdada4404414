import InstallManifest.Repository

/-!
# Checking a repository

Writing a manifest tolerates some misuse: several package types, file sets that share an
identifier, file sets without a name and files without a source. `Repository.complaints` lists all
of it in document order.
-/

namespace InstallManifest

/-- One piece of misuse. File sets and files are counted from zero. -/
inductive Misuse where
  | packageTypes (count : Nat)
  | duplicateId (id : String)
  | unnamed
  | emptySource (file : Nat)
  deriving DecidableEq

namespace Misuse

/-- The part of the repository that is concerned. -/
def field : Misuse → String
  | packageTypes _ => "properties"
  | duplicateId _ => "id"
  | unnamed => "name"
  | emptySource _ => "files"

def message : Misuse → String
  | packageTypes count => s!"PackageType is set {count} times"
  | duplicateId id => s!"Duplicate file set id: {id}"
  | unnamed => "File set has no name"
  | emptySource file => s!"File #{file} has an empty source path"

end Misuse

/-- A misuse and the file set in which it was found, if it belongs to one. -/
structure Complaint where
  context : Option String
  misuse : Misuse
  deriving DecidableEq

/-- The complaint as one line of text. -/
def Complaint.text (c : Complaint) : String :=
  match c.context with
  | some context => s!"[{context}] {c.misuse.field}: {c.misuse.message}"
  | none => s!"{c.misuse.field}: {c.misuse.message}"

namespace FileSet

/-- How messages call the file set at a position: by its name, or else by the position. -/
def context (index : Nat) (s : FileSet) : String := s.name.getD s!"file set #{index}"

/-- What is wrong with a file set when the identifiers before it are known. -/
def misuses (earlierIds : List String) (s : FileSet) : List Misuse :=
  -- identifiers are compared as they are written
  (if s.id.toText ∈ earlierIds then [.duplicateId s.id.toText] else []) ++
  (if s.name.isNone then [.unnamed] else []) ++
  s.files.zipIdx.filterMap fun (f, i) => if f.source = "" then some (.emptySource i) else none

end FileSet

namespace Repository

/-- How often the package type is set, whatever the value. -/
def packageTypeCount (r : Repository) : Nat :=
  (r.properties.filter (·.name = packageTypeProperty)).length

/-- Complaints about the file sets from position `index` on. -/
def fileSetComplaints (index : Nat) (earlierIds : List String) : List FileSet → List Complaint
  | [] => []
  | s :: rest =>
    (s.misuses earlierIds).map (⟨some (s.context index), ·⟩) ++
      fileSetComplaints (index + 1) (earlierIds ++ [s.id.toText]) rest

/-- Everything that is wrong with a repository, in document order. -/
def complaints (r : Repository) : List Complaint :=
  (if r.packageTypeCount > 1 then [⟨none, .packageTypes r.packageTypeCount⟩] else []) ++
    fileSetComplaints 0 [] r.fileSets

end Repository

end InstallManifest
