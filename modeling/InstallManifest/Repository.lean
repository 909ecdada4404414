import InstallManifest.FileSet

/-!
# Repositories

A repository is what a manifest describes: properties of the package and the file sets in it.
-/

namespace InstallManifest

/-- How the installer packs the files. -/
inductive PackageType where
  | loose
  | packed
  | bundle
  deriving DecidableEq

namespace PackageType

/-- All package types, in the order in which messages list them. -/
def all : List PackageType := [loose, packed, bundle]

/-- The name used in manifests and descriptions. -/
def name : PackageType → String
  | loose => "Loose"
  | packed => "Packed"
  | bundle => "Bundle"

/-- The package type of a name, spelt exactly. -/
def ofName? (s : String) : Option PackageType := all.find? (·.name = s)

end PackageType

/-- A named value attached to the repository. -/
structure Property where
  name : String
  value : String
  deriving DecidableEq

/-- Name of the property that holds the package type. -/
def packageTypeProperty : String := "PackageType"

namespace Property

/-- The property that sets a package type. -/
def ofPackageType (t : PackageType) : Property := ⟨packageTypeProperty, t.name⟩

/-- The package type that a property sets, if it sets one. -/
def packageType? (p : Property) : Option PackageType :=
  if p.name = packageTypeProperty then PackageType.ofName? p.value else none

end Property

/-- Properties and file sets, each in document order. -/
structure Repository where
  properties : List Property := []
  fileSets : List FileSet := []
  deriving DecidableEq

namespace Repository

/-- The package types that are set, in order. -/
def packageTypes (r : Repository) : List PackageType := r.properties.filterMap Property.packageType?

/-- The first file set of a name. -/
def fileSet? (r : Repository) (name : String) : Option FileSet :=
  r.fileSets.find? (·.name = some name)

/-- The number of files in all file sets. -/
def fileCount (r : Repository) : Nat := (r.fileSets.map (·.files.length)).foldr (· + ·) 0

end Repository

end InstallManifest
