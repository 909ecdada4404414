import InstallManifest.Repository.Writing

/-!
# Descriptions

A description says how to build a repository: which package type to set, and for each file set
which directories to walk and which files to name. It also says how to lay out the manifest.
-/

namespace InstallManifest

/-- A directory whose files go into a file set. -/
structure DirectorySource where
  /-- Where the directory is; if not from the root, then below the base of the description. Like all
  paths it need not be text. -/
  path : Utf8.Bytes
  /-- What comes before the path of each file. -/
  lead : String := ""
  deriving DecidableEq

/-- How to build a file set. -/
structure FileSetDescription where
  name : Option String := none
  /-- The identifier as written; one is made up if it is missing. -/
  id : Option String := none
  sourcePackage : Option String := none
  directories : List DirectorySource := []
  /-- Files after those of the directories. -/
  files : List FileEntry := []
  /-- Whether to order all files by source at the end. -/
  sort : Bool := false
  deriving DecidableEq

structure Description where
  packageType : Option PackageType := none
  fileSets : List FileSetDescription := []
  render : RenderOptions := {}
  deriving DecidableEq

end InstallManifest
