import InstallManifest.Disk.Access
import InstallManifest.Failure

/-!
# Manifests on a disk
-/

namespace InstallManifest.Repository

/-- Reads the manifest that a text is. -/
def ofText (document : String) : Except Failure Repository :=
  (ofManifest document).mapError .manifest

/-- Reads the manifest in a file. -/
def load (disk : Disk) (path : String) : Except Failure Repository := do
  ofText (← (disk.readText (.ofString path)).mapError .disk)

end InstallManifest.Repository
