import InstallManifest.Description.Writing
import InstallManifest.Disk.Access
import InstallManifest.Failure

/-!
# Descriptions on a disk
-/

namespace InstallManifest.Description

/-- Reads the description that a text is. -/
def ofText (text : String) : Except Failure Description := (ofYaml text).mapError .description

/-- Reads the description in a file. -/
def load (disk : Disk) (path : String) : Except Failure Description := do
  let place := Disk.Path.ofString path
  if disk.exists? place then ofText (← (disk.readText place).mapError .disk)
  else .error (.noDescription path)

/-- Writes a description into a file, after making the directories above it. Gives the disk after
that, and what kept the file from being written. The directories are made also for a description
that cannot be written. -/
def save (disk : Disk) (d : Description) (path : String) : Disk × Option Failure :=
  let place := Disk.Path.ofString path
  let (disk, fault) :=
    match place.parent? with
    | some parent => disk.makeDirectories parent
    | none => (disk, none)
  match fault with
  | some fault => (disk, some (.disk fault))
  | none =>
    match d.toYaml? with
    | none => (disk, some .unwritablePath)
    | some text =>
      match disk.write place (Utf8.encode text) with
      | .ok disk => (disk, none)
      | .error fault => (disk, some (.disk fault))

end InstallManifest.Description
