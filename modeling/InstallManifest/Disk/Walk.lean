import InstallManifest.Disk.Lookup

/-!
# Walking a directory

A walk lists what can be found below a base without following links: everything but directories
and links that lead to one. It ends at the first directory that cannot be opened: its path is too
long, no path may lead through the directory that holds it, or it may not be listed.
-/

namespace InstallManifest.Disk

open Utf8 (Bytes)

/-- What a walk found. -/
structure Walk where
  /-- The names from the base to each thing found, in the order of the walk. -/
  found : List (List Bytes) := []
  /-- The path that could not be opened and why, if the walk ended early. -/
  fault : Option (Bytes × Fault) := none
  deriving DecidableEq

namespace Walk

/-- A walk that ended at once. -/
def stuck (path : Bytes) (fault : Fault) : Walk := ⟨[], some (path, fault)⟩

/-- Goes on with a further walk, unless the first ended early. -/
def andThen (first second : Walk) : Walk :=
  match first.fault with
  | some _ => first
  | none => ⟨first.found ++ second.found, second.fault⟩

end Walk

mutual

/-- The walk of one entry, given whether paths may lead through the directory that holds it, its
path and the names that lead to it from the base. -/
def walkNode (disk : Disk) (pass : Bool) (path : Bytes) (names : List Bytes) : Node → Walk
  | .directory access entries =>
    -- a directory is opened by its whole path, which leads through all directories above it
    if path.length > maxPath then .stuck path .nameTooLong
    else if pass && access.list then walkEntries disk access.pass path names entries
    else .stuck path .denied
  | .link _ => if disk.isDirectory (.ofBytes path) then {} else ⟨[names], none⟩
  | .file _ => ⟨[names], none⟩
  | .sink => ⟨[names], none⟩

/-- The walk of the entries of a directory. -/
def walkEntries (disk : Disk) (pass : Bool) (path : Bytes) (names : List Bytes) :
    List (Bytes × Node) → Walk
  | [] => {}
  | (name, node) :: rest =>
    (walkNode disk pass (joinBytes path name) (names ++ [name]) node).andThen
      (walkEntries disk pass path names rest)

end

/-- The walk below a base. A base that is a link is followed; below a file there is nothing. What
may be done with the directories above the base is a matter of finding it. -/
def walk (disk : Disk) (base : Bytes) : Walk :=
  match disk.find true (.ofBytes base) with
  | .error fault => .stuck base fault
  | .ok place =>
    if place.node.access.list then
      walkEntries disk place.node.access.pass base [] place.node.entries
    else .stuck base .denied

end InstallManifest.Disk
