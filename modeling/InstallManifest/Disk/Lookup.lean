import InstallManifest.Disk.Node

/-!
# Finding what a path leads to

Links on the way are followed, up to a number of them in one search, so every search ends.
-/

namespace InstallManifest.Disk

open Utf8 (Bytes)

/-- How many bytes a name may have. -/
def maxName : Nat := 255

/-- How many bytes a path may have. -/
def maxPath : Nat := 4095

/-- How many links one search may follow. -/
def maxLinks : Nat := 40

/-- The end of a search: the names that lead to what was found, and the links that might still have
been followed. -/
structure Place where
  names : List Bytes
  node : Node
  links : Nat

variable (disk : Disk) (followLast : Bool)

/-- Whether no path may lead on from the directory that names lead to. -/
def bars (here : List Bytes) : Bool := (disk.root.get? here).any (!·.access.pass)

/-- Goes on with a search in the directory that `here` leads to. -/
def search (links : Nat) (here : List Bytes) (steps : List Step) : Except Fault Place :=
  match steps with
  | [] =>
    match disk.root.get? here with
    | some node => .ok ⟨here, node, links⟩
    | none => .error .notFound
  | .inside :: rest => search links here rest
  | .stay :: rest => if disk.bars here then .error .denied else search links here rest
  | .up :: rest => if disk.bars here then .error .denied else search links here.dropLast rest
  | .entry name :: rest =>
    if disk.bars here then .error .denied
    else if name.length > maxName then .error .nameTooLong
    else
      match (disk.root.get? here).bind (·.child? name) with
      | none => .error .notFound
      | some (.link target) =>
        -- the last link may be what is looked for
        if rest.isEmpty && !followLast then .ok ⟨here ++ [name], .link target, links⟩
        else
          match links with
          | 0 => .error .tooManyLinks
          | links + 1 =>
            -- the target takes the place of the link in the path
            let path := Path.ofBytes target
            search links (if path.absolute then [] else here) (path.lookupSteps ++ rest)
      | some node =>
        if node.isDirectory then search links (here ++ [name]) rest
        else if rest.isEmpty then .ok ⟨here ++ [name], node, links⟩
        else .error .notDirectory
termination_by (links, steps.length)

/-- What is wrong with a path whatever the disk holds. -/
def pathFault? (p : Path) : Option Fault :=
  if p.hasNul then some .nulInName
  else if p.isNil then some .notFound
  else if p.size > maxPath then some .nameTooLong
  else none

/-- The directory that a path starts from. -/
def start (p : Path) : List Bytes := if p.absolute then [] else disk.workingDirectory

/-- What a path leads to; a link at its very end is followed if asked for. -/
def find (p : Path) : Except Fault Place :=
  match pathFault? p with
  | some fault => .error fault
  | none => search disk followLast maxLinks (disk.start p) p.lookupSteps

/-- Whether a path leads to something. -/
def exists? (p : Path) : Bool := (disk.find true p).isOk

/-- Whether a path leads to a directory. -/
def isDirectory (p : Path) : Bool :=
  match disk.find true p with
  | .ok place => place.node.isDirectory
  | .error _ => false

end InstallManifest.Disk
