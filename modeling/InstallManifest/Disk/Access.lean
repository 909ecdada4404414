import InstallManifest.Disk.Lookup

/-!
# Reading and changing a disk

Each operation answers with what the disk holds afterwards, or with the fault that kept it from
changing anything. Only `makeDirectories` may have made some directories before it fails.
-/

namespace InstallManifest.Disk

open Utf8 (Bytes)

/-- A search never gains links. -/
theorem links_le_of_search {disk : Disk} {followLast : Bool} {links : Nat} {here : List Bytes}
    {steps : List Step} {place : Place}
    (h : search disk followLast links here steps = .ok place) : place.links ≤ links := by
  fun_induction search disk followLast links here steps with
  | case1 | case11 | case15 => cases h; exact Nat.le_refl _
  | case3 | case5 | case7 | case14 => rename_i ih; exact ih h
  | case13 => rename_i ih; exact Nat.le_succ_of_le (ih h)
  | case2 | case4 | case6 | case8 | case9 | case10 | case12 | case16 => cases h

/-- The directory that holds the last step of a path. -/
def container (disk : Disk) (links : Nat) (here : List Bytes) (p : Path) : Except Fault Place :=
  match search disk true links here p.steps.dropLast with
  | .error fault => .error fault
  | .ok place =>
    if !place.node.isDirectory then .error .notDirectory
    else if place.node.access.pass then .ok place
    else .error .denied

theorem links_le_of_container {disk : Disk} {links : Nat} {here : List Bytes} {p : Path}
    {place : Place} (h : container disk links here p = .ok place) : place.links ≤ links := by
  unfold container at h
  split at h
  · cases h
  · next found =>
    -- a directory that lets paths through is the place that the search found
    split at h
    · cases h
    · split at h
      · cases h
        exact links_le_of_search found
      · cases h

/-! ## Reading -/

/-- What a file holds. -/
def read (disk : Disk) (p : Path) : Except Fault Bytes := do
  match (← disk.find true p).node with
  | .file content => .ok content
  | .directory access _ => .error (if access.list then .isDirectory else .denied)
  | .sink | .link _ => .ok []

/-- What a file holds, as text. -/
def readText (disk : Disk) (p : Path) : Except Fault String := do
  match Utf8.decode? (← disk.read p) with
  | some text => .ok text
  | none => .error .notText

/-! ## Directories and links -/

/-- Where a new entry of the given path belongs, if nothing is there. -/
def vacancy (disk : Disk) (p : Path) : Except Fault (List Bytes) :=
  match pathFault? p with
  | some fault => .error fault
  | none =>
    match container disk maxLinks (disk.start p) p with
    | .error fault => .error fault
    | .ok place =>
      match p.steps.getLast? with
      | some (.entry name) =>
        if name.length > maxName then .error .nameTooLong
        else if (place.node.child? name).isSome then .error .alreadyThere
        else .ok (place.names ++ [name])
      | _ => .error .alreadyThere

/-- The disk with a node where names lead to. -/
def put (disk : Disk) (names : List Bytes) (node : Node) : Disk :=
  { disk with root := disk.root.set names node }

/-- Makes one directory. -/
def makeDirectory (disk : Disk) (p : Path) : Except Fault Disk := do
  return disk.put (← disk.vacancy p) (.directory {} [])

/-- Makes a symbolic link. -/
def makeLink (disk : Disk) (p : Path) (target : Bytes) : Except Fault Disk := do
  return disk.put (← disk.vacancy p) (.link target)

/-- Takes it as success that a directory is there. -/
def allowDirectory (disk : Disk) (p : Path) : Except Fault Disk → Except Fault Disk
  -- it may have come into being on the way, by a step up
  | .error fault => if disk.isDirectory p then .ok disk else .error fault
  | .ok new => .ok new

/-- Makes a directory after those above it, where `above` counts the steps that may be taken up. -/
def makeDirectoriesWithin (disk : Disk) : (above : Nat) → Path → Disk × Option Fault
  | 0, _ => (disk, none)
  | above + 1, p =>
    if p.isNil then (disk, none)
    else
      match disk.makeDirectory p with
      | .ok new => (new, none)
      | .error .notFound =>
        -- something above is missing: make that first
        match p.parent? with
        | none => (disk, some .notFound)
        | some parent =>
          match makeDirectoriesWithin disk above parent with
          | (disk, some fault) => (disk, some fault)
          | (disk, none) =>
            match disk.allowDirectory p (disk.makeDirectory p) with
            | .ok new => (new, none)
            | .error fault => (disk, some fault)
      | .error fault => (disk, if disk.isDirectory p then none else some fault)

/-- Makes a directory and all that are missing above it; it is no fault if it is there. -/
def makeDirectories (disk : Disk) (p : Path) : Disk × Option Fault :=
  disk.makeDirectoriesWithin (p.steps.length + 1) p

/-! ## Files -/

/-- Where the file of a path is to be written: links are followed, also to where nothing is yet. -/
def writePlace (disk : Disk) (links : Nat) (here : List Bytes) (p : Path) :
    Except Fault (List Bytes) :=
  match _h : container disk links here p with
  | .error fault => .error fault
  | .ok place =>
    match p.steps.getLast?, p.trailingSlash with
    | some (.entry name), false =>
      if name.length > maxName then .error .nameTooLong
      else
        match place.node.child? name with
        | some (.directory _ _) => .error .isDirectory
        | some (.link target) =>
          match _hl : place.links with
          | 0 => .error .tooManyLinks
          | left + 1 =>
            let path := Path.ofBytes target
            writePlace disk left (if path.absolute then [] else place.names) path
        | _ => .ok (place.names ++ [name])
    | _, _ => .error .isDirectory
termination_by links
decreasing_by
  have := links_le_of_container _h
  omega

/-- Writes a file, in place of what it held before. -/
def write (disk : Disk) (p : Path) (content : Bytes) : Except Fault Disk :=
  match pathFault? p with
  | some fault => .error fault
  | none => do
    let names ← disk.writePlace maxLinks (disk.start p) p
    match disk.root.get? names with
    | some .sink => return disk
    | _ => return disk.put names (.file content)

end InstallManifest.Disk
