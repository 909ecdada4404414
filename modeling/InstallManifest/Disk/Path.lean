import InstallManifest.Utf8

/-!
# Paths

A path is a list of steps from the root or from the working directory. Names are bytes, as disks
keep them, and need not be text.
-/

namespace InstallManifest.Disk

open Utf8 (Bytes)

/-- The byte between two steps of a path. -/
def slash : UInt8 := 47

/-- One step of a path. -/
inductive Step where
  /-- Stays in the directory, which must let paths through. -/
  | stay
  /-- Asks for a directory and no more, as a slash at the end of a path does. -/
  | inside
  /-- Goes to the directory above. -/
  | up
  /-- Goes to the entry of a name. -/
  | entry (name : Bytes)
  deriving DecidableEq

/-- The step that a text between slashes stands for. -/
def Step.ofBytes (name : Bytes) : Step :=
  if name = [46] then stay else if name = [46, 46] then up else entry name

/-- The number of bytes of a step. -/
def Step.size : Step → Nat
  | stay => 1
  | inside => 0
  | up => 2
  | entry name => name.length

structure Path where
  /-- Whether the path starts at the root. -/
  absolute : Bool
  steps : List Step
  /-- Whether a slash follows the last step. -/
  trailingSlash : Bool := false
  /-- The number of bytes of the path. -/
  size : Nat
  deriving DecidableEq

namespace Path

/-- The texts between slashes; several slashes count as one. -/
def split (bytes : Bytes) : List Bytes := (bytes.splitOn slash).filter (· ≠ [])

def ofBytes (bytes : Bytes) : Path where
  absolute := bytes.head? = some slash
  steps := (split bytes).map Step.ofBytes
  trailingSlash := bytes.getLast? = some slash
  size := bytes.length

def ofString (s : String) : Path := ofBytes (Utf8.encode s)

/-- Whether the path leads nowhere because nothing is written. -/
def isNil (p : Path) : Bool := !p.absolute && p.steps.isEmpty

/-- Whether some name holds a zero byte, which no disk can keep. -/
def hasNul (p : Path) : Bool :=
  p.steps.any fun
    | .entry name => name.contains 0
    | _ => false

/-- The steps to look up: a slash at the end asks for a directory. -/
def lookupSteps (p : Path) : List Step :=
  if p.trailingSlash then p.steps ++ [.inside] else p.steps

/-- The steps without those that stay, but for a first one that stands for the working directory. -/
def essentialSteps (p : Path) : List Step :=
  match p.steps with
  | .stay :: rest =>
    if p.absolute then rest.filter (· ≠ .stay) else .stay :: rest.filter (· ≠ .stay)
  | steps => steps.filter (· ≠ .stay)

/-- The path with the given steps and no slash at the end. -/
def ofSteps (absolute : Bool) (steps : List Step) : Path where
  absolute
  steps
  size := (steps.map (·.size + 1)).foldr (· + ·) 0 - (if absolute then 0 else 1)

/-- The path to the directory that should hold the last step, if there is a last step. -/
def parent? (p : Path) : Option Path :=
  if p.essentialSteps.isEmpty then none else some (ofSteps p.absolute p.essentialSteps.dropLast)

end Path

/-- Appends a path to a base; a path from the root replaces the base. -/
def joinBytes (base path : Bytes) : Bytes :=
  if path.head? = some slash then path
  else if base.isEmpty || base.getLast? = some slash then base ++ path
  else base ++ slash :: path

end InstallManifest.Disk
