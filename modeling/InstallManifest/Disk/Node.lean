import InstallManifest.Disk.Path

/-!
# Disks

A disk is a tree of directories that hold files, symbolic links and further directories, with one
directory to work in. Entries keep the order in which a listing gives them.
-/

namespace InstallManifest.Disk

open Utf8 (Bytes)

/-- What a user may do with a directory. -/
structure Access where
  /-- Whether its entries may be listed. -/
  list : Bool := true
  /-- Whether paths may lead through it. -/
  pass : Bool := true
  deriving DecidableEq

/-- What an entry of a directory is. -/
inductive Node where
  | file (content : Bytes)
  /-- A device that is always empty and swallows what is written to it. -/
  | sink
  | link (target : Bytes)
  | directory (access : Access) (entries : List (Bytes × Node))

namespace Node

def isDirectory : Node → Bool
  | directory _ _ => true
  | _ => false

/-- What may be done with a directory; nothing else keeps anyone out. -/
def access : Node → Access
  | directory access _ => access
  | _ => {}

/-- The entries of a directory; nothing else has any. -/
def entries : Node → List (Bytes × Node)
  | directory _ es => es
  | _ => []

def child? (n : Node) (name : Bytes) : Option Node := n.entries.lookup name

/-- The node that names lead to, from the outermost directory inwards. -/
def get? : Node → List Bytes → Option Node
  | n, [] => some n
  | n, name :: names => (n.child? name).bind (·.get? names)

/-- Sets one entry of a list of entries; a new one comes last. -/
def setEntry (name : Bytes) (new : Node) : List (Bytes × Node) → List (Bytes × Node)
  | [] => [(name, new)]
  | (other, node) :: rest =>
    if other = name then (other, new) :: rest else (other, node) :: setEntry name new rest

/-- Puts a node where names lead to; directories that are missing on the way can be entered. -/
def set : Node → List Bytes → Node → Node
  | _, [], new => new
  | n, name :: names, new =>
    directory n.access
      (setEntry name (((n.child? name).getD (directory {} [])).set names new) n.entries)

end Node

/-- Why a disk refuses something. -/
inductive Fault where
  | notFound
  /-- A directory may not be listed, or no path may lead through it. -/
  | denied
  | alreadyThere
  | notDirectory
  | isDirectory
  | nameTooLong
  | tooManyLinks
  | nulInName
  | notText
  deriving DecidableEq

def Fault.message : Fault → String
  | notFound => "No such file or directory (os error 2)"
  | denied => "Permission denied (os error 13)"
  | alreadyThere => "File exists (os error 17)"
  | notDirectory => "Not a directory (os error 20)"
  | isDirectory => "Is a directory (os error 21)"
  | nameTooLong => "File name too long (os error 36)"
  | tooManyLinks => "Too many levels of symbolic links (os error 40)"
  | nulInName => "file name contained an unexpected NUL byte"
  | notText => "stream did not contain valid UTF-8"

end Disk

/-- A tree of directories and the names that lead to the working directory. -/
structure Disk where
  root : Disk.Node
  workingDirectory : List Utf8.Bytes

end InstallManifest
