import InstallManifest.Markup.Token
import InstallManifest.Repository

/-!
# Reading a manifest

A manifest is read token by token. The state of the reading is what has been collected so far, the
elements that are open and at most one file set that is being filled; it is complete, and part of
the repository, once its closing tag has been read. Elements of other names are passed over, and
those of a manifest count wherever they stand.
-/

namespace InstallManifest

open Markup

/-- Why a text is no manifest. -/
inductive ReadFault where
  | token (cause : TokenFault)
  | mismatchedTag (expected found : List Char)
  | unmatchedTag (found : List Char)
  | attributes (cause : AttributeFault)
  | attributeValue (cause : ReferenceFault)
  | missingAttribute (name element : List Char)
  | nestedFileSet
  | strayFile
  | noRoot
  deriving DecidableEq

def ReadFault.message : ReadFault → String
  | token cause => s!"Error parsing repository XML: {cause.message}"
  | mismatchedTag expected found =>
    "Error parsing repository XML: ill-formed document: " ++
      s!"expected `</{String.ofList expected}>`, but `</{String.ofList found}>` was found"
  | unmatchedTag found =>
    "Error parsing repository XML: ill-formed document: " ++
      s!"close tag `</{String.ofList found}>` does not match any open tag"
  | attributes cause => s!"Invalid attribute: {cause.message}"
  | attributeValue cause => s!"Invalid attribute value: {cause.message}"
  | missingAttribute name element =>
    s!"Missing required attribute {String.ofList name} on {String.ofList element}"
  | nestedFileSet => "Nested FileSet elements are not allowed"
  | strayFile => "File element outside of a FileSet"
  | noRoot => "Missing FileRepository root element"

namespace Markup.Tag

/-- The text of an attribute, if the tag has it. -/
def get? (t : Tag) (name : String) : Except ReadFault (Option String) :=
  match t.attributes.lookup name.toList with
  | .error cause => .error (.attributes cause)
  | .ok none => .ok none
  | .ok (some raw) =>
    match unescape raw with
    | .error cause => .error (.attributeValue cause)
    | .ok value => .ok (some (String.ofList value))

/-- The text of an attribute that the tag must have. -/
def get (t : Tag) (name : String) : Except ReadFault String := do
  match ← t.get? name with
  | some value => .ok value
  | none => .error (.missingAttribute name.toList t.name)

end Markup.Tag

def Property.ofTag (t : Tag) : Except ReadFault Property := do
  let name ← t.get "Name"
  let value ← t.get "Value"
  return ⟨name, value⟩

/-- A file set without files. -/
def FileSet.ofTag (t : Tag) : Except ReadFault FileSet := do
  let id ← t.get "Id"
  let name ← t.get? "Name"
  let sourcePackage ← t.get? "SourcePackage"
  return { name, id := .ofText id, sourcePackage }

def FileEntry.ofTag (t : Tag) : Except ReadFault FileEntry := do
  let source ← t.get "Source"
  let target ← t.get? "Target"
  return ⟨source, target⟩

/-! ## The state of a reading -/

/-- The elements that mean something in a manifest. -/
inductive ElementKind where
  | root
  | property
  | fileSet
  | file
  | other
  deriving DecidableEq

/-- The kind of the elements of a name. -/
def ElementKind.ofName (name : List Char) : ElementKind :=
  if name = "FileRepository".toList then root
  else if name = "Property".toList then property
  else if name = "FileSet".toList then fileSet
  else if name = "File".toList then file
  else other

/-- How far a manifest has been read. -/
structure Reading where
  repository : Repository := {}
  /-- The file set being filled. -/
  current : Option FileSet := none
  /-- Names of the open elements, innermost first. -/
  openNames : List (List Char) := []
  /-- Whether some element was a root. -/
  sawRoot : Bool := false
  deriving DecidableEq

namespace Reading

def addProperty (s : Reading) (p : Property) : Reading :=
  { s with repository := { s.repository with properties := s.repository.properties ++ [p] } }

def addFileSet (s : Reading) (set : FileSet) : Reading :=
  { s with repository := { s.repository with fileSets := s.repository.fileSets ++ [set] } }

/-- Adds the file of a tag to the file set being filled. -/
def addFile (s : Reading) (t : Tag) : Except ReadFault Reading :=
  match s.current with
  | none => .error .strayFile
  | some set => do
    let file ← FileEntry.ofTag t
    return { s with current := some (set.addFile file) }

/-- What a tag that begins an element means; a file set is now being filled. -/
def onOpening (s : Reading) (t : Tag) : Except ReadFault Reading :=
  let s := { s with openNames := t.name :: s.openNames }
  match ElementKind.ofName t.name with
  | .root => .ok { s with sawRoot := true }
  | .property => return s.addProperty (← Property.ofTag t)
  | .fileSet =>
    if s.current.isSome then .error .nestedFileSet
    else return { s with current := some (← FileSet.ofTag t) }
  | .file => s.addFile t
  | .other => .ok s

/-- What a tag that is a whole element means; a file set is complete at once. -/
def onEmpty (s : Reading) (t : Tag) : Except ReadFault Reading :=
  match ElementKind.ofName t.name with
  | .root => .ok { s with sawRoot := true }
  | .property => return s.addProperty (← Property.ofTag t)
  | .fileSet => return s.addFileSet (← FileSet.ofTag t)
  | .file => s.addFile t
  | .other => .ok s

/-- The file set being filled, if any, becomes part of the repository. -/
def complete (s : Reading) : Reading :=
  match s.current with
  | some set => { s.addFileSet set with current := none }
  | none => s

/-- What a closing tag means: it must belong to the innermost open element. -/
def onClosing (s : Reading) (name : List Char) : Except ReadFault Reading :=
  match s.openNames with
  | [] => .error (.unmatchedTag name)
  | expected :: outer =>
    if name = expected then
      let s := { s with openNames := outer }
      .ok (if ElementKind.ofName name = .fileSet then s.complete else s)
    else .error (.mismatchedTag expected name)

/-- Reads one token. -/
def step (s : Reading) : Token → Except ReadFault Reading
  | .opening t => s.onOpening t
  | .empty t => s.onEmpty t
  | .closing name => s.onClosing name
  | .aside => .ok s

end Reading

namespace Repository

/-- Reads a manifest. Elements may be open at its end; a file set among them is not part of the
repository. -/
def ofManifest (document : String) : Except ReadFault Repository :=
  -- a fault of the text counts after those of the tokens before it
  let (ts, fault) := Markup.tokens document
  match ts.foldlM Reading.step {} with
  | .error cause => .error cause
  | .ok s =>
    match fault with
    | some cause => .error (.token cause)
    | none => if s.sawRoot then .ok s.repository else .error .noRoot

end Repository

end InstallManifest
