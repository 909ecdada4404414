import InstallManifest.Markup.Layout
import InstallManifest.Repository

/-!
# Writing a manifest

A repository becomes a manifest by way of its tags. It can be written unless the layout asks for an
indentation that is no white space, or an attribute holds a character that no document may hold;
the first such attribute in document order is to blame. Attributes that are left out are not
judged.
-/

namespace InstallManifest

/-- How a manifest is laid out. -/
structure RenderOptions where
  /-- One tag a line, instead of everything on one line. -/
  prettyPrint : Bool := true
  /-- The character that indents. -/
  indentChar : Char := '\t'
  /-- How many of them stand for one level; the number is kept in 64 bits. -/
  indentSize : UInt64 := 1
  /-- Whether file sets tell the package they come from. -/
  emitSourcePackage : Bool := false
  deriving DecidableEq

namespace RenderOptions

def pretty : RenderOptions := {}

def compact : RenderOptions := { prettyPrint := false }

/-- Space, tab, line feed, carriage return and form feed may indent. -/
def canIndent (c : Char) : Bool :=
  c = ' ' || c = '\t' || c = '\n' || c = '\r' || c = '\x0c'

/-- The text of one level. -/
def indentUnit (o : RenderOptions) : List Char := List.replicate o.indentSize.toNat o.indentChar

end RenderOptions

/-- Why a repository cannot be written. -/
inductive RenderFault where
  | indentation (char : Char)
  | illegalCharacter (name value : String)
  deriving DecidableEq

open Markup in
/-- An element that holds other elements; without any it is a single tag. -/
def element (name : String) (attributes : List Assignment) (content : List Piece) : List Piece :=
  if content.isEmpty then [.empty name attributes]
  else .opening name attributes :: content ++ [.closing name]

open Markup in
def Property.piece (p : Property) : Piece :=
  .empty "Property" [⟨"Name", p.name⟩, ⟨"Value", p.value⟩]

open Markup in
def FileEntry.piece (f : FileEntry) : Piece :=
  .empty "File" (⟨"Source", f.source⟩ :: (f.target.map (⟨"Target", ·⟩)).toList)

open Markup in
/-- The attributes of a file set; the package it comes from is told only if asked for. -/
def FileSet.assignments (emitSourcePackage : Bool) (s : FileSet) : List Assignment :=
  (s.name.map (⟨"Name", ·⟩)).toList ++ ⟨"Id", s.id.toText⟩ ::
    (if emitSourcePackage then (s.sourcePackage.map (⟨"SourcePackage", ·⟩)).toList else [])

open Markup in
def FileSet.pieces (emitSourcePackage : Bool) (s : FileSet) : List Piece :=
  element "FileSet" (s.assignments emitSourcePackage) (s.files.map FileEntry.piece)

namespace Repository

open Markup in
/-- The tags of a manifest in document order. -/
def pieces (emitSourcePackage : Bool) (r : Repository) : List Piece :=
  .opening "FileRepository" [] ::
    element "Properties" [] (r.properties.map Property.piece) ++
    element "FileSets" [] (r.fileSets.flatMap (FileSet.pieces emitSourcePackage)) ++
    [.closing "FileRepository"]

open Markup in
/-- The attributes that a manifest would hold, in document order. -/
def assignments (emitSourcePackage : Bool) (r : Repository) : List Assignment :=
  (r.pieces emitSourcePackage).flatMap Piece.attributes

/-- The manifest of a repository. -/
def render (r : Repository) (o : RenderOptions) : Except RenderFault String :=
  if o.prettyPrint && !RenderOptions.canIndent o.indentChar then
    .error (.indentation o.indentChar)
  else
    match (r.assignments o.emitSourcePackage).find? (!·.isLegal) with
    | some a => .error (.illegalCharacter a.name a.value)
    | none =>
      let ps := r.pieces o.emitSourcePackage
      .ok (if o.prettyPrint then Markup.indentedDocument o.indentUnit ps
        else Markup.compactDocument ps)

end Repository

end InstallManifest
