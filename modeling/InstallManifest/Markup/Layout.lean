import InstallManifest.Markup.Reference
import InstallManifest.Markup.Character

/-!
# Laying out markup

A document to be written is a list of pieces: its declaration and its tags, each with its
attributes as plain text. There are two layouts. The compact one writes the pieces back to back;
the indented one puts every tag on a line of its own, as deep as the elements open around it.
-/

namespace InstallManifest.Markup

/-- An attribute to be written, with the text that it shall stand for. -/
structure Assignment where
  name : String
  value : String
  deriving DecidableEq

/-- A tag to be written. -/
inductive Piece where
  | opening (name : String) (attributes : List Assignment)
  | empty (name : String) (attributes : List Assignment)
  | closing (name : String)
  deriving DecidableEq

/-- First line of every document. -/
def declaration : String := "<?xml version=\"1.0\" encoding=\"UTF-8\"?>"

/-- An attribute with the space before it. -/
def Assignment.toChars (a : Assignment) : List Char :=
  ' ' :: a.name.toList ++ '=' :: '"' :: escape a.value.toList ++ ['"']

/-- Whether a document can hold the value of an attribute. -/
def Assignment.isLegal (a : Assignment) : Bool := a.value.toList.all Markup.isLegal

namespace Piece

/-- The attributes of a tag, in order. -/
def attributes : Piece → List Assignment
  | opening _ as => as
  | empty _ as => as
  | closing _ => []

/-- The characters of a tag. -/
def toChars : Piece → List Char
  | opening name as => '<' :: name.toList ++ as.flatMap Assignment.toChars ++ ['>']
  | empty name as => '<' :: name.toList ++ as.flatMap Assignment.toChars ++ ['/', '>']
  | closing name => '<' :: '/' :: name.toList ++ ['>']

/-- How deep the tag itself stands, given the number of elements open before it. -/
def depthAt (depth : Nat) : Piece → Nat
  | closing _ => depth - 1
  | _ => depth

/-- How many elements are open after the tag. -/
def depthAfter (depth : Nat) : Piece → Nat
  | opening _ _ => depth + 1
  | empty _ _ => depth
  | closing _ => depth - 1

end Piece

/-- The tags back to back. -/
def compact (ps : List Piece) : List Char := ps.flatMap Piece.toChars

/-- Every tag on a line of its own, after one `unit` of indentation for each element open around
it. -/
def indented (unit : List Char) : (depth : Nat) → List Piece → List Char
  | _, [] => []
  | depth, p :: ps =>
    '\n' :: (List.replicate (p.depthAt depth) unit).flatten ++ p.toChars ++
      indented unit (p.depthAfter depth) ps

/-- The whole document in the compact layout. -/
def compactDocument (ps : List Piece) : String := String.ofList (declaration.toList ++ compact ps)

/-- The whole document in the indented layout, which ends its last line. -/
def indentedDocument (unit : List Char) (ps : List Piece) : String :=
  String.ofList (declaration.toList ++ indented unit 0 ps ++ ['\n'])

end InstallManifest.Markup
