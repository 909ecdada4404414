import InstallManifest.Yaml.Token.Stream

/-!
# Nodes of YAML

A document is a tree of scalars, sequences and mappings; a node may carry a tag and an anchor, and
another node may refer to it by the anchor. Anchors are numbered, and of several nodes with one
number a reference means the last to begin. A text that breaks off has a tree as well, with a cut
where it does.
-/

namespace InstallManifest.Yaml

open Utf8 (Bytes)

inductive Node where
  /-- Here the text breaks off. -/
  | cut
  /-- The text holds nothing at all. -/
  | void
  | reference (mark : Mark) (id : Nat)
  | scalar (mark : Mark) (anchor : Option Nat) (tag : Option Bytes) (style : ScalarStyle)
      (text : String)
  | sequence (mark : Mark) (anchor : Option Nat) (tag : Option Bytes) (items : List Node)
  | mapping (mark : Mark) (anchor : Option Nat) (tag : Option Bytes) (entries : List (Node × Node))

namespace Node

mutual

/-- The nodes with an anchor in a tree, in the order in which they begin. -/
def anchored (n : Node) : List (Nat × Node) :=
  match n with
  | cut => []
  | void => []
  | reference _ _ => []
  | scalar mark anchor tag style text =>
    (anchor.map fun id => (id, scalar mark anchor tag style text)).toList
  | sequence mark anchor tag items =>
    (anchor.map fun id => (id, sequence mark anchor tag items)).toList ++ anchoredItems items
  | mapping mark anchor tag entries =>
    (anchor.map fun id => (id, mapping mark anchor tag entries)).toList ++ anchoredEntries entries

/-- The nodes with an anchor in the items of a sequence. -/
def anchoredItems : List Node → List (Nat × Node)
  | [] => []
  | item :: items => anchored item ++ anchoredItems items

/-- The nodes with an anchor in the entries of a mapping. -/
def anchoredEntries : List (Node × Node) → List (Nat × Node)
  | [] => []
  | (key, value) :: entries => anchored key ++ anchored value ++ anchoredEntries entries

end

/-- Whether the text broke off here. -/
def isCut : Node → Bool
  | cut => true
  | _ => false

mutual

/-- How much was read of a tree: scalars and references count once, sequences and mappings once for
their start and once for their end. -/
def size : Node → Nat
  | cut => 0
  | void => 1
  | reference _ _ => 1
  | scalar _ _ _ _ _ => 1
  | sequence _ _ _ items => 1 + sizeItems items + (if items.getLast?.any isCut then 0 else 1)
  | mapping _ _ _ entries =>
    1 + sizeEntries entries + (if entries.getLast?.any (·.2.isCut) then 0 else 1)

/-- How much was read of the items of a sequence. -/
def sizeItems : List Node → Nat
  | [] => 0
  | item :: items => size item + sizeItems items

/-- How much was read of the entries of a mapping. -/
def sizeEntries : List (Node × Node) → Nat
  | [] => 0
  | (key, value) :: entries => size key + size value + sizeEntries entries

end

end Node

/-- The first document of a text. -/
structure Document where
  root : Node
  /-- Why the document breaks off, if it does. -/
  fault : Option Fault := none
  /-- Whether something comes after the document. -/
  more : Bool := false

/-- The node that a reference means. -/
def Document.target? (d : Document) (id : Nat) : Option Node := d.root.anchored.reverse.lookup id

end InstallManifest.Yaml
