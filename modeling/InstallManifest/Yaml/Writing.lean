import InstallManifest.Yaml.Style

/-!
# Writing YAML

A tree of mappings, sequences and texts is written in blocks. A block within a mapping is indented,
but a sequence stands at the column of its key.
-/

namespace InstallManifest.Yaml

/-- Something to be written. -/
inductive Block where
  | scalar (style : ScalarStyle) (text : String)
  | sequence (items : List Block)
  | mapping (entries : List (String × Block))

namespace Block

/-- A text in the style that suits it. -/
def text (s : String) : Block := scalar (styleOf s) s

/-- A text that is always quoted. -/
def quoted (s : String) : Block := scalar (quotingStyle s.toList) s

/-- A truth value or a number. -/
def bare (s : String) : Block := scalar .plain s

/-- The beginning of a line. -/
def margin (indent : Nat) : List Char := List.replicate indent ' '

mutual

/-- What comes after a key that stands at a column, and ends the line of the key. -/
def write (indent : Nat) : Block → List Char
  | scalar style text => ' ' :: writeScalar (indent + indentStep) style text.toList
  | sequence [] => [' ', '[', ']', '\n']
  | sequence items => '\n' :: writeItems indent items
  | mapping entries => '\n' :: writeEntries (indent + indentStep) false entries

/-- The items of a sequence whose dashes stand at a column. -/
def writeItems (indent : Nat) : List Block → List Char
  | [] => []
  | item :: items =>
    margin indent ++ '-' ::
      (match item with
        | mapping entries => ' ' :: writeEntries (indent + indentStep) true entries
        | item => write indent item) ++
      writeItems indent items

/-- The entries of a mapping whose keys stand at a column; the first may be there already. -/
def writeEntries (indent : Nat) (placed : Bool) : List (String × Block) → List Char
  | [] => []
  | (key, value) :: entries =>
    (if placed then [] else margin indent) ++ key.toList ++ ':' :: write indent value ++
      writeEntries indent false entries

end

/-- The text of a document. -/
def document (entries : List (String × Block)) : String :=
  String.ofList (writeEntries 0 false entries)

end Block

end InstallManifest.Yaml
