import InstallManifest.Proofs.Markup.Aside
import InstallManifest.Proofs.Markup.WrittenTag

/-!
# Forests of elements

A balanced text as the tree that it is: elements with well-formed tags, each around what it
contains, with anything else between them. `Forest.elements` lists the elements in document order,
every one with the names of the elements around it.
-/

namespace InstallManifest.Markup

/-- What stands side by side in a text: whole elements, elements around a content of their own, and
asides. White space may follow the name in a closing tag. -/
inductive Forest where
  | nil
  | aside (a : Aside) (rest : Forest)
  | empty (tag : WrittenTag) (rest : Forest)
  | element (tag : WrittenTag) (content : Forest) (gap : List Char)
      (gap_blank : allBlank gap = true) (rest : Forest)

/-- An element where it stands, with the names of the elements around it, innermost first. -/
structure Element where
  ancestors : List (List Char)
  tag : WrittenTag
  content : Forest

namespace Forest

/-- The characters of the whole text. -/
def toChars : Forest → List Char
  | nil => []
  | aside a rest => a.toChars ++ rest.toChars
  | empty tag rest => '<' :: (tag.source.content ++ '/' :: '>' :: rest.toChars)
  | element tag content gap _ rest =>
    '<' :: (tag.source.content ++ '>' ::
      (content.toChars ++ '<' :: ('/' :: (tag.name ++ gap) ++ '>' :: rest.toChars)))

def text (f : Forest) : String := .ofList f.toChars

/-- The elements in document order, inside elements of the given names. -/
def elementsIn (ancestors : List (List Char)) : Forest → List Element
  | nil => []
  | aside _ rest => rest.elementsIn ancestors
  | empty tag rest => ⟨ancestors, tag, nil⟩ :: rest.elementsIn ancestors
  | element tag content _ _ rest =>
    ⟨ancestors, tag, content⟩ ::
      (content.elementsIn (tag.name :: ancestors) ++ rest.elementsIn ancestors)

/-- All elements of a text in document order. -/
def elements (f : Forest) : List Element := f.elementsIn []

/-- What stands around a text stands around all of its elements. -/
theorem mem_ancestors {f : Forest} {ancestors : List (List Char)} {name : List Char} {e : Element}
    (hname : name ∈ ancestors) (he : e ∈ f.elementsIn ancestors) : name ∈ e.ancestors := by
  induction f generalizing ancestors with
  | nil => cases he
  | aside a rest ih => exact ih hname he
  | empty tag rest ih =>
    rcases List.mem_cons.1 he with rfl | he
    · exact hname
    · exact ih hname he
  | element tag content gap gap_blank rest ihcontent ihrest =>
    rcases List.mem_cons.1 he with rfl | he
    · exact hname
    rcases List.mem_append.1 he with he | he
    · exact ihcontent (List.mem_cons_of_mem _ hname) he
    · exact ihrest hname he

end Forest

namespace Element

/-- The elements inside an element, in document order. -/
def descendants (e : Element) : List Element := e.content.elementsIn (e.tag.name :: e.ancestors)

/-- Whether an element has a name. -/
def IsNamed (e : Element) (name : String) : Prop := e.tag.name = name.toList

instance (e : Element) (name : String) : Decidable (e.IsNamed name) :=
  inferInstanceAs (Decidable (_ = _))

end Element

end InstallManifest.Markup
