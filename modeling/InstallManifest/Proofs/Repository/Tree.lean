import InstallManifest.Proofs.Markup.Forest
import InstallManifest.Proofs.Reading.Step

/-!
# Manifests as trees

What a tree of elements says, without a reader: which properties and file sets its elements tell,
what an element needs for that, and when the whole tree describes a repository. An element counts
wherever it stands; only a file needs a file set around it.
-/

namespace InstallManifest

open Markup

namespace Markup.Element

/-- The property that an element tells, if it is one. -/
def property? (e : Element) : Option Property :=
  if e.IsNamed "Property" then do
    let name ← e.tag.text? "Name"
    let value ← e.tag.text? "Value"
    return ⟨name, value⟩
  else none

/-- The file that an element tells, if it is one. -/
def file? (e : Element) : Option FileEntry :=
  if e.IsNamed "File" then do
    let source ← e.tag.text? "Source"
    return ⟨source, e.tag.text? "Target"⟩
  else none

/-- The file set that an element tells, if it is one. -/
def fileSet? (e : Element) : Option FileSet :=
  if e.IsNamed "FileSet" then do
    let id ← e.tag.text? "Id"
    return {
      name := e.tag.text? "Name"
      id := .ofText id
      sourcePackage := e.tag.text? "SourcePackage"
      files := e.descendants.filterMap file? }
  else none

/-- An element whose references all stand for something, and that is no file set in another one. -/
structure IsRegular (e : Element) : Prop where
  isReadable : e.tag.IsReadable
  not_nested : e.IsNamed "FileSet" → "FileSet".toList ∉ e.ancestors

/-- Whether an element has the attributes that its name asks for, and stands where it may. -/
structure IsValid (e : Element) : Prop where
  property : e.IsNamed "Property" → (e.tag.text? "Name").isSome ∧ (e.tag.text? "Value").isSome
  fileSet : e.IsNamed "FileSet" → (e.tag.text? "Id").isSome
  file : e.IsNamed "File" → (e.tag.text? "Source").isSome ∧ "FileSet".toList ∈ e.ancestors

instance (e : Element) : Decidable e.IsRegular :=
  decidable_of_iff (e.tag.IsReadable ∧ (e.IsNamed "FileSet" → "FileSet".toList ∉ e.ancestors))
    ⟨fun h => ⟨h.1, h.2⟩, fun h => ⟨h.1, h.2⟩⟩

instance (e : Element) : Decidable e.IsValid :=
  decidable_of_iff
    ((e.IsNamed "Property" → (e.tag.text? "Name").isSome ∧ (e.tag.text? "Value").isSome) ∧
      (e.IsNamed "FileSet" → (e.tag.text? "Id").isSome) ∧
      (e.IsNamed "File" → (e.tag.text? "Source").isSome ∧ "FileSet".toList ∈ e.ancestors))
    ⟨fun h => ⟨h.1, h.2.1, h.2.2⟩, fun h => ⟨h.1, h.2, h.3⟩⟩

variable {e : Element}

theorem IsNamed.iff {name name' : String} (h : e.IsNamed name) : e.IsNamed name' ↔ name = name' :=
  ⟨fun h' => String.toList_inj.1 (h.symm.trans h'), fun hname => hname ▸ h⟩

/-! An element is judged by what its name makes of it. -/

/-- A property is as it should be exactly if it tells a property. -/
theorem isValid_iff_of_property (h : e.IsNamed "Property") : e.IsValid ↔ e.property?.isSome := by
  have hall : e.property?.isSome ↔ (e.tag.text? "Name").isSome ∧ (e.tag.text? "Value").isSome := by
    rw [property?, if_pos h]
    cases e.tag.text? "Name" <;> cases e.tag.text? "Value" <;> simp
  rw [hall]
  -- what is asked of the other names is not asked of this one
  refine ⟨fun hvalid => hvalid.property h, fun hboth => ⟨fun _ => hboth, ?_, ?_⟩⟩ <;> simp [h.iff]

/-- A file set is as it should be exactly if it tells a file set: an identifier is all that is asked
of it. -/
theorem isValid_iff_of_fileSet (h : e.IsNamed "FileSet") : e.IsValid ↔ e.fileSet?.isSome := by
  have hid : e.fileSet?.isSome ↔ (e.tag.text? "Id").isSome := by
    rw [fileSet?, if_pos h]
    cases e.tag.text? "Id" <;> simp
  rw [hid]
  refine ⟨fun hvalid => hvalid.fileSet h, fun hsome => ⟨?_, fun _ => hsome, ?_⟩⟩ <;> simp [h.iff]

/-- The files of a file set are those of all elements below it, however deep they are. -/
theorem files_of_fileSet? {set : FileSet} (h : e.fileSet? = some set) :
    set.files = e.descendants.filterMap file? := by
  unfold fileSet? at h
  split_ifs at h
  obtain ⟨id, -, hset⟩ := Option.bind_eq_some_iff.1 h
  cases hset
  rfl

/-- A file is as it should be exactly if it tells a file and stands in a file set. -/
theorem isValid_iff_of_file (h : e.IsNamed "File") :
    e.IsValid ↔ e.file?.isSome ∧ "FileSet".toList ∈ e.ancestors := by
  have hsource : e.file?.isSome ↔ (e.tag.text? "Source").isSome := by
    rw [file?, if_pos h]
    cases e.tag.text? "Source" <;> simp
  rw [hsource]
  refine ⟨fun hvalid => hvalid.file h, fun hboth => ⟨?_, ?_, fun _ => hboth⟩⟩ <;> simp [h.iff]

/-- Nothing is asked of the element that makes a text a manifest. -/
theorem isValid_of_root (h : e.IsNamed "FileRepository") : e.IsValid := by
  refine ⟨?_, ?_, ?_⟩ <;> simp [h.iff]

theorem not_isNamed_of_other (h : ElementKind.ofName e.tag.name = .other) (kind : ElementKind)
    {name : String} (hname : kind.name? = some name) : ¬ e.IsNamed name := by
  intro hn
  have hkind : ElementKind.ofName e.tag.name = kind := (ElementKind.ofName_eq_iff hname).2 hn
  rw [← hkind, h] at hname
  cases hname

/-- Nothing is asked of an element that is not known. -/
theorem isValid_of_other (h : ElementKind.ofName e.tag.name = .other) : e.IsValid where
  property hn := absurd hn (not_isNamed_of_other h .property rfl)
  fileSet hn := absurd hn (not_isNamed_of_other h .fileSet rfl)
  file hn := absurd hn (not_isNamed_of_other h .file rfl)

end Markup.Element

namespace Markup.Forest

/-- Whether a tree describes a repository. -/
structure IsManifest (f : Forest) : Prop where
  hasRoot : ∃ e ∈ f.elements, e.IsNamed "FileRepository"
  isValid : ∀ e ∈ f.elements, e.IsValid

instance (f : Forest) : Decidable f.IsManifest :=
  decidable_of_iff
    ((∃ e ∈ f.elements, e.IsNamed "FileRepository") ∧ ∀ e ∈ f.elements, e.IsValid)
    ⟨fun h => ⟨h.1, h.2⟩, fun h => ⟨h.1, h.2⟩⟩

/-- The repository that a tree describes. -/
def repository (f : Forest) : Repository where
  properties := f.elements.filterMap Element.property?
  fileSets := f.elements.filterMap Element.fileSet?

end Markup.Forest

end InstallManifest
