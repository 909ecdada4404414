import InstallManifest.Proofs.Markup.Spelling
import InstallManifest.Proofs.Repository.RoundTrip

/-!
# The tags of a manifest

The tags that are written for a repository make up a tree of elements: the root, the properties and
the file sets in it, and the files in those. Apart from the values of attributes they are made of a
few names and the characters that set these off.
-/

namespace InstallManifest

open Markup

/-! ## The manifest as a tree -/

theorem Property.wellNamed (p : Property) : WellNamed "Property" p.piece.attributes :=
  p.piece_wellFormed

theorem FileEntry.wellNamed (f : FileEntry) : WellNamed "File" f.piece.attributes :=
  f.piece_wellFormed

/-- File sets side by side, each around its files. -/
def FileSet.forest (emitSourcePackage : Bool) (sets : List FileSet) : Forest :=
  sets.foldr (fun s rest => .around (s.wellNamed emitSourcePackage).tag
    (.ofTags (fun f => f.wellNamed.tag) s.files) rest) .nil

/-- The elements of a manifest. -/
def Repository.forest (emitSourcePackage : Bool) (r : Repository) : Forest :=
  .element wellNamed_fileRepository.tag
    (.around wellNamed_properties.tag (.ofTags (fun p => p.wellNamed.tag) r.properties)
      (.around wellNamed_fileSets.tag (FileSet.forest emitSourcePackage r.fileSets) .nil))
    [] Forest.allBlank_nil .nil

theorem FileSet.spells_forest (emitSourcePackage : Bool) (sets : List FileSet) :
    Spells (sets.flatMap (FileSet.pieces emitSourcePackage))
      (FileSet.forest emitSourcePackage sets) := by
  induction sets with
  | nil => exact .nil
  | cons s sets ih =>
    rw [List.flatMap_cons]
    exact .around (s.wellNamed emitSourcePackage) (.ofTags FileEntry.wellNamed s.files) ih

/-- The tags that are written make up the tree. -/
theorem Repository.spells_forest (emitSourcePackage : Bool) (r : Repository) :
    Spells (r.pieces emitSourcePackage) (r.forest emitSourcePackage) := by
  -- from the inside out: the file sets, what the root holds, and the root
  have hfileSets : Spells (element "FileSets" [] (r.fileSets.flatMap
      (FileSet.pieces emitSourcePackage)) ++ []) _ :=
    .around wellNamed_fileSets (FileSet.spells_forest emitSourcePackage r.fileSets) .nil
  have hinside : Spells (element "Properties" [] (r.properties.map Property.piece) ++ _) _ :=
    .around wellNamed_properties (.ofTags Property.wellNamed r.properties) hfileSets
  have hall : Spells _ (r.forest emitSourcePackage) :=
    .element wellNamed_fileRepository hinside .nil
  rw [List.append_nil] at hall
  rw [Repository.pieces, List.cons_append, List.cons_append]
  exact hall

/-! ## The characters of a compact manifest -/

/-- A letter, or a character that sets off names and values in a tag. -/
def isTagChar (c : Char) : Bool :=
  'A' ≤ c && c ≤ 'Z' || 'a' ≤ c && c ≤ 'z' || c ∈ [' ', '=', '"', '<', '>', '/']

/-- All names in a manifest. -/
def vocabulary : List String :=
  ["FileRepository", "Properties", "Property", "FileSets", "FileSet", "File", "Name", "Value", "Id",
    "SourcePackage", "Source", "Target"]

/-- All names in a manifest are made of letters. -/
theorem isTagChar_of_mem_vocabulary {name : String} (h : name ∈ vocabulary) :
    ∀ c ∈ name.toList, isTagChar c = true := by
  have hall : ∀ name ∈ vocabulary, name.toList.all isTagChar = true := by decide
  exact List.all_eq_true.1 (hall name h)

/-- The names in a tag: that of the element, and those of the attributes. -/
def Markup.Piece.names : Piece → List String
  | .opening name as => name :: as.map (·.name)
  | .empty name as => name :: as.map (·.name)
  | .closing name => [name]

/-- Whatever is in a tag besides names stands in the written value of an attribute. -/
theorem Markup.Piece.mem_toChars {p : Piece} (h : p.names ⊆ vocabulary) {c : Char}
    (hc : c ∈ p.toChars) : isTagChar c = true ∨ ∃ a ∈ p.attributes, c ∈ escape a.value.toList := by
  -- an attribute is set off by a space, an equals sign and quotes
  have hassignment {a : Assignment} (hname : a.name ∈ vocabulary) (hc : c ∈ a.toChars) :
      isTagChar c = true ∨ c ∈ escape a.value.toList := by
    simp only [Assignment.toChars, List.cons_append, List.mem_cons, List.mem_append,
      List.not_mem_nil, or_false] at hc
    rcases hc with rfl | (hc | rfl | rfl | hc) | rfl
    · exact .inl rfl
    · exact .inl (isTagChar_of_mem_vocabulary hname c hc)
    · exact .inl rfl
    · exact .inl rfl
    · exact .inr hc
    · exact .inl rfl
  -- a tag begins with its name, and the attributes follow
  have htag {name : String} {as : List Assignment} (h : name :: as.map (·.name) ⊆ vocabulary)
      (hc : c ∈ name.toList ++ as.flatMap Assignment.toChars) :
      isTagChar c = true ∨ ∃ a ∈ as, c ∈ escape a.value.toList := by
    obtain ⟨hname, has⟩ := List.cons_subset.1 h
    rcases List.mem_append.1 hc with hc | hc
    · exact .inl (isTagChar_of_mem_vocabulary hname c hc)
    · obtain ⟨a, ha, hca⟩ := List.mem_flatMap.1 hc
      exact (hassignment (has (List.mem_map_of_mem ha)) hca).imp_right fun hvalue => ⟨a, ha, hvalue⟩
  -- what is left are the brackets, and the slashes of two kinds of tags
  rw [toChars_eq, List.mem_cons, List.mem_append, List.mem_singleton] at hc
  rcases hc with rfl | hc | rfl
  · exact .inl rfl
  · cases p with
    | opening name as => exact htag h hc
    | empty name as =>
      rcases List.mem_append.1 hc with hc | hc
      · exact htag h hc
      · rw [List.mem_singleton.1 hc]
        exact .inl rfl
    | closing name =>
      rcases List.mem_cons.1 hc with rfl | hc
      · exact .inl rfl
      · exact .inl (isTagChar_of_mem_vocabulary (h List.mem_cons_self) c hc)
  · exact .inl rfl

/-- An element is named by words of the vocabulary if its tag and its content are. -/
theorem names_element {name : String} {as : List Assignment} {content : List Piece}
    (h : name :: as.map (·.name) ⊆ vocabulary) (hcontent : ∀ p ∈ content, p.names ⊆ vocabulary) :
    ∀ p ∈ element name as content, p.names ⊆ vocabulary := by
  have hclosing : (Piece.closing name).names ⊆ vocabulary :=
    List.cons_subset.2 ⟨h List.mem_cons_self, List.nil_subset _⟩
  exact forall_mem_element h h hclosing hcontent

theorem FileEntry.names_piece (f : FileEntry) : f.piece.names ⊆ vocabulary := by
  have hnames : f.piece.names ⊆ ["File", "Source", "Target"] :=
    List.cons_subset_cons "File" f.names_attributes.subset
  exact List.Subset.trans hnames (by decide)

theorem FileSet.names_pieces (emitSourcePackage : Bool) (s : FileSet) :
    ∀ p ∈ s.pieces emitSourcePackage, p.names ⊆ vocabulary := by
  have hnames : "FileSet" :: (s.assignments emitSourcePackage).map (·.name)
      ⊆ ["FileSet", "Name", "Id", "SourcePackage"] :=
    List.cons_subset_cons "FileSet" (s.names_assignments emitSourcePackage).subset
  refine names_element (List.Subset.trans hnames (by decide)) fun p hp => ?_
  obtain ⟨f, -, rfl⟩ := List.mem_map.1 hp
  exact f.names_piece

/-- All tags of a manifest are named by words of the vocabulary. -/
theorem Repository.names_pieces (emitSourcePackage : Bool) (r : Repository) :
    ∀ p ∈ r.pieces emitSourcePackage, p.names ⊆ vocabulary := by
  intro p hp
  simp only [Repository.pieces, List.cons_append, List.mem_cons, List.mem_append,
    List.not_mem_nil, or_false] at hp
  -- the tags of the root, and what is in its two elements
  rcases hp with rfl | (hp | hp) | rfl
  · decide
  · refine names_element (by decide) (fun q hq => ?_) p hp
    obtain ⟨property, -, rfl⟩ := List.mem_map.1 hq
    show ["Property", "Name", "Value"] ⊆ vocabulary
    decide
  · refine names_element (by decide) (fun q hq => ?_) p hp
    obtain ⟨s, -, hs⟩ := List.mem_flatMap.1 hq
    exact s.names_pieces emitSourcePackage q hs
  · decide

/-- What stands in the tags of a manifest: markup, and written values. -/
theorem Repository.mem_toChars_forest {emitSourcePackage : Bool} {r : Repository} {c : Char}
    (hc : c ∈ (r.forest emitSourcePackage).toChars) :
    isTagChar c = true ∨ ∃ a ∈ r.assignments emitSourcePackage, c ∈ escape a.value.toList := by
  rw [← (r.spells_forest emitSourcePackage).compact_eq] at hc
  obtain ⟨p, hp, hcp⟩ := List.mem_flatMap.1 hc
  refine (p.mem_toChars (r.names_pieces emitSourcePackage p hp) hcp).imp_right ?_
  rintro ⟨a, ha, hvalue⟩
  exact ⟨a, List.mem_flatMap.2 ⟨p, hp, ha⟩, hvalue⟩

end InstallManifest
