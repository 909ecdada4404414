import InstallManifest.Proofs.Reading.Attributes
import InstallManifest.Proofs.Reading.Document
import InstallManifest.Proofs.Reading.Step
import InstallManifest.Proofs.Uuid.Text

/-!
# A manifest is read back

What is written in either layout is read back as it was: properties, file sets and files in order,
with their names, sources and targets. Only identifiers are taken anew from their text, and the
packages that file sets come from are lost if they were not written.
-/

namespace InstallManifest

open Markup

/-- What is left of a file set after it was written and read. -/
def FileSet.reread (emitSourcePackage : Bool) (s : FileSet) : FileSet :=
  { s with
    id := .ofText s.id.toText
    sourcePackage := if emitSourcePackage then s.sourcePackage else none }

/-- What is left of a repository after it was written and read. -/
def Repository.reread (emitSourcePackage : Bool) (r : Repository) : Repository :=
  { r with fileSets := r.fileSets.map (·.reread emitSourcePackage) }

/-! ## All tags of a manifest are well formed -/

/-- The names of the attributes are fixed, whatever a property says. -/
theorem Property.piece_wellFormed (p : Property) : p.piece.WellFormed :=
  WellNamed.of_sublist ["Name", "Value"] (List.Sublist.refl _) (by decide)

/-- Which attributes a file has depends on whether it tells a target, but their order does not. -/
theorem FileEntry.names_attributes (f : FileEntry) :
    (f.piece.attributes.map (·.name)).Sublist ["Source", "Target"] := by
  unfold FileEntry.piece Piece.attributes
  cases f.target <;> simp

/-- No attribute of a file is written twice. -/
theorem FileEntry.piece_wellFormed (f : FileEntry) : f.piece.WellFormed :=
  WellNamed.of_sublist ["Source", "Target"] f.names_attributes (by decide)

/-- A file set is written with some of three attributes, always in one order. -/
theorem FileSet.names_assignments (emitSourcePackage : Bool) (s : FileSet) :
    ((s.assignments emitSourcePackage).map (·.name)).Sublist ["Name", "Id", "SourcePackage"] := by
  unfold FileSet.assignments
  -- each of the optional attributes is there or not
  cases s.name <;> cases emitSourcePackage <;> cases s.sourcePackage <;> simp

/-- No attribute of a file set is written twice, however it is rendered. -/
theorem FileSet.wellNamed (emitSourcePackage : Bool) (s : FileSet) :
    WellNamed "FileSet" (s.assignments emitSourcePackage) :=
  WellNamed.of_sublist ["Name", "Id", "SourcePackage"] (s.names_assignments emitSourcePackage)
    (by decide)

theorem wellNamed_fileRepository : WellNamed "FileRepository" [] :=
  .of_sublist [] (List.Sublist.refl _) (by decide)

theorem wellNamed_properties : WellNamed "Properties" [] :=
  .of_sublist [] (List.Sublist.refl _) (by decide)

theorem wellNamed_fileSets : WellNamed "FileSets" [] :=
  .of_sublist [] (List.Sublist.refl _) (by decide)

/-- What is true of the tags of an element and of all tags in it. -/
theorem forall_mem_element {P : Piece → Prop} {name : String} {as : List Assignment}
    {content : List Piece} (hempty : P (.empty name as)) (hopening : P (.opening name as))
    (hclosing : P (.closing name)) (hcontent : ∀ p ∈ content, P p) :
    ∀ p ∈ element name as content, P p := by
  unfold element
  split_ifs
  · intro p hp
    rw [List.mem_singleton.1 hp]
    exact hempty
  · intro p hp
    simp only [List.cons_append, List.mem_cons, List.mem_append, List.not_mem_nil, or_false] at hp
    rcases hp with rfl | hp | rfl
    · exact hopening
    · exact hcontent p hp
    · exact hclosing

/-- The tag of an element is well formed in all the places where it is written, begun, ended or
whole. -/
theorem element_wellFormed {name : String} {as : List Assignment} {content : List Piece}
    (h : WellNamed name as) (hcontent : ∀ p ∈ content, p.WellFormed) :
    ∀ p ∈ element name as content, p.WellFormed :=
  forall_mem_element h h h.isName hcontent

/-- All tags of a file set are well formed, its own and those of its files. -/
theorem FileSet.pieces_wellFormed (emitSourcePackage : Bool) (s : FileSet) :
    ∀ p ∈ s.pieces emitSourcePackage, p.WellFormed := by
  refine element_wellFormed (s.wellNamed emitSourcePackage) fun p hp => ?_
  obtain ⟨f, -, rfl⟩ := List.mem_map.1 hp
  exact f.piece_wellFormed

/-- All tags of a manifest are well formed, whatever the repository is. -/
theorem Repository.pieces_wellFormed (emitSourcePackage : Bool) (r : Repository) :
    ∀ p ∈ r.pieces emitSourcePackage, p.WellFormed := by
  intro p hp
  simp only [Repository.pieces, List.cons_append, List.mem_cons, List.mem_append,
    List.not_mem_nil, or_false] at hp
  -- the root begins, the two groups follow, and the root ends
  rcases hp with rfl | (hp | hp) | rfl
  · exact wellNamed_fileRepository
  · refine element_wellFormed wellNamed_properties (fun q hq => ?_) p hp
    obtain ⟨property, -, rfl⟩ := List.mem_map.1 hq
    exact property.piece_wellFormed
  · refine element_wellFormed wellNamed_fileSets (fun q hq => ?_) p hp
    obtain ⟨s, -, hs⟩ := List.mem_flatMap.1 hq
    exact s.pieces_wellFormed emitSourcePackage q hs
  · exact wellNamed_fileRepository.isName

/-! ## Reading the tags of one part -/

/-- A property is read from its tag as it was written. -/
theorem Property.ofTag_piece (p : Property) :
    Property.ofTag (.ofAssignments "Property" p.piece.attributes) = .ok p := by
  have hnamed : WellNamed "Property" p.piece.attributes := p.piece_wellFormed
  have hname : (Tag.ofAssignments "Property" p.piece.attributes).get "Name" = .ok p.name :=
    Tag.get_eq_ok (hnamed.get?_eq "Name")
  have hvalue : (Tag.ofAssignments "Property" p.piece.attributes).get "Value" = .ok p.value :=
    Tag.get_eq_ok (hnamed.get?_eq "Value")
  rw [Property.ofTag, hname, hvalue]
  rfl

/-- A file is read from its tag as it was written. Without a target there is none to be found. -/
theorem FileEntry.ofTag_piece (f : FileEntry) :
    FileEntry.ofTag (.ofAssignments "File" f.piece.attributes) = .ok f := by
  have hnamed : WellNamed "File" f.piece.attributes := f.piece_wellFormed
  have hsource : (Tag.ofAssignments "File" f.piece.attributes).get "Source" = .ok f.source :=
    Tag.get_eq_ok (hnamed.get?_eq "Source")
  have htarget : (Tag.ofAssignments "File" f.piece.attributes).get? "Target" = .ok f.target := by
    rw [hnamed.get?_eq "Target"]
    cases hf : f.target <;> simp [FileEntry.piece, Piece.attributes, hf]
  rw [FileEntry.ofTag, hsource, htarget]
  rfl

/-- A file set is read from its tag without its files: these are tags of their own. -/
theorem FileSet.ofTag_assignments (emitSourcePackage : Bool) (s : FileSet) :
    FileSet.ofTag (.ofAssignments "FileSet" (s.assignments emitSourcePackage))
      = .ok { s.reread emitSourcePackage with files := [] } := by
  have hnamed := s.wellNamed emitSourcePackage
  -- the identifier comes back as the text that was written for it
  have hid : (Tag.ofAssignments "FileSet" (s.assignments emitSourcePackage)).get "Id"
      = .ok s.id.toText := by
    refine Tag.get_eq_ok ((hnamed.get?_eq "Id").trans ?_)
    cases hs : s.name <;> simp [FileSet.assignments, hs]
  have hname : (Tag.ofAssignments "FileSet" (s.assignments emitSourcePackage)).get? "Name"
      = .ok s.name := by
    rw [hnamed.get?_eq "Name"]
    cases hs : s.name <;> cases emitSourcePackage <;> cases hp : s.sourcePackage <;>
      simp [FileSet.assignments, hs, hp]
  -- a package that is not emitted is not found
  have hpackage :
      (Tag.ofAssignments "FileSet" (s.assignments emitSourcePackage)).get? "SourcePackage"
        = .ok (s.reread emitSourcePackage).sourcePackage := by
    rw [hnamed.get?_eq "SourcePackage"]
    cases hs : s.name <;> cases emitSourcePackage <;> cases hp : s.sourcePackage <;>
      simp [FileSet.assignments, FileSet.reread, hs, hp]
  rw [FileSet.ofTag, hid, hname, hpackage]
  rfl

namespace Reading

variable (emitSourcePackage : Bool)

/-- One tag, one property more. -/
theorem step_property (s : Reading) (p : Property) :
    s.step p.piece.token = .ok (s.addProperty p) := by
  have hkind : ElementKind.ofName (Tag.ofAssignments "Property" p.piece.attributes).name
      = .property := by
    show ElementKind.ofName "Property".toList = _
    decide
  have htoken : p.piece.token = .empty (.ofAssignments "Property" p.piece.attributes) := rfl
  rw [htoken, step, onEmpty_eq_note (by rw [hkind]; decide), note, hkind]
  -- the tag is of the kind that its name tells, and its attributes give the property back
  dsimp only
  rw [p.ofTag_piece]
  rfl

/-- One tag, one file more in the file set that is being filled. -/
theorem step_file {s : Reading} {set : FileSet} (hs : s.current = some set) (f : FileEntry) :
    s.step f.piece.token = .ok { s with current := some (set.addFile f) } := by
  have hkind : ElementKind.ofName (Tag.ofAssignments "File" f.piece.attributes).name = .file := by
    show ElementKind.ofName "File".toList = _
    decide
  have htoken : f.piece.token = .empty (.ofAssignments "File" f.piece.attributes) := rfl
  rw [htoken, step, onEmpty_eq_note (by rw [hkind]; decide), note, hkind]
  dsimp only
  rw [addFile, hs]
  dsimp only
  rw [f.ofTag_piece]
  rfl

/-- The properties are collected in their order. -/
theorem foldlM_properties (s : Reading) (ps : List Property) :
    ((ps.map Property.piece).map Piece.token).foldlM step s = .ok (s.addProperties ps) := by
  -- on the properties, from any state
  induction ps generalizing s with
  | nil => simp [pure, Except.pure]
  | cons p ps ih =>
    rw [List.map_cons, List.map_cons, List.foldlM_cons, step_property, ok_bind, ih,
      addProperties_cons]

/-- The files are collected in their order, behind those that a file set has already. -/
theorem foldlM_files {s : Reading} {set : FileSet} (hs : s.current = some set)
    (fs : List FileEntry) :
    ((fs.map FileEntry.piece).map Piece.token).foldlM step s
      = .ok { s with current := some { set with files := set.files ++ fs } } := by
  induction fs generalizing s set with
  | nil => simp [pure, Except.pure, ← hs]
  | cons f fs ih =>
    rw [List.map_cons, List.map_cons, List.foldlM_cons, step_file hs, ok_bind, ih rfl]
    simp [FileSet.addFile]

/-- An element is its one tag if it has no content, and its content between two tags if it has. -/
theorem foldlM_element (s : Reading) (name : String) (as : List Assignment)
    (content : List Piece) :
    ((element name as content).map Piece.token).foldlM step s
      = if content.isEmpty then s.onEmpty (.ofAssignments name as)
        else s.onOpening (.ofAssignments name as) >>= fun s1 =>
          (content.map Piece.token).foldlM step s1 >>= fun s2 => s2.onClosing name.toList := by
  unfold element
  split_ifs with hc
  · rw [List.map_singleton, List.foldlM_cons]
    exact bind_pure _
  · rw [List.cons_append, List.map_cons, List.map_append, List.foldlM_cons]
    congr
    funext s1
    rw [List.foldlM_append]
    congr
    funext s2
    rw [List.map_singleton, List.foldlM_cons]
    exact bind_pure _

/-- An element of no meaning passes on what its content says. -/
theorem foldlM_element_of_other {s s' : Reading} {name : String} {as : List Assignment}
    {content : List Piece} (hk : ElementKind.ofName name.toList = .other)
    (h : (content.map Piece.token).foldlM step (s.enter name.toList)
      = .ok (s'.enter name.toList)) :
    ((element name as content).map Piece.token).foldlM step s = .ok s' := by
  have htag : ElementKind.ofName (Tag.ofAssignments name as).name = .other := hk
  have hne : ElementKind.ofName name.toList ≠ .fileSet := by
    rw [hk]
    decide
  have hnote : s.note (.ofAssignments name as) = .ok s := by
    rw [note, htag]
  rw [foldlM_element, onEmpty_eq_note hne, onOpening_eq_note hne, hnote]
  split_ifs with hc
  · -- without content there is only one tag, and the state inside is never entered
    rw [List.isEmpty_iff.1 hc] at h
    obtain ⟨repository, current, openNames, sawRoot⟩ := s
    obtain ⟨repository', current', openNames', sawRoot'⟩ := s'
    simpa [enter, pure, Except.pure] using h
  · show ((content.map Piece.token).foldlM step (s.enter name.toList) >>= _) = _
    rw [h, ok_bind, onClosing_enter hne]

/-- A file set is put in whole, with or without files, and none is being filled afterwards. -/
theorem foldlM_fileSet {s : Reading} (hs : s.current = none) (set : FileSet) :
    ((set.pieces emitSourcePackage).map Piece.token).foldlM step s
      = .ok (s.addFileSet (set.reread emitSourcePackage)) := by
  have hk : ElementKind.ofName "FileSet".toList = .fileSet := by decide
  have htag : ElementKind.ofName
      (Tag.ofAssignments "FileSet" (set.assignments emitSourcePackage)).name = .fileSet := hk
  rw [FileSet.pieces, foldlM_element, onEmpty_fileSet htag, onOpening_fileSet htag hs,
    set.ofTag_assignments]
  split_ifs with hc
  -- without files it is one tag, and nothing is added to it
  · have hfiles : set.files = [] := by simpa using hc
    simp [Except.map, FileSet.reread, hfiles]
  -- with files it begins empty, takes them in and is put in at its end
  · rw [Except.map, ok_bind, foldlM_files rfl, ok_bind]
    show (enter { s with current := some (set.reread emitSourcePackage) }
      "FileSet".toList).onClosing "FileSet".toList = _
    rw [onClosing_enter_fileSet hk]
    simp [complete, addFileSet, hs]

/-- The file sets are collected in their order. Between two of them none is being filled. -/
theorem foldlM_fileSets {s : Reading} (hs : s.current = none) (sets : List FileSet) :
    ((sets.flatMap (FileSet.pieces emitSourcePackage)).map Piece.token).foldlM step s
      = .ok (s.addFileSets (sets.map (FileSet.reread emitSourcePackage))) := by
  induction sets generalizing s with
  | nil => simp [pure, Except.pure]
  | cons set sets ih =>
    have hnext : (s.addFileSet (set.reread emitSourcePackage)).current = none := hs
    rw [List.flatMap_cons, List.map_append, List.foldlM_append, foldlM_fileSet _ hs, ok_bind,
      ih hnext, List.map_cons, addFileSets_cons]

theorem step_root (s : Reading) :
    s.step (Piece.opening "FileRepository" []).token
      = .ok (enter { s with sawRoot := true } "FileRepository".toList) := by
  have hk : ElementKind.ofName (Tag.ofAssignments "FileRepository" []).name ≠ .fileSet := by
    show ElementKind.ofName "FileRepository".toList ≠ _
    decide
  exact onOpening_eq_note hk

/-- Reading all tags of a manifest. -/
theorem foldlM_pieces (r : Repository) :
    ((r.pieces emitSourcePackage).map Piece.token).foldlM step {}
      = .ok { repository := r.reread emitSourcePackage, sawRoot := true } := by
  -- the states inside the root: at its start, after the properties, after the file sets
  let s : Reading := enter { sawRoot := true } "FileRepository".toList
  let s' : Reading := s.addProperties r.properties
  let s'' : Reading := s'.addFileSets (r.fileSets.map (FileSet.reread emitSourcePackage))
  have hopening : step {} (Piece.opening "FileRepository" []).token = .ok s := step_root {}
  have hproperties : ((element "Properties" [] (r.properties.map Property.piece)).map
      Piece.token).foldlM step s = .ok s' :=
    foldlM_element_of_other (by decide) (foldlM_properties _ r.properties)
  have hfileSets : ((element "FileSets" [] (r.fileSets.flatMap
      (FileSet.pieces emitSourcePackage))).map Piece.token).foldlM step s' = .ok s'' :=
    foldlM_element_of_other (by decide) (foldlM_fileSets _ rfl r.fileSets)
  have hend : s'' = enter { repository := r.reread emitSourcePackage, sawRoot := true }
      "FileRepository".toList := rfl
  have hclosing : step s'' (Piece.closing "FileRepository").token
      = .ok { repository := r.reread emitSourcePackage, sawRoot := true } := by
    have hk : ElementKind.ofName "FileRepository".toList ≠ .fileSet := by decide
    rw [hend]
    exact onClosing_enter hk
  rw [Repository.pieces, List.map_append, List.map_append, List.map_cons, List.map_singleton,
    List.foldlM_append, List.foldlM_append, List.foldlM_cons, hopening]
  simp only [ok_bind, hproperties, hfileSets, List.foldlM_cons, hclosing]
  rfl

end Reading

/-! ## The whole manifest -/

/-- Nothing is lost of a file set if its identifier means itself and its package was written. -/
theorem FileSet.reread_eq_self {emitSourcePackage : Bool} {s : FileSet}
    (hid : ∀ text, s.id = .raw text → Uuid.ofString? text = none)
    (hpackage : emitSourcePackage = true ∨ s.sourcePackage = none) :
    s.reread emitSourcePackage = s := by
  obtain ⟨name, id, sourcePackage, files⟩ := s
  -- a UUID is always read back, a raw text only if it spells none
  have hid' : FileSetId.ofText id.toText = id := by
    cases id with
    | uuid u => exact FileSetId.ofText_toText_uuid u
    | raw text => exact FileSetId.ofText_toText_raw (hid text rfl)
  have hpackage' : (if emitSourcePackage then sourcePackage else none) = sourcePackage := by
    rcases hpackage with rfl | hnone
    · rfl
    · rw [show sourcePackage = none from hnone, ite_self]
  simp only [FileSet.reread, hid', hpackage']

namespace Repository

/-- Nothing is lost of a repository if nothing is lost of any of its file sets. -/
theorem reread_eq_self {emitSourcePackage : Bool} {r : Repository}
    (hid : ∀ s ∈ r.fileSets, ∀ text, s.id = .raw text → Uuid.ofString? text = none)
    (hpackage : emitSourcePackage = true ∨ ∀ s ∈ r.fileSets, s.sourcePackage = none) :
    r.reread emitSourcePackage = r := by
  have hset : ∀ s ∈ r.fileSets, s.reread emitSourcePackage = s := fun s hs =>
    FileSet.reread_eq_self (hid s hs) (hpackage.imp_right fun hnone => hnone s hs)
  rw [Repository.reread, List.map_congr_left hset, List.map_id']

/-- What is read of a manifest that was written. -/
theorem ofManifest_written {r : Repository} {o : RenderOptions} {xml : String}
    (h : r.render o = .ok xml) : ofManifest xml = .ok (r.reread o.emitSourcePackage) := by
  obtain ⟨text, hlayout, hxml⟩ := render_ok h
  rw [ofManifest_eq, hxml, Reading.run_declaration,
    Reading.run_layout hlayout (r.pieces_wellFormed o.emitSourcePackage), Reading.foldlM_pieces]
  rfl

/-- A manifest that was written is read back, whatever its layout and whatever its texts hold. If
no raw identifier spells a UUID, and no package gets lost, it is the same repository again. -/
theorem ofManifest_render {r : Repository} {o : RenderOptions} {xml : String}
    (h : r.render o = .ok xml) :
    ofManifest xml = .ok (r.reread o.emitSourcePackage) ∧
      ((∀ s ∈ r.fileSets, ∀ text, s.id = .raw text → Uuid.ofString? text = none) →
        (o.emitSourcePackage = true ∨ ∀ s ∈ r.fileSets, s.sourcePackage = none) →
        ofManifest xml = .ok r) := by
  have hread := ofManifest_written h
  refine ⟨hread, fun hid hpackage => ?_⟩
  rw [hread, reread_eq_self hid hpackage]

/-- Texts of all kinds: references, quotes, white space and nothing at all. -/
theorem ofManifest_render_sample :
    let r : Repository := ⟨[⟨"<&>", "\"\t'\n"⟩],
      [⟨some "", .raw "a", some "p", [⟨"x", some ""⟩, ⟨"", none⟩]⟩, ⟨none, .raw "", none, []⟩]⟩
    let o : RenderOptions := ⟨true, '\n', 2, true⟩
    ∃ xml, r.render o = .ok xml ∧ ofManifest xml = .ok r := by
  intro r o
  have h : r.render o = .ok (indentedDocument o.indentUnit (r.pieces true)) := by
    -- every value may be written, so rendering does not fail
    have hlegal : (r.assignments true).find? (!·.isLegal) = none := by decide +kernel
    simp [render, o, hlegal, RenderOptions.canIndent]
  have hid : ∀ s ∈ r.fileSets, ∀ text, s.id = .raw text → Uuid.ofString? text = none := by
    intro s hs text htext
    simp only [r, List.mem_cons, List.not_mem_nil, or_false] at hs
    rcases hs with rfl | rfl <;> cases htext <;> decide +kernel
  exact ⟨_, h, (ofManifest_render h).2 hid (.inl rfl)⟩

end Repository

end InstallManifest
