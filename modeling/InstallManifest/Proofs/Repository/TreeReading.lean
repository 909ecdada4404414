import InstallManifest.Proofs.Reading.Attributes
import InstallManifest.Proofs.Repository.Tree
import InstallManifest.Proofs.Repository.WholeElement

/-!
# Reading a manifest as a tree

The reader follows the tokens of a text and keeps one file set at a time. On a balanced text in
which no file set stands inside another, that comes to the same as looking at the tree: every
element is judged by its tag and by the names around it, the properties and file sets are those of
the tree in document order, and the files of a file set are the ones among its descendants.
-/

namespace InstallManifest

open Markup

/-! ## What a reading takes from elements -/

namespace Reading

/-- The state with what elements tell. -/
def absorb (s : Reading) (es : List Element) : Reading where
  repository :=
    { properties := s.repository.properties ++ es.filterMap Element.property?
      fileSets := s.repository.fileSets ++ es.filterMap Element.fileSet? }
  current := s.current.map fun set =>
    { set with files := set.files ++ es.filterMap Element.file? }
  openNames := s.openNames
  sawRoot := s.sawRoot || es.any (decide <| ·.IsNamed "FileRepository")

@[simp] theorem absorb_nil (s : Reading) : s.absorb [] = s := by
  obtain ⟨⟨properties, fileSets⟩, current, openNames, sawRoot⟩ := s
  cases current <;> simp [absorb]

theorem absorb_append (s : Reading) (es es' : List Element) :
    s.absorb (es ++ es') = (s.absorb es).absorb es' := by
  simp [absorb, Function.comp_def, Bool.or_assoc]

theorem absorb_cons (s : Reading) (e : Element) (es : List Element) :
    s.absorb (e :: es) = (s.absorb [e]).absorb es :=
  s.absorb_append [e] es

section

variable {s : Reading} {e : Element}

theorem absorb_root (h : e.IsNamed "FileRepository") :
    s.absorb [e] = { s with sawRoot := true } := by
  obtain ⟨repository, current, openNames, sawRoot⟩ := s
  cases current <;> simp [absorb, Element.property?, Element.fileSet?, Element.file?, h.iff]

theorem absorb_property {p : Property} (h : e.IsNamed "Property") (hp : e.property? = some p) :
    s.absorb [e] = s.addProperty p := by
  obtain ⟨repository, current, openNames, sawRoot⟩ := s
  cases current <;> simp [absorb, addProperty, Element.fileSet?, Element.file?, hp, h.iff]

/-- A file set goes to the others, where it is not in another one. -/
theorem absorb_fileSet {set : FileSet} (h : e.IsNamed "FileSet") (hset : e.fileSet? = some set)
    (hs : s.current = none) : s.absorb [e] = s.addFileSet set := by
  simp [absorb, addFileSet, Element.property?, hset, hs, h.iff]

theorem absorb_file {file : FileEntry} {set : FileSet} (h : e.IsNamed "File")
    (hfile : e.file? = some file) (hs : s.current = some set) :
    s.absorb [e] = { s with current := some (set.addFile file) } := by
  simp [absorb, FileSet.addFile, Element.property?, Element.fileSet?, hfile, hs, h.iff]

theorem absorb_other (h : ElementKind.ofName e.tag.name = .other) : s.absorb [e] = s := by
  -- it has none of the four names
  have hroot := e.not_isNamed_of_other h .root rfl
  have hproperty := e.not_isNamed_of_other h .property rfl
  have hfileSet := e.not_isNamed_of_other h .fileSet rfl
  have hfile := e.not_isNamed_of_other h .file rfl
  obtain ⟨repository, current, openNames, sawRoot⟩ := s
  cases current <;> simp [absorb, Element.property?, Element.fileSet?, Element.file?, hroot,
    hproperty, hfileSet, hfile]

end

/-- A file set is being filled exactly inside an element of its name. -/
def Agrees (s : Reading) (ancestors : List (List Char)) : Prop :=
  s.current.isSome ↔ "FileSet".toList ∈ ancestors

/-- Taking elements in does not begin or end a file set. -/
theorem Agrees.absorb {s : Reading} {ancestors : List (List Char)} (h : s.Agrees ancestors)
    (es : List Element) : (s.absorb es).Agrees ancestors := by
  simpa [Agrees, Reading.absorb] using h

/-- Inside an element that is no file set, nothing changes for file sets. -/
theorem Agrees.enter {s : Reading} {ancestors : List (List Char)} (h : s.Agrees ancestors)
    {name : List Char} (hne : name ≠ "FileSet".toList) :
    (s.enter name).Agrees (name :: ancestors) := by
  rw [Agrees, List.mem_cons]
  exact ⟨fun hsome => .inr (h.1 hsome), fun hor => h.2 (hor.resolve_left hne.symm)⟩

/-- Outside of file sets none is being filled. -/
theorem Agrees.current_eq_none {s : Reading} {ancestors : List (List Char)} (h : s.Agrees ancestors)
    (hnot : "FileSet".toList ∉ ancestors) : s.current = none :=
  Option.not_isSome_iff_eq_none.1 fun hsome => hnot (h.1 hsome)

/-! ## Single tags -/

section

variable {s : Reading} {e : Element}

/-- A property is read from its tag as the tree has it, or it is not read and the tree has none. -/
theorem toOption_property (hread : e.tag.IsReadable) (h : e.IsNamed "Property") :
    (Property.ofTag e.tag.source.tag).toOption = e.property? := by
  rw [Property.ofTag, Element.property?, if_pos h]
  simp only [toOption_bind, WrittenTag.toOption_get hread]
  rfl

theorem toOption_file (hread : e.tag.IsReadable) (h : e.IsNamed "File") :
    (FileEntry.ofTag e.tag.source.tag).toOption = e.file? := by
  rw [FileEntry.ofTag, Element.file?, if_pos h]
  simp only [toOption_bind, WrittenTag.toOption_get hread, WrittenTag.get?_eq hread]
  rfl

/-- The files of a file set come later. -/
theorem toOption_fileSet (hread : e.tag.IsReadable) (h : e.IsNamed "FileSet") :
    (FileSet.ofTag e.tag.source.tag).toOption
      = e.fileSet?.map fun set => { set with files := [] } := by
  rw [FileSet.ofTag, Element.fileSet?, if_pos h]
  simp only [toOption_bind, WrittenTag.toOption_get hread, WrittenTag.get?_eq hread]
  cases e.tag.text? "Id" <;> rfl

/-- A tag that is no file set tells what its element is, or is refused. -/
theorem note_of_isValid (hread : e.tag.IsReadable) (hs : s.Agrees e.ancestors)
    (hne : ¬ e.IsNamed "FileSet") :
    (e.IsValid → s.note e.tag.source.tag = .ok (s.absorb [e])) ∧
      (¬ e.IsValid → ∃ cause, s.note e.tag.source.tag = .error cause) := by
  have hname : e.tag.source.tag.name = e.tag.name := rfl
  rw [note, hname]
  -- by what the name is; the tree has the same four cases
  cases hkind : ElementKind.ofName e.tag.name with
  | root =>
    have hn : e.IsNamed "FileRepository" := (ElementKind.ofName_eq_iff rfl).1 hkind
    exact ⟨fun _ => by rw [absorb_root hn], fun hnot => absurd (e.isValid_of_root hn) hnot⟩
  | property =>
    have hn : e.IsNamed "Property" := (ElementKind.ofName_eq_iff rfl).1 hkind
    rw [Element.isValid_iff_of_property hn]
    rcases toOption_cases (toOption_property hread hn) with ⟨p, htag, hp⟩ | ⟨cause, htag, hp⟩
    · refine ⟨fun _ => ?_, fun hnone => absurd (by rw [hp]; rfl) hnone⟩
      rw [absorb_property hn hp]
      simp only [htag]
      rfl
    · rw [hp]
      exact ⟨fun hsome => Bool.noConfusion hsome, fun _ => ⟨cause, by simp [htag]⟩⟩
  | fileSet => exact absurd ((ElementKind.ofName_eq_iff rfl).1 hkind) hne
  | file =>
    have hn : e.IsNamed "File" := (ElementKind.ofName_eq_iff rfl).1 hkind
    have hinside : s.current.isSome ↔ "FileSet".toList ∈ e.ancestors := hs
    rw [Element.isValid_iff_of_file hn, ← hinside]
    dsimp only
    rw [addFile]
    -- outside of file sets the reader refuses a file, and it is not valid there
    cases hcur : s.current with
    | none => exact ⟨fun hboth => absurd hboth.2 (by simp), fun _ => ⟨_, rfl⟩⟩
    | some set =>
      rcases toOption_cases (toOption_file hread hn) with ⟨file, htag, hf⟩ | ⟨cause, htag, hf⟩
      · refine ⟨fun _ => ?_, fun hnone => absurd ⟨by rw [hf]; rfl, rfl⟩ hnone⟩
        rw [absorb_file hn hf hcur]
        simp only [htag]
        rfl
      · rw [hf]
        exact ⟨fun hboth => Bool.noConfusion hboth.1, fun _ => ⟨cause, by simp [htag]⟩⟩
  | other =>
    exact ⟨fun _ => by rw [absorb_other hkind], fun hnot => absurd (e.isValid_of_other hkind) hnot⟩

/-! ## Elements around a content -/

/-- The file set that ends has got the files of its content. -/
theorem onClosing_filled {set : FileSet} (hn : e.IsNamed "FileSet") (hset : e.fileSet? = some set)
    (hinner : e.descendants.filterMap Element.fileSet? = []) (hs : s.current = none) :
    (absorb { s.enter e.tag.name with current := some { set with files := [] } }
        e.descendants).onClosing e.tag.name
      = .ok (s.absorb (e :: e.descendants)) := by
  have hkind : ElementKind.ofName e.tag.name = .fileSet := (ElementKind.ofName_eq_iff rfl).2 hn
  -- what was collected inside are files only, and they are all that the tree has
  have hfilled : absorb { s.enter e.tag.name with current := some { set with files := [] } }
        e.descendants
      = enter { s.absorb e.descendants with current := some set } e.tag.name := by
    simp [absorb, enter, ← e.files_of_fileSet? hset]
  rw [hfilled, onClosing_enter_fileSet hkind, absorb_cons, absorb_fileSet hn hset hs]
  simp [complete, absorb, addFileSet, hinner, hs]

/-- The tag that begins an element is refused, or it leads to a state in which the content of the
element is read; after that, the tag that ends the element has made of all of it what it tells. -/
theorem onOpening_of_isValid (he : e.IsRegular) (hs : s.Agrees e.ancestors)
    (hinner : e.IsNamed "FileSet" → e.descendants.filterMap Element.fileSet? = []) :
    (e.IsValid → ∃ s', s.onOpening e.tag.source.tag = .ok s' ∧
        s'.Agrees (e.tag.name :: e.ancestors) ∧
        (s'.absorb e.descendants).onClosing e.tag.name = .ok (s.absorb (e :: e.descendants))) ∧
      (¬ e.IsValid → ∃ cause, s.onOpening e.tag.source.tag = .error cause) := by
  by_cases hn : e.IsNamed "FileSet"
  · -- a file set waits for its end, so that nothing of it is in the repository before
    have hkind : ElementKind.ofName e.tag.name = .fileSet := (ElementKind.ofName_eq_iff rfl).2 hn
    have hcur : s.current = none := hs.current_eq_none (he.not_nested hn)
    rw [Element.isValid_iff_of_fileSet hn, onOpening_fileSet hkind hcur]
    rcases toOption_cases (toOption_fileSet he.isReadable hn) with
      ⟨empty, htag, hmap⟩ | ⟨cause, htag, hmap⟩
    · obtain ⟨set, hset, rfl⟩ := Option.map_eq_some_iff.1 hmap
      have hsome : e.fileSet?.isSome = true := by rw [hset]; rfl
      refine ⟨fun _ => ⟨_, by rw [htag]; rfl, ?_, ?_⟩, fun hnone => absurd hsome hnone⟩
      · exact ⟨fun _ => hn ▸ List.mem_cons_self, fun _ => rfl⟩
      · exact onClosing_filled hn hset (hinner hn) hcur
    · rw [Option.map_eq_none_iff.1 hmap]
      exact ⟨fun hsome => Bool.noConfusion hsome, fun _ => ⟨cause, by rw [htag]; rfl⟩⟩
  · have hkind : ElementKind.ofName e.tag.name ≠ .fileSet :=
      fun hk => hn ((ElementKind.ofName_eq_iff rfl).1 hk)
    obtain ⟨hvalid, hinvalid⟩ := note_of_isValid he.isReadable hs hn
    rw [onOpening_eq_note hkind]
    refine ⟨fun h => ?_, fun h => ?_⟩
    -- what is no file set has told everything when it begins
    · refine ⟨(s.absorb [e]).enter e.tag.name, by rw [hvalid h]; rfl, ?_, ?_⟩
      · exact (hs.absorb [e]).enter hn
      · rw [absorb_cons s e e.descendants]
        exact onClosing_enter (s := (s.absorb [e]).absorb e.descendants) hkind
    · obtain ⟨cause, hcause⟩ := hinvalid h
      exact ⟨cause, by rw [hcause]; rfl⟩

end

/-- The text tells just these elements: it is refused if one of them is not valid, and otherwise
the state takes what they tell. -/
structure Tells (s : Reading) (text : List Char) (es : List Element) : Prop where
  run_eq : (∀ e ∈ es, e.IsValid) → ∀ rest, s.run (text ++ rest) = (s.absorb es).run rest
  run_error : (∃ e ∈ es, ¬ e.IsValid) → ∀ rest, ∃ cause, s.run (text ++ rest) = .error cause

namespace Tells

variable {s : Reading} {text text' : List Char} {es es' : List Element}

theorem nil (s : Reading) : s.Tells [] [] where
  run_eq _ rest := by rw [absorb_nil, List.nil_append]
  run_error h := by
    obtain ⟨e, he, -⟩ := h
    cases he

/-- Texts that tell something tell both one after the other. -/
theorem append (h : s.Tells text es) (h' : (s.absorb es).Tells text' es') :
    s.Tells (text ++ text') (es ++ es') where
  run_eq hvalid rest := by
    obtain ⟨hes, hes'⟩ := List.forall_mem_append.1 hvalid
    rw [List.append_assoc, h.run_eq hes, h'.run_eq hes', absorb_append]
  run_error hinvalid rest := by
    rw [List.append_assoc]
    -- the first element that is not valid is in the first text or in the second
    by_cases hes : ∀ e ∈ es, e.IsValid
    · obtain ⟨e, he, hnot⟩ := hinvalid
      have he' : e ∈ es' := (List.mem_append.1 he).resolve_left fun hin => hnot (hes e hin)
      rw [h.run_eq hes]
      exact h'.run_error ⟨e, he', hnot⟩ rest
    · simp only [not_forall] at hes
      obtain ⟨e, he, hnot⟩ := hes
      exact h.run_error ⟨e, he, hnot⟩ _

theorem congr (h : s.Tells text es) (htext : ∀ rest, s.run (text' ++ rest) = s.run (text ++ rest)) :
    s.Tells text' es where
  run_eq hvalid rest := (htext rest).trans (h.run_eq hvalid rest)
  run_error hinvalid rest := by
    rw [htext]
    exact h.run_error hinvalid rest

/-- An element tells what it is and then what its content tells. -/
theorem element {e : Element} (he : e.IsRegular) (hs : s.Agrees e.ancestors)
    (hinner : e.IsNamed "FileSet" → e.descendants.filterMap Element.fileSet? = [])
    {content gap : List Char} (hgap : allBlank gap = true)
    (hcontent : ∀ s' : Reading, s'.Agrees (e.tag.name :: e.ancestors) →
      s'.Tells content e.descendants) :
    s.Tells ('<' :: (e.tag.source.content ++ '>' ::
      (content ++ '<' :: ('/' :: (e.tag.name ++ gap) ++ ['>'])))) (e :: e.descendants) := by
  obtain ⟨hvalid, hinvalid⟩ := onOpening_of_isValid he hs hinner
  -- the content is read from the state inside, and the end from what comes of it
  have hrun (rest : List Char) : s.run ('<' :: (e.tag.source.content ++ '>' ::
        (content ++ '<' :: ('/' :: (e.tag.name ++ gap) ++ ['>']))) ++ rest)
      = s.onOpening e.tag.source.tag >>= fun s' =>
          s'.run (content ++ '<' :: ('/' :: (e.tag.name ++ gap) ++ '>' :: rest)) := by
    rw [← run_opening]
    simp
  constructor
  · intro hall rest
    obtain ⟨hhead, hdesc⟩ := List.forall_mem_cons.1 hall
    obtain ⟨s', hopening, hs', hclosing⟩ := hvalid hhead
    rw [hrun, hopening, ok_bind, (hcontent s' hs').run_eq hdesc, run_closing _ e.tag.isName hgap,
      hclosing, ok_bind]
  · rintro ⟨d, hd, hnot⟩ rest
    rw [hrun]
    -- refused at its own tag, or because of something in it
    by_cases hhead : e.IsValid
    · obtain ⟨s', hopening, hs', -⟩ := hvalid hhead
      have hne : d ≠ e := by
        rintro rfl
        exact hnot hhead
      have hd' : d ∈ e.descendants := (List.mem_cons.1 hd).resolve_left hne
      rw [hopening, ok_bind]
      exact (hcontent s' hs').run_error ⟨d, hd', hnot⟩ _
    · obtain ⟨cause, hcause⟩ := hinvalid hhead
      exact ⟨cause, by rw [hcause]; rfl⟩

end Tells

/-- No file set is told inside a file set. -/
theorem filterMap_fileSet?_descendants {e : Element} (hn : e.IsNamed "FileSet")
    (h : ∀ d ∈ e.descendants, d.IsRegular) :
    e.descendants.filterMap Element.fileSet? = [] := by
  refine List.filterMap_eq_nil_iff.2 fun d hd => if_neg fun hfileSet => ?_
  have hmem : "FileSet".toList ∈ e.tag.name :: e.ancestors := by
    rw [hn]
    exact List.mem_cons_self
  exact (h d hd).not_nested hfileSet (Forest.mem_ancestors hmem hd)

/-- By induction on the tree, with the state for what came before and the names for what is open:
the text of a forest tells its elements. -/
theorem tells_forest (f : Forest) {ancestors : List (List Char)} {s : Reading}
    (hs : s.Agrees ancestors) (hf : ∀ e ∈ f.elementsIn ancestors, e.IsRegular) :
    s.Tells f.toChars (f.elementsIn ancestors) := by
  induction f generalizing ancestors s with
  | nil => exact .nil s
  | aside a rest ih =>
    -- an aside is passed over
    refine (ih hs hf).congr fun after => ?_
    rw [Forest.toChars, List.append_assoc, run_aside_append]
  | empty tag rest ih =>
    -- a whole element reads like the two tags around nothing, as it is no nested file set
    let e : Element := ⟨ancestors, tag, .nil⟩
    obtain ⟨he, hrest⟩ := List.forall_mem_cons.1 hf
    have hgap : allBlank [] = true := rfl
    have hexpanded := Tells.element (e := e) he hs (fun _ => rfl) hgap fun s' _ => .nil s'
    have hwhole : s.Tells tag.source.whole [e] := by
      refine hexpanded.congr fun after => ?_
      have hkind : tag.name ≠ "FileSet".toList ∨ s.current = none :=
        or_iff_not_imp_left.2 fun hn => hs.current_eq_none (he.not_nested (not_not.1 hn))
      exact (run_expanded_eq_run_whole hkind after).symm.trans (by simp [TagSource.expanded, e])
    have hall := hwhole.append (ih (hs.absorb [e]) hrest)
    refine hall.congr fun after => ?_
    simp [Forest.toChars, TagSource.whole]
  | element tag content gap gap_blank rest ihcontent ihrest =>
    let e : Element := ⟨ancestors, tag, content⟩
    obtain ⟨he, hinside⟩ := List.forall_mem_cons.1 hf
    obtain ⟨hdesc, hrest⟩ := List.forall_mem_append.1 hinside
    -- the content by induction with one name more, what follows with the state after the element
    have helement := Tells.element (e := e) he hs (filterMap_fileSet?_descendants · hdesc) gap_blank
      fun s' hs' => ihcontent hs' hdesc
    have hall := helement.append (ihrest (hs.absorb _) hrest)
    refine hall.congr fun after => ?_
    simp [Forest.toChars, e]

end Reading

namespace Repository

/-- Reading a balanced text is reading its tree. The text is accepted exactly if the tree describes
a repository, and that repository is the one that is read. -/
theorem ofManifest_forest (f : Forest) (hf : ∀ e ∈ f.elements, e.IsRegular) :
    ((∃ r, ofManifest f.text = .ok r) ↔ f.IsManifest) ∧
      (f.IsManifest → ofManifest f.text = .ok f.repository) := by
  have hstart : Reading.Agrees {} [] := by simp [Reading.Agrees]
  have htells : Reading.Tells {} f.toChars f.elements := Reading.tells_forest f hstart hf
  have hread : ofManifest f.text = Reading.run {} f.toChars >>= Reading.finish := by
    rw [ofManifest_eq, Forest.text, String.toList_ofList]
  -- all elements are taken in, one of which is the root
  have haccept (h : f.IsManifest) : ofManifest f.text = .ok f.repository := by
    have hrun := htells.run_eq h.isValid []
    rw [List.append_nil, Reading.run_nil] at hrun
    have hroot : (Reading.absorb {} f.elements).sawRoot = true := by
      simpa [Reading.absorb] using h.hasRoot
    rw [hread, hrun, ok_bind, Reading.finish, if_pos hroot]
    rfl
  refine ⟨⟨?_, fun h => ⟨_, haccept h⟩⟩, haccept⟩
  rintro ⟨r, hr⟩
  rw [hread] at hr
  obtain ⟨s, hs, hfinish⟩ := bind_eq_ok_iff.1 hr
  -- an element that is not valid would have been refused
  have hvalid : ∀ e ∈ f.elements, e.IsValid := by
    by_contra hnot
    simp only [not_forall] at hnot
    obtain ⟨e, he, hinvalid⟩ := hnot
    obtain ⟨cause, hcause⟩ := htells.run_error ⟨e, he, hinvalid⟩ []
    rw [List.append_nil, hs] at hcause
    cases hcause
  have hrun := htells.run_eq hvalid []
  rw [List.append_nil, Reading.run_nil, hs] at hrun
  cases hrun
  have hroot : (Reading.absorb {} f.elements).sawRoot = true := by
    unfold Reading.finish at hfinish
    split at hfinish
    · assumption
    · cases hfinish
  exact ⟨by simpa [Reading.absorb] using hroot, hvalid⟩

/-- A file in an element of no meaning, and a property in the file set around it. -/
theorem ofManifest_forest_sample : ∃ f : Forest,
    f.toChars = "<!----><FileRepository><FileSet Id=\"s\">".toList ++
      "<a><File Source=\"x\"/></a>".toList ++ "<Property Name=\"&lt;\" Value=\"\"/>".toList ++
      "</FileSet ></FileRepository>".toList ∧
    f.IsManifest ∧
    ofManifest f.text = .ok ⟨[⟨"<", ""⟩], [⟨none, .raw "s", none, [⟨"x", none⟩]⟩]⟩ := by
  let file := (show WellNamed "File" [⟨"Source", "x"⟩] from ⟨by decide, by decide, by decide⟩).tag
  let property := (show WellNamed "Property" [⟨"Name", "<"⟩, ⟨"Value", ""⟩] from
    ⟨by decide, by decide, by decide⟩).tag
  let fileSet := (show WellNamed "FileSet" [⟨"Id", "s"⟩] from
    ⟨by decide, by decide, by decide⟩).tag
  let other := (show WellNamed "a" [] from ⟨by decide, by decide, by decide⟩).tag
  let root := (show WellNamed "FileRepository" [] from ⟨by decide, by decide, by decide⟩).tag
  let content : Forest := .element other (.empty file .nil) [] rfl (.empty property .nil)
  let f : Forest := .aside (.comment [] (by decide))
    (.element root (.element fileSet content [' '] rfl .nil) [] rfl .nil)
  have hregular : ∀ e ∈ f.elements, e.IsRegular := by decide +kernel
  have hmanifest : f.IsManifest := by decide +kernel
  refine ⟨f, by decide +kernel, hmanifest, ((ofManifest_forest f hregular).2 hmanifest).trans ?_⟩
  decide +kernel

end Repository

end InstallManifest
