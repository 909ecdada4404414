import InstallManifest.Proofs.Markup.Sites
import InstallManifest.Proofs.Repository.WholeElement

/-!
# What the reader knows of the root

A manifest is refused if it has no root. What the reader looks for is an element of that name, at
any depth; which elements are outermost it does not look at. So an accepted document is rooted only
if it has a single outermost element of that name, and any other element may stand before it.
-/

namespace InstallManifest

open Markup

/-! ## The flag -/

namespace Reading

variable {s s' : Reading}

theorem complete_sawRoot (s : Reading) : s.complete.sawRoot = s.sawRoot := by
  unfold complete
  split <;> rfl

theorem Notes.sawRoot {t : Tag} (h : s.Notes t s') :
    s'.sawRoot = true ↔ s.sawRoot = true ∨ ElementKind.ofName t.name = .root := by
  cases h with
  | root hk => simp [hk]
  | property hk hp => simp [addProperty, hk]
  | file hk hs hf => simp [hk]
  | other hk => simp [hk]

/-- The flag is raised by an element of the name of a root, and by nothing else. -/
theorem step_sawRoot {token : Token} (h : s.step token = .ok s') :
    s'.sawRoot = true ↔
      s.sawRoot = true ∨ ∃ t ∈ token.tag?, ElementKind.ofName t.name = .root := by
  cases steps_of_step h with
  | opening hnotes => simpa [Token.tag?, enter] using hnotes.sawRoot
  | empty hnotes => simpa [Token.tag?] using hnotes.sawRoot
  | openingFileSet hk hs hset => simp [Token.tag?, enter, hk]
  | emptyFileSet hk hset => simp [Token.tag?, addFileSet, hk]
  | closing hk hopen => simp [Token.tag?]
  | closingFileSet hk hopen => simp [Token.tag?, complete_sawRoot]
  | aside => simp [Token.tag?]

/-- The flag is raised at the end exactly if some tag on the way raised it. -/
theorem foldlM_sawRoot {ts : List Token} (h : ts.foldlM step s = .ok s') :
    s'.sawRoot = true ↔
      s.sawRoot = true ∨ ∃ t ∈ ts.filterMap Token.tag?, ElementKind.ofName t.name = .root := by
  induction ts generalizing s with
  | nil =>
    cases h
    simp
  | cons token ts ih =>
    rw [List.foldlM_cons, bind_eq_ok_iff] at h
    obtain ⟨s₁, hstep, hrest⟩ := h
    rw [ih hrest, step_sawRoot hstep, or_assoc]
    cases htag : token.tag? <;> simp [htag]

end Reading

namespace Repository

/-! ## Rooted documents -/

/-- Whether a document has one outermost element, which is a root, and everything else that means
something lies inside it. -/
def IsRooted (document : String) : Prop :=
  ∃ root, outermost document = [root] ∧ ElementKind.ofName root.name = .root ∧
    ∀ s ∈ sites document, ElementKind.ofName s.name ∈ [.property, .fileSet, .file] →
      s.around.getLast? = some root.name

/-- A root that is the only outermost element is enough: everything else lies inside it then. -/
theorem isRooted_iff {document : String} :
    IsRooted document ↔ (outermost document).map (·.name) = ["FileRepository".toList] := by
  constructor
  · rintro ⟨root, houter, hroot, -⟩
    rw [houter, List.map_singleton, (ElementKind.ofName_eq_iff rfl).1 hroot]
  · intro hnames
    obtain ⟨root, houter, hname⟩ := List.map_eq_singleton_iff.1 hnames
    have hroot : ElementKind.ofName root.name = .root := (ElementKind.ofName_eq_iff rfl).2 hname
    refine ⟨root, houter, hroot, fun s hs hkind => ?_⟩
    by_cases haround : s.around = []
    · -- the root is the only such element, and is none of these
      have hmem : s ∈ outermost document := List.mem_filter.2 ⟨hs, decide_eq_true haround⟩
      rw [houter, List.mem_singleton] at hmem
      rw [hmem, hroot] at hkind
      exact absurd hkind (by decide)
    · obtain ⟨root', hmem, hlast⟩ := exists_outermost_of_mem_sites hs haround
      rw [houter, List.mem_singleton] at hmem
      rw [hlast, hmem]

/-- What the reader accepts has an element of the name of a root somewhere. -/
theorem exists_root_of_ofManifest {document : String} {r : Repository}
    (h : ofManifest document = .ok r) :
    ∃ s ∈ sites document, ElementKind.ofName s.name = .root := by
  obtain ⟨s, hfold, -, hroot, -⟩ := ofManifest_eq_ok_iff.1 h
  rcases (Reading.foldlM_sawRoot hfold).1 hroot with hinitial | ⟨t, ht, hk⟩
  · cases hinitial
  · have hname : t.name ∈ (sites document).map (·.name) := by
      rw [map_name_sites]
      exact List.mem_map_of_mem ht
    -- elements and tags have the same names in the same order
    obtain ⟨site, hsite, heq⟩ := List.mem_map.1 hname
    exact ⟨site, hsite, heq ▸ hk⟩

/-! ## Elements before the root -/

/-- A whole element in front of a document is outermost, and the others stay where they are. -/
theorem sites_whole_append (t : TagSource) (document : String) :
    sites (.ofList (t.whole ++ document.toList))
      = ⟨t.name, []⟩ :: sitesIn [] (Token.scan document.toList).1 := by
  have htext : t.whole ++ document.toList
      = '<' :: (t.content ++ '/' :: '>' :: document.toList) := by
    simp [TagSource.whole]
  -- a tag comes first, so there is no byte order mark to be dropped
  have hmark : dropMark (t.whole ++ document.toList) = t.whole ++ document.toList := by
    rw [htext, dropMark, if_neg (by decide)]
  rw [sites, tokens, String.toList_ofList, hmark, htext, Token.scan_cons (t.next_empty _)]
  rfl

variable {t : TagSource} {document : String}

/-- An element that means nothing to the reader can stand first. -/
theorem ofManifest_whole_append (ht : ElementKind.ofName t.name = .other) :
    ofManifest (.ofList (t.whole ++ document.toList)) = ofManifest document := by
  have hk : ElementKind.ofName t.tag.name ≠ .fileSet := by
    show ElementKind.ofName t.name ≠ .fileSet
    rw [ht]
    decide
  -- nothing is noted of it
  have hnote : Reading.note {} t.tag = .ok {} := by
    rw [Reading.note, show ElementKind.ofName t.tag.name = .other from ht]
  rw [ofManifest_eq, String.toList_ofList, Reading.run_whole, Reading.onEmpty_eq_note hk, hnote,
    ok_bind, ← ofManifest_eq]

theorem not_isRooted_whole_append (ht : ElementKind.ofName t.name ≠ .root) :
    ¬ IsRooted (.ofList (t.whole ++ document.toList)) := by
  rintro ⟨root, houter, hroot, -⟩
  -- the element in front would have to be the root
  have hfirst : (⟨t.name, []⟩ : Site) ∈ outermost (.ofList (t.whole ++ document.toList)) := by
    rw [outermost, sites_whole_append]
    exact List.mem_filter.2 ⟨List.mem_cons_self, rfl⟩
  rw [houter, List.mem_singleton] at hfirst
  rw [← hfirst] at hroot
  exact ht hroot

/-- An accepted document has an element of the name of a root at some depth. It is rooted exactly
if its outermost elements are one of that name, and it need not be: any other element can be put
before it, and the same is read. -/
theorem root_of_ofManifest {r : Repository} (h : ofManifest document = .ok r) :
    (∃ s ∈ sites document, ElementKind.ofName s.name = .root) ∧
      (IsRooted document ↔ (outermost document).map (·.name) = ["FileRepository".toList]) ∧
      ∀ t : TagSource, ElementKind.ofName t.name = .other →
        ofManifest (.ofList (t.whole ++ document.toList)) = .ok r ∧
          ¬ IsRooted (.ofList (t.whole ++ document.toList)) := by
  refine ⟨exists_root_of_ofManifest h, isRooted_iff, fun t ht => ⟨?_, ?_⟩⟩
  · rw [ofManifest_whole_append ht, h]
  · apply not_isRooted_whole_append
    rw [ht]
    decide

/-- An element without attributes. -/
def plainTag : TagSource := ⟨"a".toList, [], by decide, by simp, by decide, by decide⟩

/-- A rooted document with a file set, and the same behind another element. -/
theorem root_of_ofManifest_sample :
    let document := "<FileRepository><FileSet Id=\"x\"/></FileRepository>"
    let r : Repository := ⟨[], [⟨none, .raw "x", none, []⟩]⟩
    IsRooted document ∧ ofManifest (.ofList (plainTag.whole ++ document.toList)) = .ok r := by
  intro document r
  have hread : ofManifest document = .ok r := by
    rw [ofManifest_eq]
    decide +kernel
  obtain ⟨-, hrooted, hbehind⟩ := root_of_ofManifest hread
  exact ⟨hrooted.2 (by decide +kernel), (hbehind plainTag rfl).1⟩

/-- The property counts though it lies in another element, and the root does though it lies in
that element too. -/
theorem ofManifest_without_root :
    ∃ document, ofManifest document = .ok ⟨[⟨"a", "b"⟩], []⟩ ∧
      (outermost document).map (·.name) = ["Repository".toList] ∧ ¬ IsRooted document := by
  let document := "<Repository><Property Name=\"a\" Value=\"b\"/><FileRepository/></Repository>"
  -- the root lies inside of another element
  have hnames : (outermost document).map (·.name) = ["Repository".toList] := by decide +kernel
  refine ⟨document, ?_, hnames, ?_⟩
  · rw [ofManifest_eq]
    decide +kernel
  · rw [isRooted_iff, hnames]
    decide

end Repository

end InstallManifest
