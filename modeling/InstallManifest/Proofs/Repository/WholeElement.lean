import InstallManifest.Proofs.Reading.Growth

/-!
# Whole elements and expanded ones

An element without content can be written as one tag or as two. The main statement says exactly
when a reader sees a difference: when the element is a file set that stands inside another one.
Written as two tags it is refused; written as one tag it is taken for a file set of its own.
-/

namespace InstallManifest

open Markup

namespace Markup.TagSource

/-- The tag as a whole element. -/
def whole (t : TagSource) : List Char := '<' :: (t.content ++ ['/', '>'])

/-- The tag as the beginning of an element that ends at once. -/
def expanded (t : TagSource) : List Char :=
  '<' :: (t.content ++ '>' :: '<' :: '/' :: (t.name ++ ['>']))

end Markup.TagSource

namespace Reading

theorem run_whole (s : Reading) (t : TagSource) (rest : List Char) :
    s.run (t.whole ++ rest) = s.onEmpty t.tag >>= fun s' => s'.run rest := by
  have htext : t.whole ++ rest = '<' :: (t.content ++ '/' :: '>' :: rest) := by
    simp [TagSource.whole]
  rw [htext, run_empty]

theorem run_expanded (s : Reading) (t : TagSource) (rest : List Char) :
    s.run (t.expanded ++ rest)
      = (s.onOpening t.tag >>= fun s' => s'.onClosing t.name) >>= fun s' => s'.run rest := by
  have htext : t.expanded ++ rest
      = '<' :: (t.content ++ '>' :: '<' :: ('/' :: (t.name ++ []) ++ '>' :: rest)) := by
    simp [TagSource.expanded]
  rw [htext, run_opening, bind_assoc]
  congr
  funext s'
  exact run_closing s' t.isName rfl rest

/-- Outside of file sets, and for all other elements, the two forms read alike. -/
theorem run_expanded_eq_run_whole {s : Reading} {t : TagSource}
    (h : t.name ≠ "FileSet".toList ∨ s.current = none) (rest : List Char) :
    s.run (t.expanded ++ rest) = s.run (t.whole ++ rest) := by
  have hkind : ElementKind.ofName t.tag.name ≠ .fileSet ∨ s.current = none :=
    h.imp_left fun hname hk => hname (ElementKind.ofName_eq_fileSet_iff.1 hk)
  -- beginning the element and ending it at once is taking it as a whole
  have hstep := onOpening_bind_onClosing hkind
  rw [run_expanded, run_whole, ← hstep]
  rfl

/-- A file set cannot begin where one is being filled. -/
theorem run_expanded_nested {s : Reading} {t : TagSource} (hname : t.name = "FileSet".toList)
    (hs : s.current.isSome) (rest : List Char) :
    s.run (t.expanded ++ rest) = .error .nestedFileSet := by
  rw [run_expanded, onOpening_nested (ElementKind.ofName_eq_fileSet_iff.2 hname) hs, error_bind,
    error_bind]

end Reading

/-- Whether a tag, after a text that is read without a fault, is a file set in an open one. -/
def IsNestedFileSet (before : List Char) (t : TagSource) : Prop :=
  t.name = "FileSet".toList ∧
    ∃ s, Reading.run {} before = .ok s ∧ "FileSet".toList ∈ s.openNames

namespace Repository

/-- Where no file set is open around a file set, the two forms read alike. -/
theorem ofManifest_expanded_of_not_nested {before : List Char} {t : TagSource}
    (hbefore : IsComplete before) (h : ¬ IsNestedFileSet before t) (after : List Char) :
    ofManifest (.ofList (before ++ (t.expanded ++ after)))
      = ofManifest (.ofList (before ++ (t.whole ++ after))) := by
  rw [ofManifest_append hbefore, ofManifest_append hbefore]
  cases hrun : Reading.run {} before with
  | error cause => rfl
  | ok s =>
    have hs : s.Coherent := (Reading.run_ok .initial hrun).1
    -- were a file set being filled, an element of its name would be open
    have hcur : t.name ≠ "FileSet".toList ∨ s.current = none := by
      by_contra hboth
      simp only [not_or, not_not] at hboth
      refine h ⟨hboth.1, s, hrun, hs.mem_openNames_iff.2 ?_⟩
      exact Option.isSome_iff_ne_none.2 hboth.2
    rw [ok_bind, ok_bind, Reading.run_expanded_eq_run_whole hcur]

/-- A file set that begins in an open one makes the text be refused. -/
theorem ofManifest_expanded_of_nested {before : List Char} {t : TagSource}
    (hbefore : IsComplete before) (h : IsNestedFileSet before t) (after : List Char) :
    ofManifest (.ofList (before ++ (t.expanded ++ after))) = .error .nestedFileSet := by
  obtain ⟨hname, s, hrun, hopen⟩ := h
  have hs : s.Coherent := (Reading.run_ok .initial hrun).1
  rw [ofManifest_append hbefore, hrun, ok_bind,
    Reading.run_expanded_nested hname (hs.mem_openNames_iff.1 hopen), error_bind]

/-- A whole element that has an expanded form can be expanded, wherever it stands in a text, without
a change to what is read or to the fault that is told, unless it is a file set inside an open file
set. There the expanded form is refused, so the forms agree only if the rest of the text is refused
for the same reason. An element whose text ends in a slash of its own has no expanded form, and is
no `TagSource`. -/
theorem ofManifest_whole_eq_expanded_iff {before : List Char} (t : TagSource)
    (hbefore : IsComplete before) (after : List Char) :
    (ofManifest (.ofList (before ++ (t.whole ++ after)))
        = ofManifest (.ofList (before ++ (t.expanded ++ after))) ↔
      ¬ IsNestedFileSet before t ∨
        ofManifest (.ofList (before ++ (t.whole ++ after))) = .error .nestedFileSet) ∧
    (IsNestedFileSet before t →
      ofManifest (.ofList (before ++ (t.expanded ++ after))) = .error .nestedFileSet) := by
  refine ⟨⟨fun heq => ?_, fun h => ?_⟩, fun h => ofManifest_expanded_of_nested hbefore h after⟩
  · by_cases hn : IsNestedFileSet before t
    · exact .inr (heq.trans (ofManifest_expanded_of_nested hbefore hn after))
    · exact .inl hn
  · by_cases hn : IsNestedFileSet before t
    · rw [ofManifest_expanded_of_nested hbefore hn after]
      exact h.resolve_left (not_not_intro hn)
    · exact (ofManifest_expanded_of_not_nested hbefore hn after).symm

/-- A file set as a whole element, of which nothing but the identifier is told. -/
def innerFileSet : TagSource :=
  ⟨"FileSet".toList, " Id=\"b\"".toList, by decide, by simp [isBlank], by decide, by decide⟩

theorem ofManifest_expanded_innerFileSet :
    ofManifest (.ofList ("<FileRepository><FileSet Id=\"a\">".toList ++
      (innerFileSet.expanded ++ "</FileSet></FileRepository>".toList)))
      = .error .nestedFileSet := by
  have hbefore : IsComplete "<FileRepository><FileSet Id=\"a\">".toList := by decide +kernel
  have hnested : IsNestedFileSet "<FileRepository><FileSet Id=\"a\">".toList innerFileSet := by
    refine ⟨rfl, ⟨{}, some ⟨none, .raw "a", none, []⟩,
      ["FileSet".toList, "FileRepository".toList], true⟩, ?_, List.mem_cons_self⟩
    decide +kernel
  exact (ofManifest_whole_eq_expanded_iff innerFileSet hbefore
    "</FileSet></FileRepository>".toList).2 hnested

/-- Of the two forms of one element, one is read and the other is refused. -/
theorem ofManifest_innerFileSet_whole_ne_expanded :
    ∃ (before after : List Char) (t : TagSource), IsComplete before ∧
      ofManifest (.ofList (before ++ (t.whole ++ after)))
        = .ok ⟨[], [⟨none, .raw "b", none, []⟩, ⟨none, .raw "a", none, []⟩]⟩ ∧
      ofManifest (.ofList (before ++ (t.expanded ++ after))) = .error .nestedFileSet := by
  refine ⟨"<FileRepository><FileSet Id=\"a\">".toList, "</FileSet></FileRepository>".toList,
    innerFileSet, ?_, ?_, ?_⟩
  · decide +kernel
  · rw [ofManifest_eq, String.toList_ofList]
    decide +kernel
  · rw [ofManifest_eq, String.toList_ofList]
    decide +kernel

end Repository

end InstallManifest
