import InstallManifest.Proofs.Reading.Run

/-!
# Spacing between tags

White space and comments may be put into a manifest, or taken out of it, wherever a token has
ended. Whatever is open at that place and whatever comes after it, well formed or not, the same
repository is read or the same fault is told. A comment may look like a part of a manifest; nothing
in it counts.
-/

namespace InstallManifest

open Markup

namespace Markup

/-- White space, or a comment. The body of a comment may hold anything but the mark that ends it. -/
inductive IsSpacing : List Char → Prop where
  | blank {gap : List Char} (h : allBlank gap = true) : IsSpacing gap
  | comment {body : List Char} (h : ¬ ['-', '-', '>'] <:+: body) :
      IsSpacing ("<!--".toList ++ body ++ "-->".toList)

theorem endsText_of_isBlank {c : Char} (h : isBlank c = true) : endsText c = false := by
  simp only [isBlank, Bool.or_eq_true, decide_eq_true_eq, or_assoc] at h
  rcases h with rfl | rfl | rfl | rfl <;> rfl

/-- Spacing is no tag. -/
theorem IsSpacing.exists_aside {w : List Char} (h : IsSpacing w) : ∃ a : Aside, a.toChars = w := by
  cases h with
  | blank h =>
    refine ⟨.text w ?_, rfl⟩
    intro c hc
    exact endsText_of_isBlank (List.all_eq_true.1 h c hc)
  | @comment body h =>
    refine ⟨.comment body h, ?_⟩
    simp [Aside.toChars]

end Markup

/-- The state of a reading is the same before and after spacing. -/
theorem Reading.run_spacing_append (s : Reading) {w : List Char} (h : IsSpacing w)
    (rest : List Char) : s.run (w ++ rest) = s.run rest := by
  obtain ⟨a, rfl⟩ := h.exists_aside
  exact s.run_aside_append a rest

namespace Repository

/-- Spacing behind a complete part of a text makes no difference to what is read of the text, nor
to the fault for which it is refused. -/
theorem ofManifest_insert_spacing {before w : List Char} (hbefore : IsComplete before)
    (hw : IsSpacing w) (after : List Char) :
    ofManifest (.ofList (before ++ w ++ after)) = ofManifest (.ofList (before ++ after)) := by
  -- whatever state the part before leaves
  have hrun (s : Reading) : s.run (w ++ after) = s.run after := s.run_spacing_append hw after
  rw [List.append_assoc, ofManifest_append hbefore, ofManifest_append hbefore]
  simp only [hrun]

/-- A comment in an open file set that looks like another one; the text goes on with a fault. -/
theorem ofManifest_insert_comment_sample :
    ofManifest (.ofList ("<FileRepository><FileSet Id=\"a\">".toList ++
        ("<!--".toList ++ " </FileSet><FileSet Id='b'/> & \" -".toList ++ "-->".toList) ++
        "</FileSet></Files>".toList))
      = .error (.mismatchedTag "FileRepository".toList "Files".toList) := by
  have hbefore : IsComplete "<FileRepository><FileSet Id=\"a\">".toList := by decide +kernel
  have hw : ¬ ['-', '-', '>'] <:+: " </FileSet><FileSet Id='b'/> & \" -".toList := by decide +kernel
  refine (ofManifest_insert_spacing hbefore (.comment hw) "</FileSet></Files>".toList).trans ?_
  rw [ofManifest_eq, String.toList_ofList]
  decide +kernel

end Repository

end InstallManifest
