import InstallManifest.Proofs.Markup.Layout
import InstallManifest.Proofs.Outcome
import InstallManifest.Proofs.Reading.Run
import InstallManifest.Repository.Writing

/-!
# Reading a laid out document

A document in either layout is read tag by tag: its declaration and the white space between its
tags are passed over. All that a layout adds to a manifest is thus irrelevant to its reader.
-/

namespace InstallManifest

open Markup

namespace Reading

theorem run_piece {p : Piece} (h : p.WellFormed) (s : Reading) (rest : List Char) :
    s.run (p.toChars ++ rest) = s.step p.token >>= fun s' => s'.run rest := by
  have htext : p.toChars ++ rest = '<' :: (p.body ++ '>' :: rest) := by
    simp [p.toChars_eq]
  rw [htext]
  exact run_cons s (Piece.next_token h rest)

theorem run_filler_append (s : Reading) {gap : List Char} (rest : List Char)
    (hgap : ∀ c ∈ gap, isFiller c = true) : s.run (gap ++ rest) = s.run rest :=
  run_text s rest fun c hc => endsText_of_isFiller (hgap c hc)

theorem run_filler (s : Reading) {gap : List Char} (hgap : ∀ c ∈ gap, isFiller c = true) :
    s.run gap = .ok s := by
  have hrun := run_filler_append s [] hgap
  rwa [List.append_nil, run_nil] at hrun

/-- A document in a layout is read as its tags. -/
theorem run_layout {ps : List Piece} {text : List Char} (htext : IsLayout ps text)
    (hps : ∀ p ∈ ps, p.WellFormed) (s : Reading) :
    s.run text = (ps.map Piece.token).foldlM step s := by
  induction htext generalizing s with
  | nil hgap =>
    rw [run_filler s hgap]
    rfl
  | cons hgap _ ih =>
    obtain ⟨hp, hps⟩ := List.forall_mem_cons.1 hps
    rw [run_filler_append s _ hgap, run_piece hp, List.map_cons, List.foldlM_cons]
    -- the rest is read from whatever state the tag leaves
    congr
    funext s'
    exact ih hps s'

/-- The declaration is an instruction like any other. -/
theorem run_declaration (s : Reading) (rest : List Char) :
    s.run (declaration.toList ++ rest) = s.run rest := by
  let instruction : Aside := .instruction "xml version=\"1.0\" encoding=\"UTF-8\"".toList
    (by decide +kernel) (by decide +kernel)
  have htext : declaration.toList = instruction.toChars := by decide +kernel
  rw [htext, run_aside_append]

end Reading

namespace Repository

/-- A written manifest is the declaration and the tags of the repository in some layout. -/
theorem render_ok {r : Repository} {o : RenderOptions} {xml : String} (h : r.render o = .ok xml) :
    ∃ text, IsLayout (r.pieces o.emitSourcePackage) text ∧
      xml.toList = declaration.toList ++ text := by
  unfold render at h
  split at h
  · cases h
  · rename_i hindent
    split at h
    · cases h
    · cases h
      cases hpretty : o.prettyPrint with
      | false =>
        exact ⟨_, isLayout_compact _, by simp [compactDocument]⟩
      | true =>
        have hchar : RenderOptions.canIndent o.indentChar = true := by
          simpa [hpretty] using hindent
        -- what may indent is white space, so a reader passes over it
        have hunit : ∀ c ∈ o.indentUnit, isFiller c = true := by
          intro c hc
          rw [List.eq_of_mem_replicate hc]
          revert hchar
          generalize o.indentChar = d
          intro hd
          simp only [RenderOptions.canIndent, Bool.or_eq_true, decide_eq_true_eq] at hd
          rcases hd with (((rfl | rfl) | rfl) | rfl) | rfl <;> rfl
        exact ⟨_, isLayout_indented hunit _ 0, by simp [indentedDocument]⟩

/-- With legal values only, the compact layout is possible. -/
theorem render_compact {r : Repository} (h : (r.assignments false).find? (!·.isLegal) = none) :
    r.render .compact = .ok (compactDocument (r.pieces false)) := by
  simp [render, RenderOptions.compact, h]

end Repository

end InstallManifest
