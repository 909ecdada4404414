import InstallManifest.Proofs.Repository.Rendering
import InstallManifest.Proofs.Repository.Tags
import Mathlib.Data.Bool.AllAny

/-!
# The two layouts of a manifest

A manifest is a tree of elements whatever its layout. Compact, its text is made of the tags alone;
indented, every tag has a line of its own, as deep as the elements around it, and nothing else is
different. So each layout can be made out of the other without knowing the repository.
-/

namespace InstallManifest

open Markup

/-! ## What a layout adds to the tags -/

namespace RenderOptions

variable (o : RenderOptions)

/-- What stands before a tag inside of `depth` elements. -/
def gapBefore (depth : Nat) : List Char :=
  if o.prettyPrint then lineBreak o.indentUnit depth else []

/-- What stands after the last tag. -/
def ending : List Char := if o.prettyPrint then ['\n'] else []

/-- Before a tag there is a line feed and the character that indents, or nothing at all. -/
theorem mem_gapBefore {o : RenderOptions} {depth : Nat} {c : Char} (h : c ∈ o.gapBefore depth) :
    o.prettyPrint = true ∧ (c = '\n' ∨ 0 < o.indentSize.toNat ∧ c = o.indentChar) := by
  unfold gapBefore at h
  split_ifs at h with hpretty
  · refine ⟨hpretty, ?_⟩
    -- the line feed comes first, and one unit for each element around behind it
    rcases List.mem_cons.1 h with hbreak | hindent
    · exact .inl hbreak
    · obtain ⟨unit, hunit, hc⟩ := List.mem_flatten.1 hindent
      rw [List.eq_of_mem_replicate hunit, indentUnit, List.mem_replicate] at hc
      exact .inr ⟨Nat.pos_of_ne_zero hc.1, hc.2⟩
  · cases h

theorem mem_ending {o : RenderOptions} {c : Char} (h : c ∈ o.ending) : c = '\n' := by
  unfold ending at h
  split_ifs at h
  · exact List.mem_singleton.1 h
  · cases h

/-- No layout that is possible looks like the beginning of a tag. -/
theorem ne_of_mem_gapBefore {o : RenderOptions}
    (h : o.prettyPrint = true → canIndent o.indentChar = true) (depth : Nat) :
    ∀ c ∈ o.gapBefore depth, c ≠ '<' := by
  intro c hc
  obtain ⟨hpretty, rfl | ⟨-, rfl⟩⟩ := mem_gapBefore hc
  · decide
  -- a bracket may not indent
  · intro heq
    have hcan := h hpretty
    rw [heq] at hcan
    cases hcan

end RenderOptions

/-! ## The text of a manifest -/

namespace Repository

variable {r : Repository} {o : RenderOptions} {xml : String}

theorem isTagText_declaration : IsTagText declaration.toList :=
  ⟨"?xml version=\"1.0\" encoding=\"UTF-8\"?".toList, by decide +kernel,
    List.all_iff_forall_prop.1 (by decide +kernel)⟩

theorem isTagText_tags (emitSourcePackage : Bool) (r : Repository) :
    ∀ t ∈ (r.forest emitSourcePackage).tags, IsTagText t.text :=
  (r.spells_forest emitSourcePackage).isTagText (r.pieces_wellFormed emitSourcePackage) 0

/-- Without a layout the tags are all there is. -/
theorem toChars_forest (emitSourcePackage : Bool) (r : Repository) :
    (r.forest emitSourcePackage).toChars
      = (r.forest emitSourcePackage).tags.flatMap (·.text) :=
  Forest.toChars_of_asides_eq_nil (r.spells_forest emitSourcePackage).asides_eq_nil 0

/-- A manifest is the declaration and the tags of its tree, each after the gap that the layout puts
there, and what ends the text. -/
theorem toList_of_render (h : r.render o = .ok xml) :
    xml.toList = declaration.toList ++
      (r.forest o.emitSourcePackage).tags.flatMap (fun t => o.gapBefore t.depth ++ t.text) ++
      o.ending := by
  have hspells := r.spells_forest o.emitSourcePackage
  obtain ⟨hlayout, -, rfl⟩ := render_eq_ok_iff.1 h
  unfold RenderOptions.gapBefore RenderOptions.ending
  split_ifs
  · rw [indentedDocument, String.toList_ofList, hspells.indented_eq]
    rfl
  · rw [compactDocument, String.toList_ofList, hspells.compact_eq, toChars_forest, List.append_nil]
    rfl

/-- Without what the layout adds, the tags of the tree are left. -/
theorem tagsOnly_of_render (h : r.render o = .ok xml) :
    tagsOnly xml.toList = declaration.toList ++ (r.forest o.emitSourcePackage).toChars := by
  obtain ⟨hlayout, -, -⟩ := render_eq_ok_iff.1 h
  have hgap (t : PlacedTag) := RenderOptions.ne_of_mem_gapBefore hlayout t.depth
  -- a line feed at the end is in no tag
  have hending : tagsOnly o.ending = [] := by
    unfold RenderOptions.ending
    split_ifs <;> rfl
  rw [toList_of_render h, List.append_assoc, tagsOnly_tag isTagText_declaration,
    tagsOnly_placed hgap (r.isTagText_tags o.emitSourcePackage), hending, List.append_nil,
    toChars_forest]

/-! ## One layout and the other -/

/-- A compact manifest is all on one line. -/
theorem ne_break_of_mem_tags {emitSourcePackage : Bool} {c : Char}
    (hc : c ∈ declaration.toList ++ (r.forest emitSourcePackage).toChars) :
    c ≠ '\t' ∧ c ≠ '\n' ∧ c ≠ '\r' := by
  -- the declaration has none, names have none, and in values they are references
  rcases List.mem_append.1 hc with hc | hc
  · have hall : ∀ c ∈ declaration.toList, c ≠ '\t' ∧ c ≠ '\n' ∧ c ≠ '\r' :=
      List.all_iff_forall_prop.1 (by decide +kernel)
    exact hall c hc
  · rcases mem_toChars_forest hc with htag | ⟨a, -, hvalue⟩
    · refine ⟨?_, ?_, ?_⟩ <;> (rintro rfl; revert htag; decide)
    · have hreserved := isReserved_of_mem_escape hvalue
      refine ⟨?_, ?_, ?_⟩ <;> (rintro rfl; revert hreserved; decide)

/-- A compact manifest is cut into the declaration and its tags. -/
theorem cutBeforeTags_tags (emitSourcePackage : Bool) (r : Repository) :
    cutBeforeTags (declaration.toList ++ (r.forest emitSourcePackage).toChars)
      = declaration.toList :: (r.forest emitSourcePackage).tags.map (·.text) := by
  have htexts : ∀ text ∈ declaration.toList :: (r.forest emitSourcePackage).tags.map (·.text),
      IsTagText text := by
    refine List.forall_mem_cons.2 ⟨isTagText_declaration, fun text htext => ?_⟩
    obtain ⟨t, ht, rfl⟩ := List.mem_map.1 htext
    exact r.isTagText_tags emitSourcePackage t ht
  rw [toChars_forest, List.flatMap_def, ← List.flatten_cons, cutBeforeTags_flatten htexts]

/-- With an indentation that is possible, the two layouts fail alike. If they succeed, the compact
text has no line breaks or tabs, and the indented one is the same text cut before each tag after
the declaration, with a line feed and the indentation of the elements around the tag put in there,
and a line feed at the end. Without what stands outside of its tags it is the compact text again. -/
theorem render_layouts (r : Repository) (o : RenderOptions)
    (h : o.indentChar ∈ [' ', '\t', '\n', '\r', '\x0c']) :
    (∃ cause, r.render { o with prettyPrint := false } = .error cause ∧
      r.render { o with prettyPrint := true } = .error cause) ∨
    ∃ compact pretty, r.render { o with prettyPrint := false } = .ok compact ∧
      r.render { o with prettyPrint := true } = .ok pretty ∧
      (∀ c ∈ compact.toList, c ≠ '\t' ∧ c ≠ '\n' ∧ c ≠ '\r') ∧
      compact.toList = declaration.toList ++ (r.forest o.emitSourcePackage).toChars ∧
      cutBeforeTags compact.toList
        = declaration.toList :: (r.forest o.emitSourcePackage).tags.map (·.text) ∧
      pretty.toList = declaration.toList ++
        (r.forest o.emitSourcePackage).tags.flatMap (fun t =>
          '\n' :: (List.replicate (o.indentSize.toNat * t.depth) o.indentChar ++ t.text)) ++ ['\n'] ∧
      tagsOnly pretty.toList = compact.toList := by
  have hchar : RenderOptions.canIndent o.indentChar = true := by
    simpa [RenderOptions.canIndent, or_assoc] using h
  -- units that are repeated are characters that are repeated
  have hline (t : PlacedTag) : lineBreak o.indentUnit t.depth ++ t.text
      = '\n' :: (List.replicate (o.indentSize.toNat * t.depth) o.indentChar ++ t.text) := by
    rw [lineBreak, RenderOptions.indentUnit, List.flatten_replicate_replicate, Nat.mul_comm,
      List.cons_append]
  rcases r.render_layouts_ok_or_error hchar with hfail | ⟨compact, pretty, hcompact, hpretty⟩
  · exact .inl hfail
  -- without gaps and an ending the tags are what is left
  have hcompact' : compact.toList = declaration.toList ++
      (r.forest o.emitSourcePackage).toChars := by
    have htext := toList_of_render hcompact
    rw [toChars_forest]
    simpa [RenderOptions.gapBefore, RenderOptions.ending] using htext
  refine .inr ⟨compact, pretty, hcompact, hpretty, ?_, hcompact', ?_, ?_, ?_⟩
  · intro c hc
    rw [hcompact'] at hc
    exact ne_break_of_mem_tags hc
  · rw [hcompact', cutBeforeTags_tags]
  · rw [toList_of_render hpretty, ← funext hline]
    rfl
  · rw [tagsOnly_of_render hpretty, hcompact']

/-- With form feeds, and a value that looks like the end of a tag and a new line. -/
theorem render_layouts_formFeed :
    let r : Repository := ⟨[⟨"p", "/>\n\t<"⟩], [⟨none, .raw "i", none, [⟨"f", none⟩]⟩]⟩
    let o : RenderOptions := { indentChar := '\x0c', indentSize := 2 }
    ∃ compact pretty, r.render { o with prettyPrint := false } = .ok compact ∧
      r.render { o with prettyPrint := true } = .ok pretty ∧
      (∀ c ∈ compact.toList, c ≠ '\t' ∧ c ≠ '\n' ∧ c ≠ '\r') ∧
      tagsOnly pretty.toList = compact.toList ∧
      (r.forest false).tags.map (·.depth) = [0, 1, 2, 1, 1, 2, 3, 2, 1, 0] := by
  intro r o
  -- all values are legal, so that neither layout fails
  obtain ⟨xml, hxml⟩ := (r.render_ok_iff (o := { o with prettyPrint := false }) fun _ => rfl).2
    (by decide)
  rcases render_layouts r o (by decide) with
    ⟨cause, hfail, -⟩ | ⟨compact, pretty, hcompact, hpretty, hline, -, -, -, htags⟩
  · exact absurd (hfail.symm.trans hxml) (by simp)
  · exact ⟨compact, pretty, hcompact, hpretty, hline, htags, rfl⟩

end Repository

end InstallManifest
