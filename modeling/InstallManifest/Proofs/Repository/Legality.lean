import InstallManifest.Proofs.Repository.Layouts

/-!
# Whether a manifest is a legal document

A manifest is one root with two elements in it, all of whose tags can be read, and no tag has two
attributes of one name. Whether all of its characters are legal, and only white space stands between
its tags, hangs on the indentation: a form feed may indent, but no document may hold one.
-/

namespace InstallManifest

open Markup

/-! ## Characters in tags -/

theorem isXmlChar_of_isTagChar {c : Char} (h : isTagChar c = true) : IsXmlChar c := by
  rw [isTagChar, Bool.or_eq_true] at h
  rcases h with hletter | hc
  -- letters lie between the first capital and the last small one
  · have hrange : 65 ≤ c.toNat ∧ c.toNat ≤ 122 := by
      simp only [Bool.or_eq_true, Bool.and_eq_true, decide_eq_true_eq, Char.le_def,
        UInt32.le_iff_toNat_le] at hletter
      change (65 ≤ c.toNat ∧ c.toNat ≤ 90) ∨ (97 ≤ c.toNat ∧ c.toNat ≤ 122) at hletter
      omega
    exact .inr (.inr (.inr (.inl (by omega))))
  · exact isXmlChar_of_all rfl (of_decide_eq_true hc)

namespace Repository

variable {r : Repository} {o : RenderOptions} {xml : String}

/-- The tags of a manifest are legal, because the values in them are. -/
theorem isXmlChar_of_mem_tagsOnly (h : r.render o = .ok xml) {c : Char}
    (hc : c ∈ tagsOnly xml.toList) : IsXmlChar c := by
  obtain ⟨-, hlegal, -⟩ := render_eq_ok_iff.1 h
  rw [tagsOnly_of_render h, List.mem_append] at hc
  rcases hc with hc | hc
  · exact isXmlChar_of_all (by decide +kernel) hc
  · rcases mem_toChars_forest hc with htag | ⟨a, ha, hvalue⟩
    · exact isXmlChar_of_isTagChar htag
    · rw [assignments_eq_shown] at ha
      exact isXmlChar_of_mem_escape (hlegal a ha) hvalue

end Repository

/-! ## Characters between tags -/

/-- Whether form feeds are put before tags. -/
def RenderOptions.IndentsByFormFeed (o : RenderOptions) : Prop :=
  o.prettyPrint = true ∧ o.indentChar = '\x0c' ∧ 0 < o.indentSize.toNat

instance (o : RenderOptions) : Decidable o.IndentsByFormFeed :=
  inferInstanceAs (Decidable (_ ∧ _))

namespace Repository

variable {r : Repository} {o : RenderOptions} {xml : String}

/-- The layout is all that stands outside of the tags. -/
theorem outsideTags_of_render (h : r.render o = .ok xml) :
    outsideTags xml.toList
      = (r.forest o.emitSourcePackage).tags.flatMap (fun t => o.gapBefore t.depth) ++ o.ending := by
  obtain ⟨hlayout, -, -⟩ := render_eq_ok_iff.1 h
  have hgap (t : PlacedTag) := RenderOptions.ne_of_mem_gapBefore hlayout t.depth
  have hending : outsideTags o.ending = o.ending := by
    unfold RenderOptions.ending
    split_ifs <;> rfl
  rw [toList_of_render h, List.append_assoc, outsideTags_tag isTagText_declaration,
    outsideTags_placed hgap (r.isTagText_tags o.emitSourcePackage), hending]

/-- Outside of tags there is white space, or the form feeds that indent. -/
theorem isBlank_or_formFeed (h : r.render o = .ok xml) {c : Char}
    (hc : c ∈ outsideTags xml.toList) :
    isBlank c = true ∨ c = '\x0c' ∧ o.IndentsByFormFeed := by
  obtain ⟨hlayout, -, -⟩ := render_eq_ok_iff.1 h
  rw [outsideTags_of_render h, List.mem_append, List.mem_flatMap] at hc
  rcases hc with ⟨t, -, hgap⟩ | hending
  · obtain ⟨hpretty, rfl | ⟨hsize, rfl⟩⟩ := RenderOptions.mem_gapBefore hgap
    · exact .inl rfl
    · have hcan := hlayout hpretty
      rw [RenderOptions.canIndent, Bool.or_eq_true] at hcan
      -- what may indent is white space, but for the last choice
      rcases hcan with hblank | hfeed
      · exact .inl hblank
      · have hfeed := of_decide_eq_true hfeed
        exact .inr ⟨hfeed, hpretty, hfeed, hsize⟩
  · rw [RenderOptions.mem_ending hending]
    exact .inl rfl

/-- Some tag stands inside of the root, even in a manifest of nothing. -/
theorem exists_tag_in_root (emitSourcePackage : Bool) (r : Repository) :
    ∃ t ∈ (r.forest emitSourcePackage).tags, t.depth = 1 := by
  -- with or without a content, an element begins with a tag
  have haround {tag : WrittenTag} {content rest : Forest} :
      ∃ t ∈ (Forest.around tag content rest).tagsIn 1, t.depth = 1 := by
    cases content <;> exact ⟨_, List.mem_cons_self, rfl⟩
  obtain ⟨t, ht, hdepth⟩ := haround
  exact ⟨t, List.mem_cons_of_mem _ (List.mem_append_left _ ht), hdepth⟩

theorem formFeed_mem_outsideTags (h : r.render o = .ok xml) (hfeed : o.IndentsByFormFeed) :
    '\x0c' ∈ outsideTags xml.toList := by
  obtain ⟨hpretty, hchar, hsize⟩ := hfeed
  obtain ⟨t, ht, hdepth⟩ := exists_tag_in_root o.emitSourcePackage r
  have hgap : '\x0c' ∈ o.gapBefore t.depth := by
    rw [RenderOptions.gapBefore, if_pos hpretty, hdepth, lineBreak, RenderOptions.indentUnit, hchar]
    simp [Nat.ne_of_gt hsize]
  rw [outsideTags_of_render h]
  exact List.mem_append_left _ (List.mem_flatMap.2 ⟨t, ht, hgap⟩)

/-- Only white space stands outside of tags exactly if no form feeds indent. -/
theorem isBlank_outsideTags_iff (h : r.render o = .ok xml) :
    (∀ c ∈ outsideTags xml.toList, isBlank c = true) ↔ ¬ o.IndentsByFormFeed := by
  constructor
  · intro hblank hfeed
    exact absurd (hblank _ (formFeed_mem_outsideTags h hfeed)) (by decide)
  · intro hfeed c hc
    exact (isBlank_or_formFeed h hc).resolve_right fun hc => hfeed hc.2

/-! ## The document as a whole -/

/-- A manifest is made of legal characters exactly if no form feeds indent. -/
theorem isXmlChar_iff (h : r.render o = .ok xml) :
    (∀ c ∈ xml.toList, IsXmlChar c) ↔ ¬ o.IndentsByFormFeed := by
  constructor
  · intro hlegal hfeed
    -- a form feed outside of the tags is one in the text
    have hmem : '\x0c' ∈ xml.toList :=
      mem_iff_tagsOnly_or_outsideTags.2 (.inr (formFeed_mem_outsideTags h hfeed))
    exact absurd (hlegal _ hmem) (by decide)
  · intro hfeed c hc
    -- values are legal by the check of the writer, gaps because no form feed is in them
    rcases mem_iff_tagsOnly_or_outsideTags.1 hc with htag | hgap
    · exact isXmlChar_of_mem_tagsOnly h htag
    · exact isXmlChar_of_isBlank ((isBlank_outsideTags_iff h).2 hfeed c hgap)

/-- There is one root, and it has two elements in it. -/
theorem children_forest (emitSourcePackage : Bool) (r : Repository) :
    ∃ root content, (r.forest emitSourcePackage).children = [(root, content)] ∧
      root.name = "FileRepository".toList ∧
      content.children.map (·.1.name) = ["Properties".toList, "FileSets".toList] := by
  refine ⟨_, _, rfl, rfl, ?_⟩
  rw [Forest.children_around, Forest.children_around]
  rfl

/-- All tags of a manifest are those of a tree with one root, which has two elements in it. The
attributes of each tag are read as they were written, and their names differ. Outside of the tags
there is only white space, and all characters are legal, unless form feeds indent the tags: then
neither is so. -/
theorem render_legal_iff (h : r.render o = .ok xml) :
    (∃ f : Forest, tagsOnly xml.toList = declaration.toList ++ f.toChars ∧ f.asides = [] ∧
      (∃ root content, f.children = [(root, content)] ∧ root.name = "FileRepository".toList ∧
        content.children.map (·.1.name) = ["Properties".toList, "FileSets".toList]) ∧
      ∀ e ∈ f.elements, e.tag.source.tag.attributes.Holds e.tag.attributes ∧
        (e.tag.attributes.map (·.name)).Nodup) ∧
    ((∀ c ∈ outsideTags xml.toList, isBlank c = true) ↔ ¬ o.IndentsByFormFeed) ∧
    ((∀ c ∈ xml.toList, IsXmlChar c) ↔ ¬ o.IndentsByFormFeed) := by
  have htags := tagsOnly_of_render h
  have hasides := (r.spells_forest o.emitSourcePackage).asides_eq_nil
  have hchildren := children_forest o.emitSourcePackage r
  refine ⟨⟨_, htags, hasides, hchildren, ?_⟩, isBlank_outsideTags_iff h, isXmlChar_iff h⟩
  intro e _
  -- written tags carry the proof that their names differ
  exact ⟨readAttributes_holds _ e.tag.gap_blank e.tag.nodup (by simp), e.tag.nodup⟩

/-- Spaces indent, and a value of white space and markup does no harm. -/
theorem render_legal_spaces :
    let r : Repository := ⟨[⟨"\t\n<b>", "\"'&"⟩], []⟩
    let o : RenderOptions := { indentChar := ' ', indentSize := 2 }
    ∃ xml, r.render o = .ok xml ∧ (∀ c ∈ outsideTags xml.toList, isBlank c = true) ∧
      ∀ c ∈ xml.toList, IsXmlChar c := by
  intro r o
  have hxml : r.render o = .ok (declaration ++ "\n<FileRepository>\n  <Properties>\n    " ++
      "<Property Name=\"&#9;&#10;&lt;b&gt;\" Value=\"&quot;&apos;&amp;\"/>\n  </Properties>\n  " ++
      "<FileSets/>\n</FileRepository>\n") := by decide +kernel
  obtain ⟨-, hblank, hlegal⟩ := render_legal_iff hxml
  exact ⟨_, hxml, hblank.2 (by decide), hlegal.2 (by decide)⟩

/-- A manifest of nothing can be written with form feeds, and is no legal document then. -/
theorem render_formFeed_not_legal :
    ∃ xml, render {} { indentChar := '\x0c' } = .ok xml ∧ (¬ ∀ c ∈ xml.toList, IsXmlChar c) ∧
      ¬ ∀ c ∈ outsideTags xml.toList, isBlank c = true := by
  let xml := declaration ++
    "\n<FileRepository>\n\x0c<Properties/>\n\x0c<FileSets/>\n</FileRepository>\n"
  have hrender : render {} { indentChar := '\x0c' } = .ok xml := by decide +kernel
  have houtside : '\x0c' ∈ outsideTags xml.toList := by decide +kernel
  refine ⟨xml, hrender, fun hlegal => ?_, fun hblank => ?_⟩
  · have hmem : '\x0c' ∈ xml.toList := mem_iff_tagsOnly_or_outsideTags.2 (.inr houtside)
    exact absurd (hlegal _ hmem) (by decide)
  · exact absurd (hblank _ houtside) (by decide)

end Repository

end InstallManifest
