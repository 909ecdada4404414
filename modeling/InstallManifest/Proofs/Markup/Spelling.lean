import InstallManifest.Proofs.Markup.Layout
import InstallManifest.Proofs.Markup.Nesting
import InstallManifest.Repository.Writing

/-!
# Tags to be written as a tree

The tags of a document, in order, are those of a forest of elements. From that it follows how deep
each of them is indented: what opens inside an element is closed there, so the depth after an
element is the depth before it.
-/

namespace InstallManifest.Markup

/-- These tags, in this order, make up the forest. -/
inductive Spells : List Piece → Forest → Prop
  | nil : Spells [] .nil
  | empty {name : String} {as : List Assignment} {ps : List Piece} {rest : Forest}
      (h : WellNamed name as) (hrest : Spells ps rest) :
      Spells (.empty name as :: ps) (.empty h.tag rest)
  | element {name : String} {as : List Assignment} {inner ps : List Piece} {content rest : Forest}
      (h : WellNamed name as) (hcontent : Spells inner content) (hrest : Spells ps rest) :
      Spells (.opening name as :: (inner ++ .closing name :: ps))
        (.element h.tag content [] Forest.allBlank_nil rest)

namespace Piece

/-! A written tag is the text of its tag in a forest. -/

theorem toChars_opening {name : String} {as : List Assignment} (h : WellNamed name as) :
    (opening name as).toChars = '<' :: (h.tag.source.content ++ ['>']) := by
  rw [h.source_content, toChars_eq, body]

theorem toChars_empty {name : String} {as : List Assignment} (h : WellNamed name as) :
    (empty name as).toChars = '<' :: (h.tag.source.content ++ ['/', '>']) := by
  rw [h.source_content, toChars_eq, body]
  simp

theorem toChars_closing {name : String} {as : List Assignment} (h : WellNamed name as) :
    (closing name).toChars = '<' :: '/' :: (h.tag.name ++ [] ++ ['>']) := by
  rw [toChars_eq, body, List.append_nil]
  rfl

theorem isTagText {p : Piece} (h : p.WellFormed) : IsTagText p.toChars :=
  ⟨p.body, p.toChars_eq, ne_of_mem_body h⟩

end Piece

namespace Spells

variable {ps : List Piece} {f : Forest}

/-- What is written, tag by tag, is the texts of the tags in the forest. -/
theorem map_text_tagsIn (h : Spells ps f) (depth : Nat) :
    (f.tagsIn depth).map (·.text) = ps.map Piece.toChars := by
  induction h generalizing depth with
  | nil => rfl
  | empty h _ ih => simp [Forest.tagsIn, ih, Piece.toChars_empty h]
  | element h _ _ ihcontent ihrest =>
    simp [Forest.tagsIn, ihcontent, ihrest, Piece.toChars_opening h, Piece.toChars_closing h]

theorem asides_eq_nil (h : Spells ps f) : f.asides = [] := by
  induction h with
  | nil => rfl
  | empty _ _ ih => exact ih
  | element _ _ _ ihcontent ihrest => simp [Forest.asides, ihcontent, ihrest]

/-- Without a layout, what is written is the text of the forest. -/
theorem compact_eq (h : Spells ps f) : compact ps = f.toChars := by
  have htext : f.toChars = ((f.tagsIn 0).map (·.text)).flatten := by
    rw [Forest.toChars_of_asides_eq_nil h.asides_eq_nil 0, List.flatMap_def]
  rw [htext, h.map_text_tagsIn, compact, List.flatMap_def]

/-- By induction on the tree, with the depth before it and the tags after it: every tag stands as
deep as the forest says, and after all of them the depth is what it was. -/
theorem indented_append (unit : List Char) (h : Spells ps f) (depth : Nat) (qs : List Piece) :
    indented unit depth (ps ++ qs)
      = (f.tagsIn depth).flatMap (fun t => lineBreak unit t.depth ++ t.text)
          ++ indented unit depth qs := by
  induction h generalizing depth qs with
  | nil => rfl
  | @empty name as ps rest h _ ih =>
    have hhead : indented unit depth (.empty name as :: (ps ++ qs))
        = lineBreak unit depth ++ '<' :: (h.tag.source.content ++ ['/', '>'])
            ++ indented unit depth (ps ++ qs) := by
      rw [indented, Piece.toChars_empty h]
      rfl
    rw [List.cons_append, hhead, ih]
    simp only [Forest.tagsIn, List.flatMap_cons, List.append_assoc]
  | @element name as inner ps content rest h _ _ ihcontent ihrest =>
    have hopening : indented unit depth (.opening name as :: (inner ++ .closing name :: (ps ++ qs)))
        = lineBreak unit depth ++ '<' :: (h.tag.source.content ++ ['>'])
            ++ indented unit (depth + 1) (inner ++ .closing name :: (ps ++ qs)) := by
      rw [indented, Piece.toChars_opening h]
      rfl
    have hclosing : indented unit (depth + 1) (.closing name :: (ps ++ qs))
        = lineBreak unit depth ++ '<' :: '/' :: (h.tag.name ++ [] ++ ['>'])
            ++ indented unit depth (ps ++ qs) := by
      rw [indented, Piece.toChars_closing h]
      rfl
    -- the depth is one more for the content, and what it was for what follows
    rw [List.cons_append, List.append_assoc, List.cons_append, hopening, ihcontent, hclosing,
      ihrest]
    simp only [Forest.tagsIn, List.flatMap_cons, List.flatMap_append, List.append_assoc]

theorem indented_eq (unit : List Char) (h : Spells ps f) (depth : Nat) :
    indented unit depth ps
      = (f.tagsIn depth).flatMap (fun t => lineBreak unit t.depth ++ t.text) := by
  simpa [indented] using h.indented_append unit depth []

/-- Single tags side by side. -/
theorem ofTags {α : Type} {name : String} {as : α → List Assignment}
    (h : ∀ x, WellNamed name (as x)) (xs : List α) :
    Spells (xs.map fun x => .empty name (as x)) (.ofTags (fun x => (h x).tag) xs) := by
  induction xs with
  | nil => exact nil
  | cons x xs ih => exact empty (h x) ih

theorem isTagText (h : Spells ps f) (hps : ∀ p ∈ ps, p.WellFormed) (depth : Nat) :
    ∀ t ∈ f.tagsIn depth, IsTagText t.text := by
  intro t ht
  have hmem : t.text ∈ (f.tagsIn depth).map (·.text) := List.mem_map_of_mem ht
  rw [h.map_text_tagsIn] at hmem
  obtain ⟨p, hp, htext⟩ := List.mem_map.1 hmem
  exact htext ▸ Piece.isTagText (hps p hp)

/-- An element with a content, and what follows it. -/
theorem around {name : String} {as : List Assignment} {inner : List Piece} {content rest : Forest}
    (h : WellNamed name as) (hcontent : Spells inner content) (hrest : Spells ps rest) :
    Spells (InstallManifest.element name as inner ++ ps) (.around h.tag content rest) := by
  -- without content the element is a single tag
  cases hcontent with
  | nil => exact .empty h hrest
  | empty h' hrest' =>
    have hall := element h (empty h' hrest') hrest
    simpa [InstallManifest.element, Forest.around] using hall
  | element h' hcontent' hrest' =>
    have hall := element h (element h' hcontent' hrest') hrest
    simpa [InstallManifest.element, Forest.around] using hall

end Spells

end InstallManifest.Markup
