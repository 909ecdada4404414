import InstallManifest.Proofs.Markup.Forest
import Mathlib.Data.List.SplitBy

/-!
# How deep tags stand

The tags of a balanced text with the number of elements around each, and the same tags with a line
of its own for each of them. A text made of tags alone can be cut before each tag, and whatever
stands between the tags of a text can be taken out again.
-/

namespace InstallManifest.Markup

/-- A tag as it stands in a text, with the number of elements that are open around it. -/
structure PlacedTag where
  depth : Nat
  text : List Char

/-- A line break and the indentation of a tag, one `unit` for each element around it. -/
def lineBreak (unit : List Char) (depth : Nat) : List Char :=
  '\n' :: (List.replicate depth unit).flatten

namespace Forest

/-- The tags of a text inside `depth` elements, in order. Both tags of an element stand as deep as
the element does, and its content one deeper. -/
def tagsIn (depth : Nat) : Forest → List PlacedTag
  | nil => []
  | aside _ rest => rest.tagsIn depth
  | empty tag rest => ⟨depth, '<' :: (tag.source.content ++ ['/', '>'])⟩ :: rest.tagsIn depth
  | element tag content gap _ rest =>
    ⟨depth, '<' :: (tag.source.content ++ ['>'])⟩ ::
      (content.tagsIn (depth + 1) ++
        ⟨depth, '<' :: '/' :: (tag.name ++ gap ++ ['>'])⟩ :: rest.tagsIn depth)

/-- All tags of a text in order. -/
def tags (f : Forest) : List PlacedTag := f.tagsIn 0

/-- What stands between the tags, at any depth. -/
def asides : Forest → List Aside
  | nil => []
  | aside a rest => a :: rest.asides
  | empty _ rest => rest.asides
  | element _ content _ _ rest => content.asides ++ rest.asides

/-- The elements that stand side by side, each with its content. -/
def children : Forest → List (WrittenTag × Forest)
  | nil => []
  | aside _ rest => rest.children
  | empty tag rest => (tag, nil) :: rest.children
  | element tag content _ _ rest => (tag, content) :: rest.children

/-! ## Tags and the text of a forest -/

/-- A text with nothing between its tags is made of its tags. -/
theorem toChars_of_asides_eq_nil {f : Forest} (h : f.asides = []) (depth : Nat) :
    f.toChars = (f.tagsIn depth).flatMap (·.text) := by
  induction f generalizing depth with
  | nil => rfl
  | aside a rest ih => cases h
  | empty tag rest ih => simp [toChars, tagsIn, ih h depth]
  | element tag content gap gap_blank rest ihcontent ihrest =>
    obtain ⟨hcontent, hrest⟩ := List.append_eq_nil_iff.1 h
    simp [toChars, tagsIn, ihcontent hcontent (depth + 1), ihrest hrest depth]

/-! ## Elements side by side -/

theorem allBlank_nil : allBlank [] = true := rfl

/-- Single tags side by side. -/
def ofTags {α : Type} (tag : α → WrittenTag) (xs : List α) : Forest :=
  xs.foldr (fun x rest => empty (tag x) rest) nil

/-- An element that is a single tag if it has no content, with `rest` after it. -/
def around (tag : WrittenTag) (content rest : Forest) : Forest :=
  match content with
  | nil => empty tag rest
  | content => element tag content [] allBlank_nil rest

@[simp] theorem children_around (tag : WrittenTag) (content rest : Forest) :
    (around tag content rest).children = (tag, content) :: rest.children := by
  cases content <;> rfl

end Forest

/-! ## Cutting a text at its tags -/

/-- Cuts a text before each `<`. -/
def cutBeforeTags (text : List Char) : List (List Char) := text.splitBy fun _ c => c ≠ '<'

/-- A text that begins with `<`, ends with `>` and holds no other of them. -/
def IsTagText (text : List Char) : Prop :=
  ∃ body, text = '<' :: (body ++ ['>']) ∧ ∀ c ∈ body, c ≠ '<' ∧ c ≠ '>'

/-- No `<` follows another character of a tag. -/
theorem IsTagText.isChain {text : List Char} (h : IsTagText text) :
    text.IsChain fun _ c => decide (c ≠ '<') = true := by
  obtain ⟨body, rfl, hbody⟩ := h
  -- behind the first character no bracket opens
  have hafter : ∀ c ∈ body ++ ['>'], c ≠ '<' := by
    intro c hc
    rcases List.mem_append.1 hc with hc | hc
    · exact (hbody c hc).1
    · rw [List.mem_singleton.1 hc]
      decide
  refine List.Pairwise.isChain (List.pairwise_cons.2 ⟨fun c hc => ?_, ?_⟩)
  · exact decide_eq_true (hafter c hc)
  · exact List.pairwise_of_forall_mem_list fun _ _ c hc => decide_eq_true (hafter c hc)

/-- Tags side by side are cut into these tags. -/
theorem cutBeforeTags_flatten {texts : List (List Char)} (h : ∀ text ∈ texts, IsTagText text) :
    cutBeforeTags texts.flatten = texts := by
  induction texts with
  | nil => rfl
  | cons text texts ih =>
    obtain ⟨htext, htexts⟩ := List.forall_mem_cons.1 h
    -- the next tag begins with a bracket, so the text is cut there
    have hhead : ∀ c ∈ texts.flatten.head?, c = '<' := by
      intro c hc
      cases texts with
      | nil => cases hc
      | cons text' texts =>
        obtain ⟨body, rfl, -⟩ := htexts text' List.mem_cons_self
        simpa using hc.symm
    have hne : text ≠ [] := by
      obtain ⟨body, rfl, -⟩ := htext
      simp
    rw [cutBeforeTags, List.flatten_cons, List.splitBy_append fun x _ y hy => by simp [hhead y hy],
      List.splitBy_of_isChain hne htext.isChain]
    exact congrArg (text :: ·) (ih htexts)

/-! ## What stands in tags and what between them -/

/-- Each character of a text with whether it belongs to a tag, given whether the text begins inside
of one. -/
def markTags (inside : Bool) : List Char → List (Char × Bool)
  | [] => []
  | c :: cs =>
    if c = '<' then (c, true) :: markTags true cs
    else (c, inside) :: markTags (inside && c ≠ '>') cs

/-- What is left of a text without everything that stands outside of its tags. -/
def tagsOnly (text : List Char) : List Char := ((markTags false text).filter (·.2)).map (·.1)

/-- What is left of a text without its tags. -/
def outsideTags (text : List Char) : List Char := ((markTags false text).filter (!·.2)).map (·.1)

theorem markTags_body {body : List Char} (h : ∀ c ∈ body, c ≠ '<' ∧ c ≠ '>') (rest : List Char) :
    markTags true (body ++ '>' :: rest)
      = (body ++ ['>']).map (·, true) ++ markTags false rest := by
  induction body with
  | nil => rfl
  | cons c cs ih =>
    obtain ⟨⟨hlt, hgt⟩, hcs⟩ := List.forall_mem_cons.1 h
    rw [List.cons_append, markTags, if_neg hlt, decide_eq_true hgt, Bool.and_self, ih hcs,
      List.cons_append, List.map_cons, List.cons_append]

theorem markTags_tag {text : List Char} (h : IsTagText text) (rest : List Char) :
    markTags false (text ++ rest) = text.map (·, true) ++ markTags false rest := by
  obtain ⟨body, rfl, hbody⟩ := h
  have hbody' := markTags_body hbody rest
  rw [List.cons_append, List.append_assoc, List.singleton_append, markTags, if_pos rfl, hbody']
  rfl

theorem markTags_gap {gap : List Char} (h : ∀ c ∈ gap, c ≠ '<') (rest : List Char) :
    markTags false (gap ++ rest) = gap.map (·, false) ++ markTags false rest := by
  induction gap with
  | nil => rfl
  | cons c cs ih =>
    obtain ⟨hc, hcs⟩ := List.forall_mem_cons.1 h
    rw [List.cons_append, markTags, if_neg hc, Bool.false_and, ih hcs]
    rfl

theorem tagsOnly_tag {text : List Char} (h : IsTagText text) (rest : List Char) :
    tagsOnly (text ++ rest) = text ++ tagsOnly rest := by
  simp [tagsOnly, markTags_tag h, List.filter_map, Function.comp_def]

theorem tagsOnly_gap {gap : List Char} (h : ∀ c ∈ gap, c ≠ '<') (rest : List Char) :
    tagsOnly (gap ++ rest) = tagsOnly rest := by
  simp [tagsOnly, markTags_gap h, List.filter_map, Function.comp_def]

theorem outsideTags_tag {text : List Char} (h : IsTagText text) (rest : List Char) :
    outsideTags (text ++ rest) = outsideTags rest := by
  simp [outsideTags, markTags_tag h, List.filter_map, Function.comp_def]

theorem outsideTags_gap {gap : List Char} (h : ∀ c ∈ gap, c ≠ '<') (rest : List Char) :
    outsideTags (gap ++ rest) = gap ++ outsideTags rest := by
  simp [outsideTags, markTags_gap h, List.filter_map, Function.comp_def]

/-! Whatever is put before the tags stands outside of them, and nothing else does. -/

section

variable {gap : PlacedTag → List Char} (hgap : ∀ t, ∀ c ∈ gap t, c ≠ '<') {ts : List PlacedTag}
  (hts : ∀ t ∈ ts, IsTagText t.text) (rest : List Char)

include hgap hts

theorem tagsOnly_placed :
    tagsOnly (ts.flatMap (fun t => gap t ++ t.text) ++ rest)
      = ts.flatMap (·.text) ++ tagsOnly rest := by
  induction ts with
  | nil => rfl
  | cons t ts ih =>
    obtain ⟨ht, hts⟩ := List.forall_mem_cons.1 hts
    rw [List.flatMap_cons, List.append_assoc, List.append_assoc, tagsOnly_gap (hgap t),
      tagsOnly_tag ht, ih hts, List.flatMap_cons, List.append_assoc]

theorem outsideTags_placed :
    outsideTags (ts.flatMap (fun t => gap t ++ t.text) ++ rest)
      = ts.flatMap gap ++ outsideTags rest := by
  induction ts with
  | nil => rfl
  | cons t ts ih =>
    obtain ⟨ht, hts⟩ := List.forall_mem_cons.1 hts
    rw [List.flatMap_cons, List.append_assoc, List.append_assoc, outsideTags_gap (hgap t),
      outsideTags_tag ht, ih hts, List.flatMap_cons, List.append_assoc]

end

/-- Every character of a text is inside or outside of its tags. -/
theorem mem_iff_tagsOnly_or_outsideTags {c : Char} {text : List Char} :
    c ∈ text ↔ c ∈ tagsOnly text ∨ c ∈ outsideTags text := by
  -- marking loses no character
  have hmap (inside : Bool) (text : List Char) : (markTags inside text).map (·.1) = text := by
    induction text generalizing inside with
    | nil => rfl
    | cons c cs ih =>
      rw [markTags]
      split <;> rw [List.map_cons, ih]
  have hmem : c ∈ text ↔ ∃ inside, (c, inside) ∈ markTags false text := by
    conv_lhs => rw [← hmap false text]
    simp
  simp [hmem, tagsOnly, outsideTags, or_comm]

end InstallManifest.Markup
