import InstallManifest.Proofs.Span
import InstallManifest.Yaml.Writing

/-!
# Cursors on written texts

Where a cursor is after characters that somebody wrote, and how the lines go on after them.
-/

namespace InstallManifest.Yaml

/-! ## Places -/

namespace Mark

/-- The place after some characters. -/
def afterAll (m : Mark) (cs : List Char) : Mark := cs.foldl after m

@[simp] theorem afterAll_nil (m : Mark) : m.afterAll [] = m := rfl

@[simp] theorem afterAll_cons (m : Mark) (c : Char) (cs : List Char) :
    m.afterAll (c :: cs) = (m.after c).afterAll cs := rfl

@[simp] theorem afterAll_append (m : Mark) (cs ds : List Char) :
    m.afterAll (cs ++ ds) = (m.afterAll cs).afterAll ds := List.foldl_append

/-- After a break a line begins. -/
theorem column_after_break (m : Mark) {c : Char} (h : isBreak c = true) :
    (m.after c).column = 0 := by
  rw [after, if_pos h]

/-- Within a line characters only move the place to the right. -/
theorem afterAll_of_line (m : Mark) {cs : List Char} (h : ∀ c ∈ cs, isBreak c = false) :
    m.afterAll cs = ⟨m.line, m.column + cs.length, m.width + Utf8.size cs⟩ := by
  induction cs generalizing m with
  | nil => rfl
  | cons c cs ih =>
    rw [afterAll_cons, ih _ fun d hd => h d (List.mem_cons_of_mem _ hd), after,
      if_neg (by simp [h c List.mem_cons_self])]
    -- no break is met, so the line stays and the two counts grow
    simp only [Utf8.size, List.length_cons, Mark.mk.injEq, true_and]
    omega

/-- Within a line every character takes up one column, however many bytes it has. -/
theorem column_afterAll_of_line (m : Mark) {cs : List Char} (h : ∀ c ∈ cs, isBreak c = false) :
    (m.afterAll cs).column = m.column + cs.length := by
  rw [m.afterAll_of_line h]

end Mark

/-! ## Cursors -/

namespace Cursor

variable {p : Char → Bool} {run rest : List Char} (m : Mark)

/-- A cursor goes over as many characters as it is told to. -/
theorem skip_append (run rest : List Char) :
    (⟨run ++ rest, m⟩ : Cursor).skip run.length = ⟨rest, m.afterAll run⟩ := by
  simp [skip, Mark.afterAll]

@[simp] theorem skip_one (c : Char) (rest : List Char) :
    (⟨c :: rest, m⟩ : Cursor).skip 1 = ⟨rest, m.after c⟩ := rfl

/-- What ends a run of characters is the first that is not of their kind. -/
theorem skipWhile_append (hrun : ∀ c ∈ run, p c = true) (hrest : ∀ c ∈ rest.head?, p c = false) :
    (⟨run ++ rest, m⟩ : Cursor).skipWhile p = ⟨rest, m.afterAll run⟩ := by
  rw [skipWhile, span, takeWhile_append_exact hrun hrest, skip_append]

/-- A cursor does not move if the next character is not of the kind to be passed over. -/
theorem skipWhile_of_head (hrest : ∀ c ∈ rest.head?, p c = false) :
    (⟨rest, m⟩ : Cursor).skipWhile p = ⟨rest, m⟩ := by
  rw [skipWhile, span, takeWhile_eq_nil hrest]
  rfl

/-- Markers stand at the start of a line. -/
theorem atTriple_of_column {c : Cursor} (char : Char) (h : c.mark.column ≠ 0) :
    c.atTriple char = false := by
  simp [atTriple, h]

/-- No document begins or ends in the middle of a line. -/
theorem atDocumentMarker_of_column {c : Cursor} (h : c.mark.column ≠ 0) :
    c.atDocumentMarker = false := by
  simp [atDocumentMarker, atTriple_of_column _ h]

/-- A marker begins with its own character. -/
theorem atTriple_of_head {c : Cursor} {char : Char} (h : c.rest.head? ≠ some char) :
    c.atTriple char = false := by
  -- one character that differs is enough
  have hprefix : [char, char, char].isPrefixOf c.rest = false := by
    cases hrest : c.rest with
    | nil => rfl
    | cons d rest =>
      have hne : char ≠ d := fun heq => h (by rw [hrest, heq]; rfl)
      simp [List.isPrefixOf, beq_eq_false_iff_ne.2 hne]
  simp [atTriple, hprefix]

end Cursor

/-! ## Margins and the lines to come -/

open Block (margin)

@[simp] theorem margin_zero : margin 0 = [] := rfl

@[simp] theorem length_margin (n : Nat) : (margin n).length = n := List.length_replicate

/-- A margin has nothing but spaces. -/
theorem eq_space_of_mem_margin {n : Nat} {c : Char} (h : c ∈ margin n) : c = ' ' :=
  (List.mem_replicate.1 h).2

theorem isBreak_of_mem_margin {n : Nat} {c : Char} (h : c ∈ margin n) : isBreak c = false := by
  rw [eq_space_of_mem_margin h]
  rfl

theorem isGap_of_mem_margin {n : Nat} {c : Char} (h : c ∈ margin n) : isGap c = true := by
  rw [eq_space_of_mem_margin h]
  rfl

@[simp] theorem filter_isBreak_margin (n : Nat) : (margin n).filter isBreak = [] :=
  List.filter_eq_nil_iff.2 fun c hc => by simp [isBreak_of_mem_margin hc]

/-- After a margin the column is further on by its width. -/
@[simp] theorem Mark.column_afterAll_margin (m : Mark) (n : Nat) :
    (m.afterAll (margin n)).column = m.column + n := by
  rw [m.column_afterAll_of_line fun c => isBreak_of_mem_margin, length_margin]

theorem isGap_eq_false_iff {c : Char} :
    isGap c = false ↔ c ≠ ' ' ∧ c ≠ '\t' ∧ isBreak c = false := by
  simp [isGap, isBlank, and_assoc]

/-- Whether a text begins with something that is neither passed over nor the end of a line, if it
has not ended. -/
def IsContent (cs : List Char) : Prop :=
  ∀ c ∈ cs.head?, isGap c = false ∧ c ≠ '#' ∧ c ≠ '\ufeff'

theorem isContent_nil : IsContent [] := nofun

theorem IsContent.isGap_head {cs : List Char} (h : IsContent cs) :
    ∀ c ∈ cs.head?, isGap c = false := fun c hc => (h c hc).1

theorem IsContent.isBreak_head {cs : List Char} (h : IsContent cs) :
    ∀ c ∈ cs.head?, isBreak c = false := fun c hc => (isGap_eq_false_iff.1 (h c hc).1).2.2

theorem IsContent.ne_space_head {cs : List Char} (h : IsContent cs) :
    ∀ c ∈ cs.head?, c ≠ ' ' := fun c hc => (isGap_eq_false_iff.1 (h c hc).1).1

theorem IsContent.ne_tab_head {cs : List Char} (h : IsContent cs) :
    ∀ c ∈ cs.head?, c ≠ '\t' := fun c hc => (isGap_eq_false_iff.1 (h c hc).1).2.1

end InstallManifest.Yaml
