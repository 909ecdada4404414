import InstallManifest.Proofs.Yaml.WrittenTokens

/-!
# Characters of written blocks

All characters that are written are printable: others stand between double quotes, as escapes. So no
character of a document is forbidden, and none is a line break that reading would replace.
-/

namespace InstallManifest.Yaml

open Block (margin writeItems writeEntries)

/-- Whether all characters of a text are printable. -/
def AllPrintable (cs : List Char) : Prop := ∀ c ∈ cs, isPrintable c = true

/-- What is printable may stand in a document. -/
theorem isForbidden_of_isPrintable {c : Char} (h : isPrintable c = true) :
    isForbidden c = false := by
  simp only [isPrintable, Bool.or_eq_true, Bool.and_eq_true, decide_eq_true_eq] at h
  simp only [isForbidden, Bool.not_eq_false', Bool.or_eq_true, Bool.and_eq_true, decide_eq_true_eq]
  omega

theorem forbiddenOffset?_eq_none {cs : List Char} (h : AllPrintable cs) :
    forbiddenOffset? cs = none := by
  have hany : cs.any isForbidden = false :=
    List.any_eq_false.2 fun c hc => by simp [isForbidden_of_isPrintable (h c hc)]
  rw [forbiddenOffset?, hany]
  rfl

/-- The only printable line break is the line feed, and it stays as it is. -/
theorem unifyBreaks_eq_self {cs : List Char} (h : AllPrintable cs) : unifyBreaks cs = cs := by
  induction cs with
  | nil => rfl
  | cons c cs ih =>
    have hc := h c List.mem_cons_self
    -- the two breaks that are replaced are not printable
    have hreturn : c ≠ '\r' := by
      rintro rfl
      cases hc
    have hnext : c ≠ '\u0085' := by
      rintro rfl
      cases hc
    rw [unifyBreaks, ih fun d hd => h d (List.mem_cons_of_mem _ hd)]
    · exact fun _ heq => absurd heq hreturn
    · exact hreturn
    · exact hnext

namespace AllPrintable

variable {cs ds : List Char}

theorem nil : AllPrintable [] := nofun

theorem cons {c : Char} (hc : isPrintable c = true) (h : AllPrintable cs) :
    AllPrintable (c :: cs) :=
  List.forall_mem_cons.2 ⟨hc, h⟩

theorem append (hcs : AllPrintable cs) (hds : AllPrintable ds) : AllPrintable (cs ++ ds) :=
  List.forall_mem_append.2 ⟨hcs, hds⟩

theorem margin (n : Nat) : AllPrintable (margin n) := fun c hc => by
  rw [eq_space_of_mem_margin hc]
  rfl

end AllPrintable

/-! ## Scalars -/

/-- Between single quotes nothing is written but characters of the text and spaces. -/
theorem mem_singleQuotedFrom {indent : Nat} {afterBreak : Bool} {cs : List Char} {d : Char}
    (h : d ∈ singleQuotedFrom indent afterBreak cs) : d ∈ cs ∨ d = ' ' := by
  induction cs generalizing afterBreak with
  | nil =>
    rw [singleQuotedFrom] at h
    split at h
    · exact .inr (List.mem_replicate.1 h).2
    · cases h
  | cons c cs ih =>
    -- what is written for the rest of the text
    have hrest {afterBreak : Bool} (h : d ∈ singleQuotedFrom indent afterBreak cs) :
        d ∈ c :: cs ∨ d = ' ' := (ih h).imp_left (List.mem_cons_of_mem _)
    rw [singleQuotedFrom] at h
    split at h
    · rcases List.mem_append.1 h with h | h
      · split at h <;> simp_all
      · exact hrest h
    split at h
    · rcases List.mem_cons.1 h with h | h
      · exact .inr h
      · exact hrest h
    · rcases List.mem_append.1 h with h | h
      · rcases List.mem_append.1 h with h | h
        · split at h
          · exact .inr (List.mem_replicate.1 h).2
          · cases h
        · split at h <;> simp_all
      · exact hrest h

/-- In a literal nothing is written but characters of the text and spaces. -/
theorem mem_literalFrom {indent : Nat} {afterBreak : Bool} {cs : List Char} {d : Char}
    (h : d ∈ literalFrom indent afterBreak cs) : d ∈ cs ∨ d = ' ' := by
  induction cs generalizing afterBreak with
  | nil => cases h
  | cons c cs ih =>
    have hline {afterBreak : Bool} (h : d ∈ c :: literalFrom indent afterBreak cs) :
        d ∈ c :: cs ∨ d = ' ' := by
      rcases List.mem_cons.1 h with rfl | h
      · exact .inl List.mem_cons_self
      · exact (ih h).imp_left (List.mem_cons_of_mem _)
    rw [literalFrom] at h
    split at h
    · exact hline h
    · rcases List.mem_append.1 h with h | h
      · split at h
        · exact .inr (List.mem_replicate.1 h).2
        · cases h
      · exact hline h

/-- To characters that are printable spaces can be put anywhere. -/
theorem allPrintable_of_mem_or {cs ds : List Char} (h : AllPrintable cs)
    (hds : ∀ d ∈ ds, d ∈ cs ∨ d = ' ') : AllPrintable ds := by
  intro d hd
  rcases hds d hd with hmem | rfl
  · exact h d hmem
  · rfl

/-- All digits are printable. -/
theorem allPrintable_upperHex (count n : Nat) : AllPrintable (upperHex count n) := by
  induction count generalizing n with
  | zero => exact .nil
  | succ count ih =>
    have hall : ∀ d : Fin 16, isPrintable (Nat.digitChar d).toUpper = true := by decide
    exact (ih _).append (.cons (hall ⟨n % 16, Nat.mod_lt _ (by decide)⟩) .nil)

/-- Escapes are printable whatever they stand for. -/
theorem allPrintable_escapeDouble (c : Char) : AllPrintable (escapeDouble c) := by
  unfold escapeDouble
  split
  · next h =>
    simp only [Bool.and_eq_true] at h
    exact .cons h.1.1.1 .nil
  · split
    · next letter hlookup =>
      -- letters are printable, and so are digits
      have hall : ∀ pair ∈ letterEscapes, isPrintable pair.2 = true := by decide
      obtain ⟨_, _, hpairs, -⟩ := List.lookup_eq_some_iff.1 hlookup
      exact .cons rfl (.cons (hall (c, letter) (by rw [hpairs]; simp)) .nil)
    · dsimp only
      split
      · exact .cons rfl (.cons rfl (allPrintable_upperHex _ _))
      split
      · exact .cons rfl (.cons rfl (allPrintable_upperHex _ _))
      · exact .cons rfl (.cons rfl (allPrintable_upperHex _ _))

/-- A scalar is written with printable characters, in any style that fits it. -/
theorem allPrintable_writeScalar (indent : Nat) {style : ScalarStyle} {cs : List Char}
    (hfits : style.Fits cs) : AllPrintable (writeScalar indent style cs) := by
  cases style with
  | plain => exact .append hfits.2.printable (.cons rfl .nil)
  | singleQuoted =>
    exact .append (.cons rfl (allPrintable_of_mem_or hfits.printable fun d => mem_singleQuotedFrom))
      (.cons rfl (.cons rfl .nil))
  | doubleQuoted =>
    refine .append (.cons rfl fun d hd => ?_) (.cons rfl (.cons rfl .nil))
    -- only between double quotes the text need not be printable
    obtain ⟨c, -, hd⟩ := List.mem_flatMap.1 hd
    exact allPrintable_escapeDouble c d hd
  | literal =>
    have hchomping (c : Chomping) : AllPrintable c.toChars := by
      cases c with
      | strip => exact .cons rfl .nil
      | clip => exact .nil
      | keep => exact .cons rfl .nil
    have hgiven : AllPrintable (if givesIndentation cs then ['2'] else []) := by
      split
      · exact .cons rfl .nil
      · exact .nil
    have hend : AllPrintable (lastLineEnd cs) := by
      unfold lastLineEnd
      split
      · exact .nil
      · exact .cons rfl .nil
    -- a header, the lines of the text and the end of the last
    rw [Lexing.writeScalar_literal _ hfits.1, literalHeader_eq]
    exact .append (.cons rfl (hgiven.append (hchomping _)))
      (.cons rfl (.append (allPrintable_of_mem_or hfits.2 fun d => mem_literalFrom) hend))
  | folded => cases hfits

/-! ## Blocks -/

/-- The characters of keys are letters and the underscore. -/
theorem isPrintable_of_isKeyChar {c : Char} (h : isKeyChar c = true) : isPrintable c = true := by
  -- all of them are between the letters `A` and `z`
  have hbounds : 0x41 ≤ c.toNat ∧ c.toNat ≤ 0x7A := by
    rw [isKeyChar, Bool.or_eq_true, decide_eq_true_eq] at h
    rcases h with hletter | rfl
    · rcases Bool.or_eq_true_iff.1 hletter with hupper | hlower
      · obtain ⟨hlow, hhigh⟩ := of_decide_eq_true hupper
        have hlow := UInt32.le_iff_toNat_le.1 hlow
        have hhigh := UInt32.le_iff_toNat_le.1 hhigh
        exact ⟨hlow, Nat.le_trans hhigh (by decide)⟩
      · obtain ⟨hlow, hhigh⟩ := Bool.and_eq_true_iff.1 hlower
        have hlow := UInt32.le_iff_toNat_le.1 (of_decide_eq_true hlow)
        have hhigh := UInt32.le_iff_toNat_le.1 (of_decide_eq_true hhigh)
        exact ⟨Nat.le_trans (by decide) hlow, hhigh⟩
    · decide
  simp only [isPrintable, Bool.or_eq_true, Bool.and_eq_true, decide_eq_true_eq]
  omega

namespace Block

mutual

theorem Legible.allPrintable : {b : Block} → b.Legible → ∀ indent, AllPrintable (b.write indent)
  | _, .scalar hfits => fun _ => .cons rfl (allPrintable_writeScalar _ hfits)
  | _, .sequence .nil => fun _ => .cons rfl (.cons rfl (.cons rfl (.cons rfl .nil)))
  | _, .sequence (.cons hfirst hitems) => fun indent =>
    .cons rfl (LegibleItems.allPrintable (.cons hfirst hitems) indent)
  | _, .mapping hentries => fun _ => .cons rfl (hentries.allPrintable _ _)

theorem LegibleItems.allPrintable : {items : List Block} → LegibleItems items →
    ∀ indent, AllPrintable (writeItems indent items)
  | _, .nil => fun _ => .nil
  | _, .cons (.mapping hentries) hitems => fun indent =>
    .append (.append (.margin _) (.cons rfl (.cons rfl (hentries.allPrintable _ _))))
      (hitems.allPrintable indent)

theorem LegibleEntries.allPrintable : {entries : List (String × Block)} → LegibleEntries entries →
    ∀ indent placed, AllPrintable (writeEntries indent placed entries)
  | _, .nil => fun _ _ => .nil
  | _, .cons hkey hvalue hentries => by
    intro indent placed
    have hmargin : AllPrintable (if placed then [] else margin indent) := by
      split
      · exact .nil
      · exact .margin _
    have hkey' : AllPrintable _ := fun c hc => isPrintable_of_isKeyChar (hkey.char c hc)
    exact .append (.append (hmargin.append hkey') (.cons rfl (hvalue.allPrintable indent)))
      (hentries.allPrintable indent false)

end

/-! ## Whole documents -/

/-- A document that was written is read as the tokens of its entries, without a fault. -/
theorem tokens_document {key : String} {value : Block} {entries : List (String × Block)}
    (h : LegibleEntries ((key, value) :: entries)) :
    ∃ ts, tokens (document ((key, value) :: entries)) = ⟨ts, none⟩ ∧
      ts.map (·.kind) =
        .blockMappingStart ::
          (entryKinds ((key, value) :: entries) ++ [.blockEnd, .streamEnd]) := by
  obtain ⟨ts, hts, hkinds⟩ := tokensFrom_document h
  refine ⟨ts, ?_, hkinds⟩
  -- no character is refused, and no break is another one after reading
  have hprintable := h.allPrintable 0 false
  rw [tokens, document, String.toList_ofList, forbiddenOffset?_eq_none hprintable, Cursor.start,
    unifyBreaks_eq_self hprintable]
  exact hts

end Block

end InstallManifest.Yaml
