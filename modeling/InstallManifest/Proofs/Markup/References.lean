import InstallManifest.Markup.Character
import InstallManifest.Markup.Reference
import Mathlib.Data.List.Basic

/-!
# References are read back

`unescape` takes back every reference that `escape` writes, so an attribute value that was written
reads as the text it stands for. A written value holds no character that could end it, or the tag
around it.
-/

namespace InstallManifest.Markup

/-! ## Where a reference ends -/

/-- A reference ends at the first semicolon. -/
theorem splitReference_append {breaks : Char → Bool} {body : List Char} (rest : List Char)
    (h : ∀ c ∈ body, c ≠ ';' ∧ breaks c = false) :
    splitReference breaks (body ++ ';' :: rest) = some (body, rest) := by
  induction body with
  | nil => simp [splitReference]
  | cons c cs ih =>
    obtain ⟨hc, hcs⟩ := List.forall_mem_cons.1 h
    simp [splitReference, hc.1, hc.2, ih hcs]

/-- What comes behind a reference does not matter to it. -/
theorem splitReference_append_of_some {breaks : Char → Bool} {cs body after : List Char}
    (rest : List Char) (h : splitReference breaks cs = some (body, after)) :
    splitReference breaks (cs ++ rest) = some (body, after ++ rest) := by
  induction cs generalizing body after with
  | nil => simp [splitReference] at h
  | cons c cs ih =>
    rw [splitReference] at h
    rw [List.cons_append, splitReference]
    split at h
    · rename_i hc
      rw [if_pos hc]
      simp_all
    · split at h
      · simp at h
      -- any other character is part of the reference
      · rename_i hc hbreaks
        obtain ⟨⟨body', after'⟩, hcs, heq⟩ := Option.map_eq_some_iff.1 h
        simp only [Prod.mk.injEq] at heq
        rw [if_neg hc, if_neg hbreaks, ih hcs, Option.map_some, ← heq.1, ← heq.2]

/-! ## Reading what was written -/

theorem unescapeFrom_cons {c : Char} (start stop : Nat) (cs : List Char) (h : c ≠ '&') :
    unescapeFrom start stop (c :: cs)
      = (unescapeFrom (start + c.utf8Size) stop cs).map (c :: ·) := by
  rw [unescapeFrom, if_neg h]
  cases unescapeFrom (start + c.utf8Size) stop cs <;> rfl

/-- A reference that can be resolved is read as its character. -/
theorem unescapeFrom_reference (body : List Char) {char : Char} (start stop : Nat)
    (rest : List Char) (hbody : ∀ c ∈ body, c ≠ ';' ∧ c ≠ '&')
    (hchar : ∀ offset, resolve offset body = .ok char) :
    ∃ offset, unescapeFrom start stop ('&' :: body ++ ';' :: rest)
      = (unescapeFrom offset stop rest).map (char :: ·) := by
  refine ⟨start + Utf8.size body + 2, ?_⟩
  -- the reference ends where it was meant to
  have hsplit : splitReference (· = '&') (body ++ ';' :: rest) = some (body, rest) :=
    splitReference_append rest (by simpa using hbody)
  rw [List.cons_append, unescapeFrom, if_pos rfl]
  split
  · rename_i heq
    rw [hsplit] at heq
    cases heq
  · rename_i body' rest' heq
    rw [hsplit] at heq
    obtain ⟨rfl, rfl⟩ := Prod.mk.inj (Option.some.inj heq)
    rw [hchar]
    cases unescapeFrom (start + Utf8.size body + 2) stop rest <;> rfl

/-- One character is read back, whatever follows. -/
theorem unescapeFrom_escapeChar (c : Char) (start stop : Nat) (rest : List Char) :
    ∃ offset, unescapeFrom start stop (escapeChar c ++ rest)
      = (unescapeFrom offset stop rest).map (c :: ·) := by
  unfold escapeChar
  -- eight characters are written as references, and the others as they are
  split_ifs with hlt hgt hapos hamp hquot htab hlf hcr
  · exact hlt ▸ unescapeFrom_reference ['l', 't'] start stop rest (by simp) fun _ => rfl
  · exact hgt ▸ unescapeFrom_reference ['g', 't'] start stop rest (by simp) fun _ => rfl
  · exact hapos ▸
      unescapeFrom_reference ['a', 'p', 'o', 's'] start stop rest (by simp) fun _ => rfl
  · exact hamp ▸
      unescapeFrom_reference ['a', 'm', 'p'] start stop rest (by simp) fun _ => rfl
  · exact hquot ▸
      unescapeFrom_reference ['q', 'u', 'o', 't'] start stop rest (by simp) fun _ => rfl
  · exact htab ▸ unescapeFrom_reference ['#', '9'] start stop rest (by simp) fun _ => rfl
  · exact hlf ▸
      unescapeFrom_reference ['#', '1', '0'] start stop rest (by simp) fun _ => rfl
  · exact hcr ▸
      unescapeFrom_reference ['#', '1', '3'] start stop rest (by simp) fun _ => rfl
  · exact ⟨start + c.utf8Size, unescapeFrom_cons start stop rest hamp⟩

theorem unescapeFrom_escape (cs : List Char) (start stop : Nat) :
    unescapeFrom start stop (escape cs) = .ok cs := by
  induction cs generalizing start with
  | nil => simp [escape, unescapeFrom]
  | cons c cs ih =>
    obtain ⟨offset, h⟩ := unescapeFrom_escapeChar c start stop (escape cs)
    have hcons : escape (c :: cs) = escapeChar c ++ escape cs := List.flatMap_cons
    rw [hcons, h, ih, Except.map]

/-- A written value reads as the text that it stands for. -/
theorem unescape_escape (cs : List Char) : unescape (escape cs) = .ok cs :=
  unescapeFrom_escape cs 0 _

/-! ## What a written value does not hold -/

/-- The characters that are written as references only: those that end a value or a tag, and the
white space that a reader may change. -/
def isReserved (c : Char) : Bool :=
  c = '<' || c = '>' || c = '"' || c = '\'' || c = '\t' || c = '\n' || c = '\r'

/-- A written value has no character that is written as a reference. -/
theorem isReserved_of_mem_escape {c : Char} {cs : List Char} (h : c ∈ escape cs) :
    isReserved c = false := by
  obtain ⟨d, -, hd⟩ := List.mem_flatMap.1 h
  unfold escapeChar at hd
  split_ifs at hd with hlt hgt hapos hamp hquot htab hlf hcr
  all_goals simp only [List.mem_cons, List.not_mem_nil, or_false] at hd
  -- the characters of a reference are known; the last case is a character written as it is
  case neg => simp [isReserved, hd, hlt, hgt, hapos, hquot, htab, hlf, hcr]
  all_goals (rcases hd with rfl | rfl | rfl | rfl | rfl | rfl) <;> rfl

end InstallManifest.Markup
