import InstallManifest.Proofs.Markup.Scanning

/-!
# What may stand between tags

Character data, references, comments, CDATA sections and instructions. Each of them is cut off as
one token that is no tag, up to the mark that ends it.
-/

namespace InstallManifest.Markup

/-- Something that is no tag. Its body does not hold the mark that would end it early. -/
inductive Aside where
  | text (chars : List Char) (plain : ∀ c ∈ chars, endsText c = false)
  | reference (body : List Char) (plain : ∀ c ∈ body, c ≠ ';' ∧ endsText c = false)
  | comment (body : List Char) (not_ended : ¬ ['-', '-', '>'] <:+: body)
  | cdata (body : List Char) (not_ended : ¬ [']', ']', '>'] <:+: body)
  | instruction (body : List Char) (not_ended : ¬ ['?', '>'] <:+: body)
      (has_target : body.head? ≠ some '>')

namespace Aside

def toChars : Aside → List Char
  | text chars _ => chars
  | reference body _ => '&' :: (body ++ [';'])
  | comment body _ => ['<', '!', '-', '-'] ++ (body ++ ['-', '-', '>'])
  | cdata body _ => ['<', '!', '[', 'C', 'D', 'A', 'T', 'A', '['] ++ (body ++ [']', ']', '>'])
  | instruction body _ _ => ['<', '?'] ++ (body ++ ['?', '>'])

end Aside

/-! ## Their tokens -/

theorem next_comment {body : List Char} (h : ¬ ['-', '-', '>'] <:+: body) (rest : List Char) :
    Token.next '<' ('!' :: '-' :: '-' :: (body ++ ['-', '-', '>'] ++ rest))
      = .ok (.aside, rest) := by
  have hlast : '>' ∉ ['-', '-'] := by decide
  have hskip : skipPast ['-', '-', '>'] (body ++ ['-', '-', '>'] ++ rest) = some rest :=
    skipPast_append hlast h rest
  rw [Token.next, if_pos rfl, markup, skipDeclaration, hskip]
  rfl

theorem next_cdata {body : List Char} (h : ¬ [']', ']', '>'] <:+: body) (rest : List Char) :
    Token.next '<' ('!' :: '[' :: 'C' :: 'D' :: 'A' :: 'T' :: 'A' :: '[' ::
      (body ++ [']', ']', '>'] ++ rest)) = .ok (.aside, rest) := by
  have hlast : '>' ∉ [']', ']'] := by decide
  have hskip : skipPast [']', ']', '>'] (body ++ [']', ']', '>'] ++ rest) = some rest :=
    skipPast_append hlast h rest
  rw [Token.next, if_pos rfl, markup, skipDeclaration, if_pos (by simp [List.isPrefixOf])]
  -- what is dropped is the word that opens the section
  simp only [List.drop_succ_cons, List.drop_zero, hskip]
  rfl

theorem next_instruction {body : List Char} (h : ¬ ['?', '>'] <:+: body)
    (hhead : body.head? ≠ some '>') (rest : List Char) :
    Token.next '<' ('?' :: (body ++ ['?', '>'] ++ rest)) = .ok (.aside, rest) := by
  have hlast : '>' ∉ ['?'] := by decide
  have hskip : skipPast ['?', '>'] (body ++ ['?', '>'] ++ rest) = some rest :=
    skipPast_append hlast h rest
  -- the mark that follows an empty body begins otherwise, too
  have hhead' : (body ++ ['?', '>'] ++ rest).head? ≠ some '>' := by
    cases body with
    | nil => simp
    | cons c cs => exact hhead
  rw [Token.next, if_pos rfl, markup, skipInstruction, if_neg hhead', hskip]
  rfl

theorem next_reference {body : List Char} (h : ∀ c ∈ body, c ≠ ';' ∧ endsText c = false)
    (rest : List Char) : Token.next '&' (body ++ ';' :: rest) = .ok (.aside, rest) := by
  rw [Token.next, if_neg (by decide), if_pos rfl, splitReference_append rest h]

end InstallManifest.Markup
