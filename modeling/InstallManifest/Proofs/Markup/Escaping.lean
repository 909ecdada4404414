import InstallManifest.Proofs.Markup.Characters
import InstallManifest.Proofs.Markup.References
import InstallManifest.Repository.Reading

/-!
# Written attribute values

A value may hold any text, references among it, and is read as that text again. What is written for
it is inert: it cannot end the value or the tag around it, a reader that normalises attribute values
finds nothing to change, and an ampersand only ever begins one of eight references. The references
may as well be put in pass by pass, for no pass touches what an earlier one has written.
-/

namespace InstallManifest.Markup

/-! ## Writing in passes -/

/-- Puts a text in the place of a character. -/
def replaceChar (c : Char) (text cs : List Char) : List Char :=
  cs.flatMap fun d => if d = c then text else [d]

/-- A character that has a name, by its name. -/
def nameChar (c : Char) : List Char :=
  match named.find? (·.2 = c) with
  | some (name, _) => '&' :: name ++ [';']
  | none => [c]

/-- White space that a reader would change, in three passes. -/
def replaceBlanks (cs : List Char) : List Char :=
  replaceChar '\r' "&#13;".toList (replaceChar '\n' "&#10;".toList
    (replaceChar '\t' "&#9;".toList cs))

/-- Whether a reader would change a character. -/
def isChanged (c : Char) : Bool := c = '\t' || c = '\n' || c = '\r'

/-- The written form of an attribute value, pass by pass: first the characters that have a name,
then white space if there is any to be replaced. -/
def escapeInPasses (cs : List Char) : List Char :=
  let marked := cs.flatMap nameChar
  if marked.any isChanged then replaceBlanks marked else marked

theorem replaceChar_eq_self {c : Char} {cs : List Char} (text : List Char) (h : c ∉ cs) :
    replaceChar c text cs = cs := by
  induction cs with
  | nil => rfl
  | cons d cs ih =>
    obtain ⟨hd, hcs⟩ := not_or.1 (mt List.mem_cons.2 h)
    have hrest : replaceChar c text (d :: cs) = [d] ++ replaceChar c text cs := by
      rw [replaceChar, List.flatMap_cons, if_neg (Ne.symm hd), replaceChar]
    rw [hrest, ih hcs, List.singleton_append]

theorem notMem_of_isChanged {c : Char} {cs : List Char} (hc : isChanged c = true)
    (h : cs.any isChanged = false) : c ∉ cs := by
  intro hmem
  exact List.any_eq_false.1 h c hmem hc

/-- Without white space to be changed the three passes do nothing. -/
theorem replaceBlanks_eq_self {cs : List Char} (h : cs.any isChanged = false) :
    replaceBlanks cs = cs := by
  rw [replaceBlanks, replaceChar_eq_self _ (notMem_of_isChanged rfl h),
    replaceChar_eq_self _ (notMem_of_isChanged rfl h),
    replaceChar_eq_self _ (notMem_of_isChanged rfl h)]

/-- No pass touches what stands in a reference, so each character comes to its written form. -/
theorem replaceBlanks_nameChar (c : Char) : replaceBlanks (nameChar c) = escapeChar c := by
  unfold escapeChar
  split_ifs with hlt hgt hapos hamp hquot htab hlf hcr
  case neg =>
    have hname : nameChar c = [c] := by
      simp [nameChar, named, Ne.symm hlt, Ne.symm hgt, Ne.symm hapos, Ne.symm hamp, Ne.symm hquot]
    have hkept : [c].any isChanged = false := by simp [isChanged, htab, hlf, hcr]
    rw [hname, replaceBlanks_eq_self hkept]
  all_goals
    subst c
    rfl

/-- Passes go character by character, so each character can be followed through all of them. -/
theorem replaceBlanks_flatMap (cs : List Char) :
    replaceBlanks (cs.flatMap nameChar) = cs.flatMap fun c => replaceBlanks (nameChar c) := by
  simp only [replaceBlanks, replaceChar, List.flatMap_assoc]

theorem escapeInPasses_eq (cs : List Char) : escapeInPasses cs = escape cs := by
  have hreplaced : replaceBlanks (cs.flatMap nameChar) = escape cs := by
    simp only [replaceBlanks_flatMap, replaceBlanks_nameChar, escape]
  rw [escapeInPasses]
  split_ifs with hchanged
  · exact hreplaced
  -- without such white space the passes would have done nothing
  · rw [← hreplaced, replaceBlanks_eq_self (Bool.eq_false_iff.2 hchanged)]

/-! ## References in a written value -/

/-- The references that are written. -/
def references : List (List Char) :=
  ["&amp;", "&lt;", "&gt;", "&quot;", "&apos;", "&#9;", "&#10;", "&#13;"].map String.toList

theorem mem_references_of_suffix {c : Char} {body : List Char} (h : '&' :: body <:+ escapeChar c) :
    '&' :: body ∈ references := by
  unfold escapeChar at h
  split_ifs at h with hlt hgt hapos hamp hquot htab hlf hcr
  -- what is written as it is is no ampersand, and a reference has none but its first character
  case neg =>
    have hmark : '&' ∈ [c] := h.subset List.mem_cons_self
    exact absurd (List.mem_singleton.1 hmark).symm hamp
  all_goals
    -- of the ends of a reference only the whole begins with an ampersand
    simp only [List.suffix_cons_iff, List.cons.injEq, Char.reduceEq, false_and, List.suffix_nil,
      reduceCtorEq, or_false, true_and] at h
    subst h
    decide

/-- An ampersand begins a reference, whatever the value is. -/
theorem reference_of_suffix {cs rest : List Char} (h : '&' :: rest <:+ escape cs) :
    ∃ r ∈ references, r <+: '&' :: rest := by
  induction cs with
  | nil => cases List.suffix_nil.1 h
  | cons c cs ih =>
    have hcons : escape (c :: cs) = escapeChar c ++ escape cs := List.flatMap_cons
    obtain ⟨before, h⟩ := h
    rw [hcons] at h
    -- the ampersand stands in what is written for the first character, or behind that
    rcases List.append_eq_append_iff.1 h with ⟨first, hfirst, hrest⟩ | ⟨later, -, hlater⟩
    · cases first with
      | nil => exact ih (hrest ▸ List.suffix_refl _)
      | cons mark body =>
        simp only [List.cons_append, List.cons.injEq] at hrest
        obtain ⟨rfl, rfl⟩ := hrest
        exact ⟨_, mem_references_of_suffix ⟨before, hfirst.symm⟩, List.prefix_append _ _⟩
    · exact ih ⟨later, hlater.symm⟩

/-! ## Normalisation -/

/-- Line ends as a reader takes them: a carriage return, and a line feed behind it if there is one,
counts as a line feed. -/
def unifyLineEnds : List Char → List Char
  | '\r' :: '\n' :: cs => '\n' :: unifyLineEnds cs
  | '\r' :: cs => '\n' :: unifyLineEnds cs
  | c :: cs => c :: unifyLineEnds cs
  | [] => []

/-- What a reader that normalises takes for an attribute value before it resolves references: after
the line ends, any white space counts as a space. -/
def normalizeValue (raw : List Char) : List Char :=
  (unifyLineEnds raw).map fun c => if isBlank c then ' ' else c

theorem unifyLineEnds_eq_self {cs : List Char} (h : '\r' ∉ cs) : unifyLineEnds cs = cs := by
  fun_induction unifyLineEnds cs with
  | case1 cs ih => exact absurd List.mem_cons_self h
  | case2 cs hcs ih => exact absurd List.mem_cons_self h
  | case3 c cs hcrlf hcr ih => rw [ih fun hmem => h (List.mem_cons_of_mem c hmem)]
  | case4 => rfl

theorem isBlank_of_isChanged {c : Char} (h : isChanged c = true) : isBlank c = true := by
  simp only [isChanged, isBlank, Bool.or_eq_true, decide_eq_true_eq] at h ⊢
  tauto

theorem eq_space_of_isBlank {c : Char} (h : isBlank c = true) (hkept : isChanged c = false) :
    c = ' ' := by
  simp only [isChanged, isBlank, Bool.or_eq_true, Bool.or_eq_false_iff, decide_eq_true_eq,
    decide_eq_false_iff_not] at h hkept
  tauto

/-- A value stays as it is exactly if it holds none of the characters that are changed. -/
theorem normalizeValue_eq_self_iff {cs : List Char} :
    normalizeValue cs = cs ↔ cs.any isChanged = false := by
  constructor
  · intro h
    rw [← h, normalizeValue, List.any_eq_false]
    intro c hc
    -- after normalisation the only white space is the space
    obtain ⟨d, -, rfl⟩ := List.mem_map.1 hc
    split_ifs with hblank
    · decide
    · exact fun hchanged => hblank (isBlank_of_isChanged hchanged)
  · intro h
    have hkept : ∀ c ∈ cs, (if isBlank c then ' ' else c) = c := by
      intro c hc
      split_ifs with hblank
      · exact (eq_space_of_isBlank hblank (Bool.eq_false_iff.2 (List.any_eq_false.1 h c hc))).symm
      · rfl
    rw [normalizeValue, unifyLineEnds_eq_self (notMem_of_isChanged rfl h),
      List.map_congr_left hkept, List.map_id']

/-! ## Written values -/

/-- The written form of a value is as legal as the value. -/
theorem isXmlChar_escape_iff {cs : List Char} :
    (∀ c ∈ escape cs, IsXmlChar c) ↔ ∀ c ∈ cs, IsXmlChar c := by
  constructor
  · intro h c hc
    have hwritten : ∀ d ∈ escapeChar c, IsXmlChar d :=
      fun d hd => h d (List.mem_flatMap.2 ⟨c, hc, hd⟩)
    unfold escapeChar at hwritten
    split_ifs at hwritten
    case neg => exact hwritten c List.mem_cons_self
    -- the characters that have references are legal themselves
    all_goals
      subst c
      decide
  · intro h c
    exact isXmlChar_of_mem_escape h

/-- An attribute whose value stands in a tag in its written form has that value. -/
theorem Tag.get?_of_escape {t : Tag} {name : String} {v : List Char}
    (h : t.attributes.lookup name.toList = .ok (some (escape v))) :
    t.get? name = .ok (some (String.ofList v)) := by
  simp only [Tag.get?, h, unescape_escape]

/-- Whatever a value is, it is read back from its written form, which is the same if it is written
pass by pass. The form holds no character that could end the value or the tag, every ampersand in
it begins one of eight references, normalisation leaves it as it is, and it is as legal as the
value. -/
theorem escape_lossless_and_inert (v : List Char) :
    escapeInPasses v = escape v ∧
    (∀ c ∈ escape v, isReserved c = false) ∧
    (∀ before after, escape v = before ++ '&' :: after →
      ∃ r ∈ references, r <+: '&' :: after) ∧
    normalizeValue (escape v) = escape v ∧
    ((∀ c ∈ escape v, IsXmlChar c) ↔ ∀ c ∈ v, IsXmlChar c) ∧
    unescape (escape v) = .ok v ∧
    (∀ (t : Tag) (name : String), t.attributes.lookup name.toList = .ok (some (escape v)) →
      t.get? name = .ok (some (String.ofList v))) := by
  have hkept : (escape v).any isChanged = false := by
    rw [List.any_eq_false]
    intro c hc
    have hreserved := isReserved_of_mem_escape hc
    simp only [isReserved, Bool.or_eq_false_iff, decide_eq_false_iff_not] at hreserved
    simp [isChanged, hreserved]
  refine ⟨escapeInPasses_eq v, ?_, ?_, normalizeValue_eq_self_iff.2 hkept, isXmlChar_escape_iff,
    unescape_escape v, ?_⟩
  · intro c
    exact isReserved_of_mem_escape
  · intro before after h
    exact reference_of_suffix ⟨before, h.symm⟩
  · intro t name
    exact Tag.get?_of_escape

/-- A value that looks like references is written with references to its ampersands. -/
example : escape "&amp;lt;&#10;\n".toList = "&amp;amp;lt;&amp;#10;&#10;".toList := by decide

end InstallManifest.Markup
