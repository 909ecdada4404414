import InstallManifest.Markup.Layout
import InstallManifest.Proofs.Markup.WrittenTag
import Mathlib.Data.List.Nodup

/-!
# Laid out tags as tokens

Every tag that is written becomes one token, whatever its attributes say. Both layouts put nothing
but character data between the tags, so a laid out list of tags is cut back into just those tags.
-/

namespace InstallManifest.Markup

/-! ## Attributes as they are written -/

/-- The attribute as a writer puts it into a tag. -/
def Assignment.written (a : Assignment) (h : IsName a.name.toList) : WrittenAttribute where
  gap := [' ']
  name := a.name.toList
  beforeEquals := []
  afterEquals := []
  quote := '"'
  raw := escape a.value.toList
  gap_blank := rfl
  isName := h
  beforeEquals_blank := rfl
  afterEquals_blank := rfl
  quote_eq := .inl rfl
  quote_notMem := fun hq => by simpa [isReserved] using isReserved_of_mem_escape hq

/-- The tag of a name with attributes as a writer puts them. -/
def Tag.ofAssignments (name : String) (as : List Assignment) : Tag :=
  ⟨name.toList, as.flatMap Assignment.toChars⟩

/-- The name and the attributes of a tag that can be written and read back. -/
structure WellNamed (name : String) (as : List Assignment) : Prop where
  isName : IsName name.toList
  attributes : ∀ a ∈ as, IsName a.name.toList
  nodup : (as.map (·.name)).Nodup

/-- A tag with some attributes of a list of names, in their order, is well named if the list is. -/
theorem WellNamed.of_sublist {name : String} {as : List Assignment} (names : List String)
    (has : (as.map (·.name)).Sublist names)
    (h : IsName name.toList ∧ (∀ n ∈ names, IsName n.toList) ∧ names.Nodup) :
    WellNamed name as where
  isName := h.1
  attributes := fun _ ha => h.2.1 _ (has.subset (List.mem_map_of_mem ha))
  nodup := h.2.2.sublist has

theorem flatMap_written {as : List Assignment} (h : ∀ a ∈ as, IsName a.name.toList) :
    (as.pmap Assignment.written h).flatMap WrittenAttribute.toChars
      = as.flatMap Assignment.toChars := by
  induction as with
  | nil => rfl
  | cons a as ih =>
    rw [List.pmap_cons, List.flatMap_cons, List.flatMap_cons, ih]
    simp [Assignment.written, WrittenAttribute.toChars, WrittenAttribute.valueText,
      Assignment.toChars]

/-- The attribute of a name is the same among those that are written, with its value escaped. -/
theorem find?_written {as : List Assignment} (h : ∀ a ∈ as, IsName a.name.toList)
    (name : String) :
    ((as.pmap Assignment.written h).find? (·.name = name.toList)).map (·.raw)
      = (as.find? (·.name = name)).map fun a => escape a.value.toList := by
  induction as with
  | nil => rfl
  | cons a as ih =>
    rw [List.pmap_cons, List.find?_cons, List.find?_cons]
    by_cases hn : a.name = name
    · simp [Assignment.written, hn]
    -- another name is another text
    · have hn' : a.name.toList ≠ name.toList := fun heq => hn (String.toList_inj.1 heq)
      simpa [Assignment.written, hn, hn'] using ih fun b hb => h b (List.mem_cons_of_mem a hb)

/-- The tag with its attributes, as a writer puts it. -/
def WellNamed.tag {name : String} {as : List Assignment} (h : WellNamed name as) : WrittenTag where
  name := name.toList
  attributes := as.pmap Assignment.written h.attributes
  gap := []
  isName := h.isName
  separated := by
    intro a ha
    obtain ⟨b, hb, rfl⟩ := List.mem_pmap.1 (List.mem_of_mem_head? ha)
    simp [Assignment.written]
  nodup := by
    have hnames : (as.pmap Assignment.written h.attributes).map (·.name)
        = (as.map (·.name)).map String.toList := by
      rw [List.map_pmap]
      simp [Assignment.written]
    rw [hnames]
    exact h.nodup.map fun _ _ => String.toList_injective
  gap_blank := rfl

theorem WellNamed.source_content {name : String} {as : List Assignment} (h : WellNamed name as) :
    h.tag.source.content = name.toList ++ as.flatMap Assignment.toChars := by
  show name.toList ++ ((as.pmap Assignment.written h.attributes).flatMap _ ++ []) = _
  rw [List.append_nil, flatMap_written]

/-- The tag that is read is that of the assignments. -/
theorem WellNamed.source_tag {name : String} {as : List Assignment} (h : WellNamed name as) :
    h.tag.source.tag = .ofAssignments name as := by
  show (⟨_, (as.pmap Assignment.written h.attributes).flatMap _ ++ []⟩ : Tag) = _
  rw [List.append_nil, flatMap_written]
  rfl

/-! ## Tags as tokens -/

namespace Piece

/-- The token that a written tag is read as. -/
def token : Piece → Token
  | opening name as => .opening (.ofAssignments name as)
  | empty name as => .empty (.ofAssignments name as)
  | closing name => .closing name.toList

/-- A tag that can be written and read back. -/
def WellFormed : Piece → Prop
  | opening name as => WellNamed name as
  | empty name as => WellNamed name as
  | closing name => IsName name.toList

/-- What stands between the angle brackets. -/
def body : Piece → List Char
  | opening name as => name.toList ++ as.flatMap Assignment.toChars
  | empty name as => name.toList ++ as.flatMap Assignment.toChars ++ ['/']
  | closing name => '/' :: name.toList

theorem toChars_eq (p : Piece) : p.toChars = '<' :: (p.body ++ ['>']) := by
  cases p <;> simp [toChars, body]

/-- No bracket stands inside a tag, as attributes hold references instead. -/
theorem ne_of_mem_body {p : Piece} (h : p.WellFormed) : ∀ c ∈ p.body, c ≠ '<' ∧ c ≠ '>' := by
  have hname {name : List Char} (hn : IsName name) : ∀ c ∈ name, c ≠ '<' ∧ c ≠ '>' :=
    fun c hc => ⟨hn.ne_of_mem hc '<' rfl, hn.ne_of_mem hc '>' rfl⟩
  have hassignment {a : Assignment} (ha : IsName a.name.toList) :
      ∀ c ∈ a.toChars, c ≠ '<' ∧ c ≠ '>' := by
    intro c hc
    simp only [Assignment.toChars, List.cons_append, List.mem_cons, List.mem_append,
      List.not_mem_nil, or_false] at hc
    rcases hc with rfl | (hc | rfl | rfl | hc) | rfl
    · decide
    · exact hname ha c hc
    · decide
    · decide
    -- what is written for a value has no reserved character
    · have hreserved := isReserved_of_mem_escape hc
      constructor <;> (rintro rfl; revert hreserved; decide)
    · decide
  have htag {name : String} {as : List Assignment} (hnamed : WellNamed name as) :
      ∀ c ∈ name.toList ++ as.flatMap Assignment.toChars, c ≠ '<' ∧ c ≠ '>' := by
    intro c hc
    rcases List.mem_append.1 hc with hc | hc
    · exact hname hnamed.isName c hc
    · obtain ⟨a, ha, hca⟩ := List.mem_flatMap.1 hc
      exact hassignment (hnamed.attributes a ha) c hca
  intro c hc
  cases p with
  | opening name as => exact htag h c hc
  | empty name as =>
    rcases List.mem_append.1 hc with hc | hc
    · exact htag h c hc
    · rw [List.mem_singleton.1 hc]
      decide
  | closing name =>
    rcases List.mem_cons.1 hc with rfl | hc
    · decide
    · exact hname h c hc

/-- A tag that was written is read as one token, whatever follows it. -/
theorem next_token {p : Piece} (h : p.WellFormed) (rest : List Char) :
    Token.next '<' (p.body ++ '>' :: rest) = .ok (p.token, rest) := by
  cases p with
  | opening name as =>
    have hnamed : WellNamed name as := h
    have hnext := hnamed.tag.source.next_opening rest
    rwa [hnamed.source_content, hnamed.source_tag] at hnext
  | empty name as =>
    have hnamed : WellNamed name as := h
    have hnext := hnamed.tag.source.next_empty rest
    rw [hnamed.source_content, hnamed.source_tag] at hnext
    simpa [body, token] using hnext
  | closing name =>
    have hname : IsName name.toList := h
    have hnext : Token.next '<' ('/' :: (name.toList ++ []) ++ '>' :: rest) = _ :=
      next_closing hname rfl rest
    simpa [body, token] using hnext

end Piece

/-! ## Layouts -/

/-- Whether a character between two tags is character data that no one could take for markup. -/
def isFiller (c : Char) : Bool := !(c = '<' || c = '>' || c = '&')

theorem endsText_of_isFiller {c : Char} (h : isFiller c = true) : endsText c = false := by
  simp only [isFiller, Bool.not_eq_true', Bool.or_eq_false_iff] at h
  rw [endsText, h.1.1, h.2, Bool.or_self]

/-- A text that holds the given tags, with nothing but filler between them. -/
inductive IsLayout : List Piece → List Char → Prop
  | nil {gap : List Char} (hgap : ∀ c ∈ gap, isFiller c = true) : IsLayout [] gap
  | cons {p : Piece} {ps : List Piece} {gap text : List Char}
      (hgap : ∀ c ∈ gap, isFiller c = true) (htext : IsLayout ps text) :
      IsLayout (p :: ps) (gap ++ (p.toChars ++ text))

theorem isLayout_compact (ps : List Piece) : IsLayout ps (compact ps) := by
  induction ps with
  | nil => exact .nil (by simp [compact])
  | cons p ps ih =>
    have htext : compact (p :: ps) = [] ++ (p.toChars ++ compact ps) := by simp [compact]
    rw [htext]
    exact .cons (by simp) ih

/-- The indented layout puts a line feed and the indentation before each tag. -/
theorem isLayout_indented {unit : List Char} (hunit : ∀ c ∈ unit, isFiller c = true)
    (ps : List Piece) (depth : Nat) : IsLayout ps (indented unit depth ps ++ ['\n']) := by
  induction ps generalizing depth with
  | nil => exact .nil (by simp [indented, isFiller])
  | cons p ps ih =>
    have htext : indented unit depth (p :: ps) ++ ['\n']
        = ('\n' :: (List.replicate (p.depthAt depth) unit).flatten) ++
            (p.toChars ++ (indented unit (p.depthAfter depth) ps ++ ['\n'])) := by
      simp [indented]
    rw [htext]
    refine .cons ?_ (ih (p.depthAfter depth))
    -- before the tag there is a line feed and as many units as it is deep
    intro c hc
    rcases List.mem_cons.1 hc with rfl | hc
    · decide
    · obtain ⟨u, hu, hcu⟩ := List.mem_flatten.1 hc
      exact hunit c (List.eq_of_mem_replicate hu ▸ hcu)

end InstallManifest.Markup
