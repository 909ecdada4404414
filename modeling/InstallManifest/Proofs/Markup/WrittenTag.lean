import InstallManifest.Proofs.Markup.AttributeText
import InstallManifest.Proofs.Markup.References
import InstallManifest.Proofs.Markup.TagSource

/-!
# Well-formed attribute lists

A `WrittenAttribute` is an attribute with the white space and the quotes that it was written with,
and a `WrittenTag` is a tag whose attribute list is a sequence of those without a repeated name.
Reading such a list finds every attribute and no fault, so a look-up depends on the names and
written values alone.
-/

namespace InstallManifest.Markup

/-- An attribute as it was written, with the white space before it. -/
structure WrittenAttribute where
  gap : List Char
  name : List Char
  beforeEquals : List Char
  afterEquals : List Char
  quote : Char
  raw : List Char
  gap_blank : allBlank gap = true
  isName : IsName name
  beforeEquals_blank : allBlank beforeEquals = true
  afterEquals_blank : allBlank afterEquals = true
  quote_eq : quote = '"' ∨ quote = '\''
  quote_notMem : quote ∉ raw

/-- A tag with a well-formed attribute list, and white space at its end. -/
structure WrittenTag where
  name : List Char
  attributes : List WrittenAttribute
  gap : List Char
  isName : IsName name
  separated : ∀ a ∈ attributes.head?, a.gap ≠ []
  nodup : (attributes.map (·.name)).Nodup
  gap_blank : allBlank gap = true

namespace WrittenAttribute

/-- The attribute from its equals sign on. -/
def valueText (a : WrittenAttribute) : List Char :=
  '=' :: (a.afterEquals ++ a.quote :: (a.raw ++ [a.quote]))

def toChars (a : WrittenAttribute) : List Char :=
  a.gap ++ (a.name ++ (a.beforeEquals ++ a.valueText))

theorem tagText (a : WrittenAttribute) : TagText a.toChars := by
  have hquoted : TagText (a.quote :: a.raw ++ [a.quote]) := .quoted a.quote_eq a.quote_notMem
  have hequals : TagText ['='] := .of_plain (by simp)
  have hvalue : TagText a.valueText :=
    hequals.append ((TagText.of_blank a.afterEquals_blank).append hquoted)
  exact (TagText.of_blank a.gap_blank).append
    (a.isName.tagText.append ((TagText.of_blank a.beforeEquals_blank).append hvalue))

theorem isAttribute (a : WrittenAttribute) : IsAttribute (a.name, a.raw) a.toChars := by
  obtain ⟨first, tail, hname⟩ := List.exists_cons_of_ne_nil a.isName.ne_nil
  have hfirst : isBlank first = false :=
    a.isName.isBlank_eq_false first (hname ▸ List.mem_cons_self)
  have htail : ∀ c ∈ tail, endsName c = false := by
    intro c hc
    have hmem : c ∈ a.name := hname ▸ List.mem_cons_of_mem _ hc
    simp [endsName, a.isName.isBlank_eq_false c hmem, a.isName.ne_of_mem hmem '=' rfl]
  rw [toChars, valueText, hname]
  exact .intro a.gap_blank hfirst htail a.beforeEquals_blank a.afterEquals_blank a.quote_eq
    a.quote_notMem

end WrittenAttribute

/-! ## Reading a list -/

/-- An attribute list without a fault that holds the given attributes, wherever they stood. -/
def AttributeList.Holds (l : AttributeList) (as : List WrittenAttribute) : Prop :=
  l.fault = none ∧ l.attributes.map (fun a => (a.name, a.raw)) = as.map fun a => (a.name, a.raw)

theorem AttributeList.Holds.lookup {l : AttributeList} {as : List WrittenAttribute}
    (h : l.Holds as) (name : List Char) :
    l.lookup name = .ok ((as.find? (·.name = name)).map (·.raw)) := by
  obtain ⟨hfault, hsame⟩ := h
  have hentries : l.attributes.map Attribute.entry = as.map fun a => (a.name, a.raw) := hsame
  rw [lookup_of_fault_eq_none hfault, hentries, List.find?_map, Option.map_map]
  rfl

/-- Attributes as they were written are attributes, with white space behind them. -/
theorem isAttributes_written (as : List WrittenAttribute) {gap : List Char}
    (hgap : allBlank gap = true) :
    IsAttributes (as.map fun a => (a.name, a.raw))
      (as.flatMap WrittenAttribute.toChars ++ gap) := by
  induction as with
  | nil => exact .nil hgap
  | cons a as ih =>
    rw [List.map_cons, List.flatMap_cons, List.append_assoc]
    exact .cons a.isAttribute ih

/-- A list of attributes of different names is read without a fault. -/
theorem readAttributes_holds {as : List WrittenAttribute} {gap : List Char}
    {earlier : List Attribute} (offset : Nat) (hgap : allBlank gap = true)
    (hnodup : (as.map (·.name)).Nodup) (hnew : ∀ a ∈ as, ∀ e ∈ earlier, e.name ≠ a.name) :
    (readAttributes earlier offset (as.flatMap WrittenAttribute.toChars ++ gap)).Holds as := by
  have hnames : (as.map fun a => (a.name, a.raw)).map Prod.fst = as.map (·.name) := by simp
  have hnew' : ∀ name ∈ as.map (·.name), ∀ e ∈ earlier, e.name ≠ name := by
    simpa using hnew
  rw [← hnames] at hnodup hnew'
  obtain ⟨earlier', offset', gap', hgap', hattributes, hfault⟩ :=
    (isAttributes_written as hgap).readAttributes_append hnodup hnew' offset []
  have hend : readAttributes earlier' offset' (gap' ++ []) = .nil :=
    readAttributes_of_blank (skipBlank_append offset' hgap' (by simp))
  rw [List.append_nil (as.flatMap _ ++ gap), hend] at hattributes hfault
  exact ⟨hfault, hattributes.trans (List.append_nil _)⟩

/-! ## Tags with well-formed lists -/

namespace WrittenTag

variable (t : WrittenTag)

/-- The text between the name and the end of the tag. -/
def attributeText : List Char := t.attributes.flatMap WrittenAttribute.toChars ++ t.gap

theorem isBlank_head : ∀ c ∈ t.attributeText.head?, isBlank c = true := by
  have hblank {gap : List Char} (h : allBlank gap = true) : ∀ c ∈ gap.head?, isBlank c = true :=
    fun c hc => isBlank_of_allBlank h c (List.mem_of_mem_head? hc)
  unfold attributeText
  cases has : t.attributes with
  | nil => simpa using hblank t.gap_blank
  | cons a as =>
    have hne : a.gap ≠ [] := t.separated a (by rw [has]; rfl)
    rw [List.flatMap_cons, WrittenAttribute.toChars, List.append_assoc, List.append_assoc,
      List.head?_append_of_ne_nil _ hne]
    exact hblank a.gap_blank

theorem tagText : TagText t.attributeText := by
  have hall (as : List WrittenAttribute) : TagText (as.flatMap WrittenAttribute.toChars) := by
    induction as with
    | nil => exact ⟨rfl, rfl⟩
    | cons a as ih => exact a.tagText.append ih
  exact (hall t.attributes).append (.of_blank t.gap_blank)

theorem not_slash : t.attributeText.getLast? ≠ some '/' := by
  unfold attributeText
  rw [List.getLast?_append]
  cases hgap : t.gap.getLast? with
  | some c =>
    have hc := isBlank_of_allBlank t.gap_blank c (List.mem_of_getLast? hgap)
    rintro heq
    cases heq
    revert hc
    decide
  | none =>
    rw [Option.none_or]
    cases has : t.attributes.getLast? with
    | none => simp [List.getLast?_eq_none_iff.1 has]
    | some a =>
      obtain ⟨as, hlast⟩ := List.getLast?_eq_some_iff.1 has
      have hquote : a.quote ≠ '/' := by
        rcases a.quote_eq with h | h <;> rw [h] <;> decide
      have htext : (as ++ [a]).flatMap WrittenAttribute.toChars
          = (as.flatMap WrittenAttribute.toChars ++ (a.gap ++ (a.name ++ (a.beforeEquals ++
              '=' :: (a.afterEquals ++ a.quote :: a.raw))))) ++ [a.quote] := by
        simp [WrittenAttribute.toChars, WrittenAttribute.valueText]
      rw [hlast, htext, List.getLast?_concat]
      simpa using hquote

/-- The tag as it stands in a text. -/
def source : TagSource where
  name := t.name
  attributeText := t.attributeText
  isName := t.isName
  isBlank_head := t.isBlank_head
  tagText := t.tagText
  not_slash := t.not_slash

@[simp] theorem source_name : t.source.name = t.name := rfl

/-- A look-up finds the written value of the one attribute of its name. -/
theorem lookup_eq (name : List Char) :
    t.source.tag.attributes.lookup name
      = .ok ((t.attributes.find? (·.name = name)).map (·.raw)) :=
  (readAttributes_holds _ t.gap_blank t.nodup (by simp)).lookup name

/-- Whether all references in the attributes stand for something. -/
def IsReadable : Prop := ∀ a ∈ t.attributes, (unescape a.raw).isOk = true

instance : Decidable t.IsReadable := inferInstanceAs (Decidable (∀ a ∈ t.attributes, _))

/-- The text that an attribute stands for, if the tag has it. -/
def text? (name : String) : Option String :=
  (t.attributes.find? (·.name = name.toList)).bind fun a =>
    (unescape a.raw).toOption.map String.ofList

end WrittenTag

end InstallManifest.Markup
