import InstallManifest.Proofs.Markup.Layout
import InstallManifest.Proofs.Markup.Provenance
import InstallManifest.Repository.Reading

/-!
# Attributes of the tags that are read

What a tag with a well-formed attribute list has under a name: the text of the one attribute of
that name, or nothing. What a property, a file set or a file is read from, and which characters its
texts can hold, whatever the attribute list is like.
-/

namespace InstallManifest

open Markup

theorem Markup.Tag.get_eq_ok {t : Tag} {name value : String} (h : t.get? name = .ok (some value)) :
    t.get name = .ok value := by
  rw [Tag.get, h]
  rfl

theorem Markup.Tag.get_eq_missing {t : Tag} {name : String} (h : t.get? name = .ok none) :
    t.get name = .error (.missingAttribute name.toList t.name) := by
  rw [Tag.get, h]
  rfl

theorem Markup.Tag.get?_of_get {t : Tag} {name value : String} (h : t.get name = .ok value) :
    t.get? name = .ok (some value) := by
  obtain ⟨value?, hvalue, h⟩ := bind_eq_ok_iff.1 h
  cases value? with
  | none => cases h
  | some found =>
    cases h
    exact hvalue

/-- The text of an attribute holds no character that its tag does not bring in. -/
theorem Markup.Tag.yields_of_get? {t : Tag} {name value : String} {c : Char}
    (h : t.get? name = .ok (some value)) (hc : c ∈ value.toList) : Yields t.attributeText c := by
  unfold Tag.get? at h
  split at h
  · cases h
  · cases h
  · rename_i raw hlookup
    split at h
    · cases h
    · rename_i text htext
      cases h
      rw [String.toList_ofList] at hc
      -- it came out of a value, and the value stands in the tag
      exact (yields_of_mem_unescape htext hc).mono (Tag.raw_infix_of_lookup hlookup)

/-! ## What tags tell -/

section

variable {t : Tag}

/-- A property is read from two attributes. -/
theorem Property.get?_of_ofTag {p : Property} (h : Property.ofTag t = .ok p) :
    t.get? "Name" = .ok (some p.name) ∧ t.get? "Value" = .ok (some p.value) := by
  obtain ⟨name, hname, h⟩ := bind_eq_ok_iff.1 h
  obtain ⟨value, hvalue, h⟩ := bind_eq_ok_iff.1 h
  cases h
  exact ⟨Tag.get?_of_get hname, Tag.get?_of_get hvalue⟩

/-- A file is read from its source, and from its target if it has one. -/
theorem FileEntry.get?_of_ofTag {f : FileEntry} (h : FileEntry.ofTag t = .ok f) :
    t.get? "Source" = .ok (some f.source) ∧ t.get? "Target" = .ok f.target := by
  obtain ⟨source, hsource, h⟩ := bind_eq_ok_iff.1 h
  obtain ⟨target, htarget, h⟩ := bind_eq_ok_iff.1 h
  cases h
  exact ⟨Tag.get?_of_get hsource, htarget⟩

/-- The file set of a tag has no files yet, and its identifier is read from a text. -/
theorem FileSet.get?_of_ofTag {s : FileSet} (h : FileSet.ofTag t = .ok s) :
    (∃ text, t.get? "Id" = .ok (some text) ∧ s.id = .ofText text) ∧
      t.get? "Name" = .ok s.name ∧ t.get? "SourcePackage" = .ok s.sourcePackage ∧
      s.files = [] := by
  obtain ⟨text, htext, h⟩ := bind_eq_ok_iff.1 h
  obtain ⟨name, hname, h⟩ := bind_eq_ok_iff.1 h
  obtain ⟨package, hpackage, h⟩ := bind_eq_ok_iff.1 h
  cases h
  exact ⟨⟨text, Tag.get?_of_get htext, rfl⟩, hname, hpackage, rfl⟩

end

/-! ## Well-formed tags -/

/-- A look-up finds the text that the one attribute of its name stands for. -/
theorem Markup.WrittenTag.get?_eq {t : WrittenTag} (h : t.IsReadable) (name : String) :
    t.source.tag.get? name = .ok (t.text? name) := by
  rw [Tag.get?, t.lookup_eq, WrittenTag.text?]
  cases hfind : t.attributes.find? (·.name = name.toList) with
  | none => rfl
  | some a =>
    -- the attribute that is found is one of those that can be resolved
    have hok := h a (List.mem_of_find?_eq_some hfind)
    cases htext : unescape a.raw with
    | error cause => rw [htext] at hok; cases hok
    | ok text => simp [htext, Except.toOption]

theorem Markup.WrittenTag.toOption_get {t : WrittenTag} (h : t.IsReadable) (name : String) :
    (t.source.tag.get name).toOption = t.text? name := by
  have hget := t.get?_eq h name
  cases htext : t.text? name with
  | none => rw [Tag.get_eq_missing (hget.trans (by rw [htext]))]; rfl
  | some value => rw [Tag.get_eq_ok (hget.trans (by rw [htext]))]; rfl

/-- What was written has no reference that could not be resolved. -/
theorem Markup.WellNamed.isReadable {name : String} {as : List Assignment}
    (h : WellNamed name as) : h.tag.IsReadable := by
  intro a ha
  obtain ⟨b, hb, rfl⟩ := List.mem_pmap.1 ha
  have hread : unescape (escape b.value.toList) = .ok b.value.toList := unescape_escape _
  exact congrArg Except.isOk hread

/-- A tag that was written has just the attributes it was written with. -/
theorem Markup.WellNamed.get?_eq {name : String} {as : List Assignment} (h : WellNamed name as)
    (key : String) :
    (Tag.ofAssignments name as).get? key
      = .ok ((as.find? (·.name = key)).map (·.value)) := by
  -- escaping leaves the names as they are, so the same attribute is found
  have hraw : (h.tag.attributes.find? (·.name = key.toList)).map (·.raw)
      = (as.find? (·.name = key)).map fun a => escape a.value.toList :=
    find?_written h.attributes key
  have htext : h.tag.text? key = ((h.tag.attributes.find? (·.name = key.toList)).map (·.raw)).bind
      fun raw => (unescape raw).toOption.map String.ofList := by
    rw [WrittenTag.text?, Option.bind_map]
    rfl
  rw [← h.source_tag, WrittenTag.get?_eq h.isReadable, htext, hraw]
  cases as.find? (·.name = key) with
  | none => rfl
  | some a => simp [unescape_escape, Except.toOption]

end InstallManifest
