import InstallManifest.Proofs.Reading.Invariants
import InstallManifest.Proofs.Repository.Rendering
import InstallManifest.Proofs.Repository.RoundTrip

/-!
# Writing what was read

A repository that was read can be written again, and is then read as the same one, unless a value
of it holds a character that no document may hold. The reader does not look for such characters:
they come in where they stand in a tag, and as references to them. There is no other way, so a
document whose tags bring in legal characters only can always be written again.
-/

namespace InstallManifest

open Markup

/-! ## Characters of values -/

/-- Whether some tag of a document brings in a character. -/
def Markup.Brings (document : String) (c : Char) : Prop :=
  ∃ t ∈ tags document, Yields t.attributeText c

/-- Whether a value is made of characters of one kind. -/
def Markup.Assignment.MadeOf (C : Char → Prop) (a : Assignment) : Prop :=
  ∀ c ∈ a.value.toList, C c

theorem Uuid.isXmlChar_digitChar (d : Fin 16) : IsXmlChar (digitChar d) := by
  revert d
  decide

/-- UUIDs are written with legal characters. -/
theorem isXmlChar_of_mem_toText {text : String} {c : Char}
    (h : c ∈ (FileSetId.ofText text).toText.toList) : c ∈ text.toList ∨ IsXmlChar c := by
  rcases FileSetId.mem_toText_ofText h with htext | rfl | ⟨d, rfl⟩
  · exact .inl htext
  · exact .inr (by decide)
  · exact .inr (Uuid.isXmlChar_digitChar d)

section

variable {C : Char → Prop} {t : Tag}

/-- A value of a tag is made of what the tag brings in. -/
theorem madeOf_of_get? (ht : ∀ c, Yields t.attributeText c → C c) {name value : String}
    (h : t.get? name = .ok (some value)) : Assignment.MadeOf C ⟨name, value⟩ :=
  fun c hc => ht c (Tag.yields_of_get? h hc)

theorem shownIfAny_madeOf (ht : ∀ c, Yields t.attributeText c → C c) {name : String}
    {value? : Option String} (h : t.get? name = .ok value?) :
    ∀ a ∈ shownIfAny name value?, a.MadeOf C := by
  cases value? with
  | none =>
    intro a ha
    cases ha
  | some value => exact List.forall_mem_singleton.2 (madeOf_of_get? ht h)

/-- The values that a tag tells are made of what it brings in, and of what UUIDs are written
with. -/
theorem Markup.Tag.tells_madeOf (hlegal : ∀ c, IsXmlChar c → C c)
    (ht : ∀ c, Yields t.attributeText c → C c) :
    t.Tells (fun p => ∀ a ∈ p.shown, a.MadeOf C) (fun s => ∀ a ∈ s.shown true, a.MadeOf C) where
  property p hp := by
    obtain ⟨hname, hvalue⟩ := Property.get?_of_ofTag hp
    exact List.forall_mem_cons.2 ⟨madeOf_of_get? ht hname,
      List.forall_mem_singleton.2 (madeOf_of_get? ht hvalue)⟩
  fileSet s hs := by
    obtain ⟨⟨text, htext, hid⟩, hname, hpackage, hfiles⟩ := FileSet.get?_of_ofTag hs
    have hidentifier : Assignment.MadeOf C ⟨"Id", s.id.toText⟩ := by
      intro c hc
      -- the identifier may be written in another form than it was read in
      rw [hid] at hc
      exact (isXmlChar_of_mem_toText hc).elim (madeOf_of_get? ht htext c) (hlegal c)
    rw [FileSet.shown, hfiles, List.flatMap_nil, List.append_nil, if_pos rfl]
    simp only [List.forall_mem_append, List.forall_mem_singleton]
    exact ⟨⟨shownIfAny_madeOf ht hname, hidentifier⟩, shownIfAny_madeOf ht hpackage⟩
  file s f hs hf := by
    obtain ⟨hsource, htarget⟩ := FileEntry.get?_of_ofTag hf
    -- what a file shows comes behind all that its file set showed before
    have hshown : (s.addFile f).shown true = s.shown true ++ f.shown := by
      simp [FileSet.shown, FileSet.addFile]
    rw [hshown]
    exact List.forall_mem_append.2 ⟨hs, List.forall_mem_cons.2
      ⟨madeOf_of_get? ht hsource, shownIfAny_madeOf ht htarget⟩⟩

end

namespace Repository

/-- Every character that the reader lets in is legal, or some tag brings it in. -/
theorem brings_of_shown {document : String} {r : Repository} (h : ofManifest document = .ok r) :
    ∀ a ∈ r.shown true, a.MadeOf fun c => IsXmlChar c ∨ Brings document c := by
  let C : Char → Prop := fun c => IsXmlChar c ∨ Brings document c
  -- each tag tells values that are made of what the document brings in
  have htells : ∀ t ∈ tags document, t.Tells (fun p => ∀ a ∈ p.shown, a.MadeOf C)
      fun s => ∀ a ∈ s.shown true, a.MadeOf C := fun t ht =>
    Tag.tells_madeOf (fun _ => .inl) fun c hc => .inr ⟨t, ht, hc⟩
  obtain ⟨hproperties, hfileSets⟩ := ofManifest_holds htells h
  intro a ha
  -- properties are shown first, and the file sets behind them
  rcases List.mem_append.1 ha with ha | ha
  · obtain ⟨p, hp, ha⟩ := List.mem_flatMap.1 ha
    exact hproperties p hp a ha
  · obtain ⟨s, hs, ha⟩ := List.mem_flatMap.1 ha
    exact hfileSets s hs a ha

/-! ## Writing it again -/

/-- A repository that was read is written and read as it was, unless the first value of it that is
not legal is refused. A character in it is to blame, then, that some tag of the document brought
in. -/
theorem render_of_ofManifest {document : String} {r : Repository} {o : RenderOptions}
    (h : ofManifest document = .ok r) (hindent : RenderOptions.canIndent o.indentChar = true)
    (hemit : o.emitSourcePackage = true) :
    ((∀ a ∈ r.shown true, a.IsXmlText) → ∃ xml, r.render o = .ok xml ∧ ofManifest xml = .ok r) ∧
    (∀ a, (r.shown true).find? (¬ ·.IsXmlText) = some a →
      r.render o = .error (.illegalCharacter a.name a.value) ∧
        ∃ c ∈ a.value.toList, ¬ IsXmlChar c ∧ Brings document c) := by
  constructor
  · intro hlegal
    rw [← hemit] at hlegal
    obtain ⟨xml, hxml⟩ := (r.render_ok_iff fun _ => hindent).2 hlegal
    refine ⟨xml, hxml, ?_⟩
    -- packages are written, and identifiers are UUIDs already if they spell one
    rw [ofManifest_written hxml, reread_eq_self (raw_id_of_ofManifest h) (.inl hemit)]
  · intro a hfind
    obtain ⟨hfirst, before, after, hshown, hbefore⟩ := List.find?_eq_some_iff_append.1 hfind
    have hillegal : ¬ a.IsXmlText := of_decide_eq_true hfirst
    have hlegal : ∀ b ∈ before, b.IsXmlText := fun b hb => by simpa using hbefore b hb
    -- the value was made of what the tags bring in
    have hmade : a.MadeOf fun c => IsXmlChar c ∨ Brings document c :=
      brings_of_shown h a (List.mem_of_find?_eq_some hfind)
    rw [← hemit] at hshown
    refine ⟨r.render_of_first_illegal (fun _ => hindent) hshown hlegal hillegal, ?_⟩
    -- some character of it is not legal, so it was brought in
    obtain ⟨c, hc, hnot⟩ : ∃ c ∈ a.value.toList, ¬ IsXmlChar c := by
      simpa [Assignment.IsXmlText] using hillegal
    exact ⟨c, hc, hnot, (hmade c hc).resolve_left hnot⟩

/-- References to white space and to markup, and an identifier in lower case. -/
theorem render_of_ofManifest_sample :
    let document := "<FileRepository><Property Name='&#9;' Value='&lt;'/>" ++
      "<FileSet Id=\"0f8fad5bd9cb469fa16570867728950e\" SourcePackage='p'/></FileRepository>"
    let o : RenderOptions := { indentChar := '\x0c', emitSourcePackage := true }
    ∃ r xml, ofManifest document = .ok r ∧ r.fileSets.length = 1 ∧ r.render o = .ok xml ∧
      ofManifest xml = .ok r := by
  intro document o
  let u : Uuid := ⟨[0x0, 0xf, 0x8, 0xf, 0xa, 0xd, 0x5, 0xb, 0xd, 0x9, 0xc, 0xb, 0x4, 0x6, 0x9, 0xf,
    0xa, 0x1, 0x6, 0x5, 0x7, 0x0, 0x8, 0x6, 0x7, 0x7, 0x2, 0x8, 0x9, 0x5, 0x0, 0xe], rfl⟩
  let r : Repository := ⟨[⟨"\t", "<"⟩], [⟨none, .uuid u, some "p", []⟩]⟩
  have hread : ofManifest document = .ok r := by
    rw [ofManifest_eq]
    decide +kernel
  have hlegal : ∀ a ∈ r.shown true, a.IsXmlText := by decide +kernel
  obtain ⟨xml, hxml, hagain⟩ := (render_of_ofManifest (o := o) hread rfl rfl).1 hlegal
  exact ⟨r, xml, hread, rfl, hxml, hagain⟩

/-- The reader takes a reference to a control character, which cannot be written. -/
theorem render_of_ofManifest_control :
    ∃ r, ofManifest "<FileRepository><Property Name=\"&#1;\" Value=\"\"/></FileRepository>" = .ok r ∧
      ∀ o : RenderOptions, RenderOptions.canIndent o.indentChar = true →
        r.render o = .error (.illegalCharacter "Name" "\x01") := by
  let r : Repository := ⟨[⟨"\x01", ""⟩], []⟩
  refine ⟨r, ?_, fun o hindent => ?_⟩
  · rw [ofManifest_eq]
    decide +kernel
  · have hshown : r.shown o.emitSourcePackage = [] ++ ⟨"Name", "\x01"⟩ :: [⟨"Value", ""⟩] := rfl
    refine r.render_of_first_illegal (fun _ => hindent) hshown ?_ (by decide)
    intro b hb
    cases hb

end Repository

end InstallManifest
