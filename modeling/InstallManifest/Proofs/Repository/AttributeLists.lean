import InstallManifest.Proofs.Markup.WrittenTag
import InstallManifest.Proofs.Reading.Lookups
import InstallManifest.Proofs.Repository.WholeElement

/-!
# Attribute lists in a manifest

Well-formed attribute lists count as maps from names to values: the order of the attributes, their
quotes, the white space around them and any attributes that nothing is read from make no difference
to what is read, nor to the fault that is told.

Lists that are not well formed are found out only as far as they are looked at. A look-up goes from
left to right and stops at its attribute, so a fault is told exactly if some key of the element does
not stand before it. A fault behind the last key is not reported at all.
-/

namespace InstallManifest

open Markup

namespace Markup

/-- The tag as the beginning of an element. -/
def TagSource.begun (t : TagSource) : List Char := '<' :: (t.content ++ ['>'])

/-- The written value of an attribute, if the tag has it. -/
def WrittenTag.raw? (t : WrittenTag) (name : String) : Option (List Char) :=
  (t.attributes.find? (·.name = name.toList)).map (·.raw)

/-- Of well-formed lists the written values of the keys are all that counts. -/
theorem WrittenTag.readsLike {t t' : WrittenTag} (hname : t.name = t'.name)
    (hraw : ∀ key ∈ t.source.tag.keys, t.raw? key = t'.raw? key) :
    t.source.tag.ReadsLike t'.source.tag where
  name_eq := hname
  lookup_eq key hkey := by
    rw [t.lookup_eq, t'.lookup_eq]
    exact congrArg Except.ok (hraw key hkey)

end Markup

theorem Reading.run_begun (s : Reading) (t : TagSource) (rest : List Char) :
    s.run (t.begun ++ rest) = s.onOpening t.tag >>= fun s' => s'.run rest := by
  have htext : t.begun ++ rest = '<' :: (t.content ++ '>' :: rest) := by
    simp [TagSource.begun]
  rw [htext, run_opening]

namespace Repository

/-- The attribute list of a tag can be exchanged for any other well-formed list that gives the keys
of the element the same written values, or leaves the same ones out. What is read of the document
stays the same, and so does the fault for which it is refused. -/
theorem ofManifest_of_same_raw {before : List Char} {t t' : WrittenTag}
    (hbefore : IsComplete before) (hname : t.name = t'.name)
    (hraw : ∀ key ∈ t.source.tag.keys, t.raw? key = t'.raw? key) (after : List Char) :
    ofManifest (.ofList (before ++ (t.source.whole ++ after)))
        = ofManifest (.ofList (before ++ (t'.source.whole ++ after))) ∧
      ofManifest (.ofList (before ++ (t.source.begun ++ after)))
        = ofManifest (.ofList (before ++ (t'.source.begun ++ after))) := by
  have hreads := WrittenTag.readsLike hname hraw
  -- from every state that the text before the tag may leave
  have hwhole (s : Reading) :
      s.run (t.source.whole ++ after) = s.run (t'.source.whole ++ after) := by
    rw [Reading.run_whole, Reading.run_whole, Reading.onEmpty_congr hreads]
  have hbegun (s : Reading) :
      s.run (t.source.begun ++ after) = s.run (t'.source.begun ++ after) := by
    rw [Reading.run_begun, Reading.run_begun, Reading.onOpening_congr hreads]
  -- the text before the tag is read alike, and so is what comes behind it
  constructor
  · rw [ofManifest_append hbefore, ofManifest_append hbefore]
    simp only [hwhole]
  · rw [ofManifest_append hbefore, ofManifest_append hbefore]
    simp only [hbegun]

/-- A file, and the same file in other quotes, the other way round and behind an attribute that
could not be told, were anything read from it. -/
theorem ofManifest_of_same_raw_file : ∃ t t' : WrittenTag,
    t.source.whole = "<File Source=\"x&amp;\" Target=\"y\"/>".toList ∧
    t'.source.whole = "<File mode='/>&none;' Target = 'y'\nSource='x&amp;'\n/>".toList ∧
    ofManifest (.ofList ("<FileRepository><FileSet Id=\"a\">".toList ++
        (t'.source.whole ++ "</FileSet></FileRepository>".toList)))
      = .ok ⟨[], [⟨none, .raw "a", none, [⟨"x&", some "y"⟩]⟩]⟩ := by
  let source : WrittenAttribute := ⟨[' '], "Source".toList, [], [], '"', "x&amp;".toList, rfl,
    by decide, rfl, rfl, .inl rfl, by decide⟩
  let target : WrittenAttribute := ⟨[' '], "Target".toList, [], [], '"', "y".toList, rfl,
    by decide, rfl, rfl, .inl rfl, by decide⟩
  let mode : WrittenAttribute := ⟨[' '], "mode".toList, [], [], '\'', "/>&none;".toList, rfl,
    by decide, rfl, rfl, .inr rfl, by decide⟩
  let target' : WrittenAttribute := ⟨[' '], "Target".toList, [' '], [' '], '\'', "y".toList, rfl,
    by decide, rfl, rfl, .inr rfl, by decide⟩
  let source' : WrittenAttribute := ⟨['\n'], "Source".toList, [], [], '\'', "x&amp;".toList, rfl,
    by decide, rfl, rfl, .inr rfl, by decide⟩
  let t : WrittenTag :=
    ⟨"File".toList, [source, target], [], by decide, by decide, by decide, rfl⟩
  let t' : WrittenTag :=
    ⟨"File".toList, [mode, target', source'], ['\n'], by decide, by decide, by decide, rfl⟩
  have hbefore : IsComplete "<FileRepository><FileSet Id=\"a\">".toList := by decide +kernel
  have hname : t.name = t'.name := rfl
  have hraw : ∀ key ∈ t.source.tag.keys, t.raw? key = t'.raw? key := by decide
  refine ⟨t, t', by decide +kernel, by decide +kernel, ?_⟩
  rw [← (ofManifest_of_same_raw hbefore hname hraw "</FileSet></FileRepository>".toList).1,
    ofManifest_eq, String.toList_ofList]
  decide +kernel

end Repository

/-! ## Lists that are not well formed -/

namespace Markup

/-- The beginning of an attribute list serves a tag if it is well formed and has all keys. -/
def Tag.IsServedBy (t : Tag) (text : List Char) : Prop :=
  ∃ as, IsAttributeList as text ∧ ∀ key ∈ t.keys, key.toList ∈ as.map Prod.fst

/-- Whether a beginning serves a tag can be found out by reading it. -/
theorem Tag.isServedBy_iff {t : Tag} {text : List Char} :
    t.IsServedBy text ↔ (readAttributes [] 0 text).fault = none ∧ ∀ key ∈ t.keys,
      key.toList ∈ ((readAttributes [] 0 text).attributes.map Attribute.entry).map Prod.fst := by
  constructor
  · rintro ⟨as, hlist, hkeys⟩
    obtain ⟨hfault, rfl⟩ := (isAttributeList_iff 0).1 hlist
    exact ⟨hfault, hkeys⟩
  · rintro ⟨hfault, hkeys⟩
    exact ⟨_, (isAttributeList_iff 0).2 ⟨hfault, rfl⟩, hkeys⟩

/-- Whether documents have the same tags and text, but for a tag that is exchanged for another one
wherever it stands. -/
def IsExchanged (t t' : Tag) (document document' : String) : Prop :=
  tokens document'
    = ((tokens document).1.map (Token.mapTag fun u => if u = t then t' else u),
        (tokens document).2)

instance (t t' : Tag) (document document' : String) :
    Decidable (IsExchanged t t' document document') := inferInstanceAs (Decidable (_ = _))

/-- Some beginning serves a tag if all keys are read before the first fault: what is read up to
there is the longest beginning that is well formed. -/
theorem Tag.exists_isServedBy_iff {t : Tag} :
    (∃ text, text <+: t.attributeText ∧ t.IsServedBy text) ↔
      ∀ key ∈ t.keys, key.toList ∈ (t.attributes.attributes.map Attribute.entry).map Prod.fst := by
  constructor
  · rintro ⟨text, hbegin, as, hlist, hkeys⟩ key hkey
    have hread := hlist.prefix_entries hbegin (Utf8.size t.name)
    exact (hread.map Prod.fst).subset (hkeys key hkey)
  · -- conversely, what was read before the fault is such a beginning itself
    intro hkeys
    obtain ⟨text, rest, htext, hlist, -⟩ :=
      exists_of_readAttributes [] (Utf8.size t.name) t.attributeText
    exact ⟨text, htext ▸ List.prefix_append text rest, _, hlist, hkeys⟩

/-- Tags that begin alike up to the last key read alike, whatever comes behind it. -/
theorem Tag.IsServedBy.readsLike {t t' : Tag} {text : List Char} (h : t.IsServedBy text)
    (hname : t.name = t'.name) (hbegin : text <+: t.attributeText)
    (hbegin' : text <+: t'.attributeText) : t.ReadsLike t' where
  name_eq := hname
  lookup_eq key hkey := by
    obtain ⟨as, hlist, hkeys⟩ := h
    -- the attributes of the common beginning are read in both tags, and the key is one of them
    have hread := hlist.prefix_entries hbegin (Utf8.size t.name)
    have hread' := hlist.prefix_entries hbegin' (Utf8.size t'.name)
    exact (AttributeList.lookup_of_prefix hread (hkeys key hkey)).trans
      (AttributeList.lookup_of_prefix hread' (hkeys key hkey)).symm

end Markup

namespace Repository

/-- A document is read like one in which a tag is exchanged for another one that reads alike. -/
theorem ofManifest_exchanged {t t' : Tag} {document document' : String} (h : t.ReadsLike t')
    (hdocument : IsExchanged t t' document document') :
    ofManifest document' = ofManifest document := by
  have hreads : ∀ u ∈ tags document, u.ReadsLike (if u = t then t' else u) := by
    intro u _
    -- only the tag itself is exchanged, and every other one reads like itself
    split
    · rename_i hu
      exact hu ▸ h
    · exact ⟨rfl, fun _ _ => rfl⟩
  unfold ofManifest
  rw [hdocument]
  simp only [Reading.foldlM_step_mapTag hreads]

/-- A tag of a document whose attribute list is not well formed makes the document be refused,
unless a well-formed list at its beginning has all attributes that the element is read from. Then
the fault is not found out: the document is read as if the list ended there, or went on in any other
way. -/
theorem ofManifest_malformed {document : String} {t : Tag} (ht : t ∈ tags document)
    (hbad : ¬ IsWellFormedList t.attributeText) :
    ((¬ ∃ text, text <+: t.attributeText ∧ t.IsServedBy text) →
      ∃ cause, ofManifest document = .error cause) ∧
    ∀ text, text <+: t.attributeText → t.IsServedBy text →
      ∀ t' : Tag, t.name = t'.name → text <+: t'.attributeText →
        ∀ document', IsExchanged t t' document document' →
          ofManifest document' = ofManifest document := by
  constructor
  · intro hnone
    cases hread : ofManifest document with
    | error cause => exact ⟨cause, rfl⟩
    | ok r =>
      -- every key was looked up, so it was passed by before the fault
      have hfault : t.attributes.fault ≠ none := fun h =>
        hbad ((isWellFormedList_iff (Utf8.size t.name)).2 h)
      refine absurd (Tag.exists_isServedBy_iff.2 fun key hkey => ?_) hnone
      obtain ⟨raw, hraw⟩ := answers_of_ofManifest hread ht key hkey
      exact AttributeList.mem_of_lookup hfault hraw
  -- the tag that stands in its place begins alike, so that all keys are found in both
  · intro text hbegin hserved t' hname hbegin' document' hdocument
    exact ofManifest_exchanged (hserved.readsLike hname hbegin hbegin') hdocument

/-- A name that is given twice is found out before the second key, and not behind it. -/
theorem ofManifest_malformed_property :
    (∃ cause, ofManifest
        "<FileRepository><Property Name=\"a\" Name=\"b\" Value=\"c\"/></FileRepository>"
      = .error cause) ∧
    ofManifest
        "<FileRepository><Property Name=\"a\" Value=\"b\" Value=\"c\"/></FileRepository>"
      = ofManifest "<FileRepository><Property Name=\"a\" Value=\"b\" =/></FileRepository>" := by
  constructor
  · let t : Tag := ⟨"Property".toList, " Name=\"a\" Name=\"b\" Value=\"c\"".toList⟩
    have ht : t ∈ tags
        "<FileRepository><Property Name=\"a\" Name=\"b\" Value=\"c\"/></FileRepository>" := by
      decide +kernel
    have hkeys : ¬ ∀ key ∈ t.keys,
        key.toList ∈ (t.attributes.attributes.map Attribute.entry).map Prod.fst := by
      decide +kernel
    exact (ofManifest_malformed ht (by decide +kernel)).1 fun h =>
      hkeys (Tag.exists_isServedBy_iff.1 h)
  · let t : Tag := ⟨"Property".toList, " Name=\"a\" Value=\"b\" =".toList⟩
    have ht : t ∈ tags "<FileRepository><Property Name=\"a\" Value=\"b\" =/></FileRepository>" := by
      decide +kernel
    have hserved : t.IsServedBy " Name=\"a\" Value=\"b\"".toList :=
      Tag.isServedBy_iff.2 (by decide +kernel)
    exact (ofManifest_malformed ht (by decide +kernel)).2 _ (by decide +kernel) hserved
      ⟨"Property".toList, " Name=\"a\" Value=\"b\" Value=\"c\"".toList⟩ rfl (by decide +kernel) _
      (by decide +kernel)

/-- An attribute list with a fault in a document that is accepted. -/
theorem ofManifest_malformed_accepted :
    ∃ (document : String) (t : Tag), t ∈ tags document ∧ ElementKind.ofName t.name = .property ∧
      ¬ IsWellFormedList t.attributeText ∧ ofManifest document = .ok ⟨[⟨"a", "b"⟩], []⟩ := by
  refine ⟨"<FileRepository><Property Name=\"a\" Value=\"b\" Value=\"c\"/></FileRepository>",
    ⟨"Property".toList, " Name=\"a\" Value=\"b\" Value=\"c\"".toList⟩, ?_, by decide, ?_, ?_⟩
  · decide +kernel
  · decide +kernel
  · decide +kernel

end Repository

end InstallManifest
