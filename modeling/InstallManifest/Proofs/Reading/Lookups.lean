import InstallManifest.Proofs.Markup.Sites
import InstallManifest.Proofs.Reading.Attributes
import InstallManifest.Proofs.Reading.Run
import InstallManifest.Proofs.Reading.Step

/-!
# What a tag is read for

Of a tag the reader looks at the name and at a few attributes, its keys, and it looks at each of
them by itself. So tags of one name in which all keys are looked up alike do the same to every
state, whatever else stands in them; and a tag that is accepted has had all its keys looked up
without a fault.
-/

namespace InstallManifest

open Markup

/-- The attributes that an element of a kind is read from. -/
def ElementKind.keys : ElementKind → List String
  | root => []
  | property => ["Name", "Value"]
  | fileSet => ["Id", "Name", "SourcePackage"]
  | file => ["Source", "Target"]
  | other => []

namespace Markup.Tag

/-- The attributes that the element of a tag is read from. -/
def keys (t : Tag) : List String := (ElementKind.ofName t.name).keys

/-- Tags of one name in which all keys are looked up alike: with the same written values, if any, or
up to the same fault. -/
structure ReadsLike (t t' : Tag) : Prop where
  name_eq : t.name = t'.name
  lookup_eq : ∀ key ∈ t.keys, t.attributes.lookup key.toList = t'.attributes.lookup key.toList

namespace ReadsLike

variable {t t' : Tag}

/-- A key is found with the same value, or not found, or looked up to the same fault. -/
theorem get?_eq (h : t.ReadsLike t') {key : String} (hkey : key ∈ t.keys) :
    t.get? key = t'.get? key := by
  rw [get?, get?, h.lookup_eq key hkey]

theorem get_eq (h : t.ReadsLike t') {key : String} (hkey : key ∈ t.keys) :
    t.get key = t'.get key := by
  -- the name of the element stands in the complaint about a missing attribute
  rw [get, get, h.get?_eq hkey, h.name_eq]

/-- Both tags tell one property, or are refused for one reason. -/
theorem property_eq (h : t.ReadsLike t') (hk : ElementKind.ofName t.name = .property) :
    Property.ofTag t = Property.ofTag t' := by
  have hkeys : t.keys = ["Name", "Value"] := congrArg ElementKind.keys hk
  have hname := h.get_eq (hkeys ▸ by decide : "Name" ∈ t.keys)
  have hvalue := h.get_eq (hkeys ▸ by decide : "Value" ∈ t.keys)
  rw [Property.ofTag, Property.ofTag, hname, hvalue]

/-- Both tags tell one file set, or are refused for one reason. -/
theorem fileSet_eq (h : t.ReadsLike t') (hk : ElementKind.ofName t.name = .fileSet) :
    FileSet.ofTag t = FileSet.ofTag t' := by
  have hkeys : t.keys = ["Id", "Name", "SourcePackage"] := congrArg ElementKind.keys hk
  have hid := h.get_eq (hkeys ▸ by decide : "Id" ∈ t.keys)
  have hname := h.get?_eq (hkeys ▸ by decide : "Name" ∈ t.keys)
  have hpackage := h.get?_eq (hkeys ▸ by decide : "SourcePackage" ∈ t.keys)
  rw [FileSet.ofTag, FileSet.ofTag, hid, hname, hpackage]

/-- Both tags tell one file, or are refused for one reason. -/
theorem file_eq (h : t.ReadsLike t') (hk : ElementKind.ofName t.name = .file) :
    FileEntry.ofTag t = FileEntry.ofTag t' := by
  have hkeys : t.keys = ["Source", "Target"] := congrArg ElementKind.keys hk
  have hsource := h.get_eq (hkeys ▸ by decide : "Source" ∈ t.keys)
  have htarget := h.get?_eq (hkeys ▸ by decide : "Target" ∈ t.keys)
  rw [FileEntry.ofTag, FileEntry.ofTag, hsource, htarget]

end ReadsLike

/-- Whether no fault stands in the way of looking up an attribute. -/
def Answers (t : Tag) (key : String) : Prop := ∃ raw, t.attributes.lookup key.toList = .ok raw

/-- What was looked up has had no fault before it. -/
theorem answers_of_get? {t : Tag} {key : String} {value : Option String}
    (h : t.get? key = .ok value) : t.Answers key := by
  unfold get? at h
  split at h
  · cases h
  · exact ⟨_, ‹_›⟩
  · exact ⟨_, ‹_›⟩

end Markup.Tag

namespace Markup.Token

/-- The token with another tag in it, if it has one that begins an element or is a whole one. -/
def mapTag (f : Tag → Tag) : Token → Token
  | opening t => opening (f t)
  | empty t => empty (f t)
  | closing name => closing name
  | aside => aside

end Markup.Token

namespace Reading

/-! ## Tags that read alike -/

section

variable {t t' : Tag}

/-- Tags that read alike tell the same. -/
theorem note_congr (h : t.ReadsLike t') (s : Reading) : s.note t = s.note t' := by
  unfold note
  rw [← h.name_eq]
  cases hk : ElementKind.ofName t.name with
  | root => rfl
  | property => rw [h.property_eq hk]
  | fileSet => rfl
  | file => simp only [addFile, h.file_eq hk]
  | other => rfl

theorem onEmpty_congr (h : t.ReadsLike t') (s : Reading) : s.onEmpty t = s.onEmpty t' := by
  have hname := h.name_eq
  by_cases hk : ElementKind.ofName t.name = .fileSet
  · rw [onEmpty_fileSet hk, onEmpty_fileSet (hname ▸ hk), h.fileSet_eq hk]
  · rw [onEmpty_eq_note hk, onEmpty_eq_note (hname ▸ hk), note_congr h]

theorem onOpening_congr (h : t.ReadsLike t') (s : Reading) : s.onOpening t = s.onOpening t' := by
  have hname := h.name_eq
  by_cases hk : ElementKind.ofName t.name = .fileSet
  -- a file set may be refused where it stands, and then its attributes do not matter
  · cases hs : s.current with
    | none =>
      rw [onOpening_fileSet hk hs, onOpening_fileSet (hname ▸ hk) hs, h.fileSet_eq hk, hname]
    | some set =>
      have hfilling : s.current.isSome := by rw [hs]; rfl
      rw [onOpening_nested hk hfilling, onOpening_nested (hname ▸ hk) hfilling]
  · rw [onOpening_eq_note hk, onOpening_eq_note (hname ▸ hk), note_congr h, hname]

end

/-- A token does the same with a tag in it that reads alike. -/
theorem step_mapTag {f : Tag → Tag} {token : Token} (h : ∀ t ∈ token.tag?, t.ReadsLike (f t))
    (s : Reading) : s.step (token.mapTag f) = s.step token := by
  cases token with
  | opening t => exact (onOpening_congr (h t rfl) s).symm
  | empty t => exact (onEmpty_congr (h t rfl) s).symm
  | closing name => rfl
  | aside => rfl

/-- Tags can be replaced by others that read alike all over a text. -/
theorem foldlM_step_mapTag {f : Tag → Tag} {ts : List Token}
    (h : ∀ t ∈ ts.filterMap Token.tag?, t.ReadsLike (f t)) (s : Reading) :
    (ts.map (Token.mapTag f)).foldlM step s = ts.foldlM step s := by
  induction ts generalizing s with
  | nil => rfl
  | cons token ts ih =>
    have hfirst : ∀ t ∈ token.tag?, t.ReadsLike (f t) := fun t ht =>
      h t (List.mem_filterMap.2 ⟨token, List.mem_cons_self, ht⟩)
    have hrest : ∀ t ∈ ts.filterMap Token.tag?, t.ReadsLike (f t) := by
      intro t ht
      obtain ⟨token', htoken', htag⟩ := List.mem_filterMap.1 ht
      exact h t (List.mem_filterMap.2 ⟨token', List.mem_cons_of_mem _ htoken', htag⟩)
    rw [List.map_cons, List.foldlM_cons, List.foldlM_cons, step_mapTag hfirst]
    congr
    funext s'
    exact ih hrest s'

/-! ## Tags that are accepted -/

section

variable {s s' : Reading} {t : Tag}

/-- A tag that has told something has had its keys looked up. -/
theorem Notes.answers (h : s.Notes t s') :
    ∀ key ∈ t.keys, t.Answers key := by
  unfold Tag.keys
  cases h with
  | root hk => simp [hk, ElementKind.keys]
  | property hk hp =>
    obtain ⟨hname, hvalue⟩ := Property.get?_of_ofTag hp
    simp [hk, ElementKind.keys, Tag.answers_of_get? hname, Tag.answers_of_get? hvalue]
  | file hk hs hf =>
    obtain ⟨hsource, htarget⟩ := FileEntry.get?_of_ofTag hf
    simp [hk, ElementKind.keys, Tag.answers_of_get? hsource, Tag.answers_of_get? htarget]
  | other hk => simp [hk, ElementKind.keys]

theorem answers_fileSet {set : FileSet} (hk : ElementKind.ofName t.name = .fileSet)
    (hset : FileSet.ofTag t = .ok set) :
    ∀ key ∈ t.keys, t.Answers key := by
  obtain ⟨⟨text, hid, -⟩, hname, hpackage, -⟩ := FileSet.get?_of_ofTag hset
  unfold Tag.keys
  simp [hk, ElementKind.keys, Tag.answers_of_get? hid, Tag.answers_of_get? hname,
    Tag.answers_of_get? hpackage]

/-- In a step that succeeds all keys of the tag are looked up. -/
theorem step_answers {token : Token} (h : s.step token = .ok s') (ht : t ∈ token.tag?) :
    ∀ key ∈ t.keys, t.Answers key := by
  -- by what the step did; a token without a tag has no keys
  cases steps_of_step h with
  | opening hnotes =>
    cases ht
    exact hnotes.answers
  | empty hnotes =>
    cases ht
    exact hnotes.answers
  | openingFileSet hk hs hset =>
    cases ht
    exact answers_fileSet hk hset
  | emptyFileSet hk hset =>
    cases ht
    exact answers_fileSet hk hset
  | closing hk hopen => cases ht
  | closingFileSet hk hopen => cases ht
  | aside => cases ht

theorem foldlM_step_answers {ts : List Token} (h : ts.foldlM step s = .ok s')
    (ht : t ∈ ts.filterMap Token.tag?) :
    ∀ key ∈ t.keys, t.Answers key := by
  obtain ⟨token, htoken, htag⟩ := List.mem_filterMap.1 ht
  obtain ⟨s₁, s₂, hstep⟩ := exists_step_of_foldlM h htoken
  exact step_answers hstep htag

end

end Reading

/-- In a manifest that is accepted all keys of all tags were looked up without a fault. -/
theorem Repository.answers_of_ofManifest {document : String} {r : Repository} {t : Tag}
    (h : ofManifest document = .ok r) (ht : t ∈ tags document) :
    ∀ key ∈ t.keys, t.Answers key := by
  obtain ⟨s, hfold, -⟩ := ofManifest_eq_ok_iff.1 h
  exact Reading.foldlM_step_answers hfold ht

end InstallManifest
