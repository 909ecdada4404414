import InstallManifest.Proofs.Markup.Sites
import InstallManifest.Proofs.Outcome
import InstallManifest.Proofs.Reading.Attributes
import InstallManifest.Proofs.Reading.Run
import InstallManifest.Proofs.Reading.Step
import InstallManifest.Proofs.Uuid.Text

/-!
# What holds of all that is read

Everything in a repository that was read was told by some tag of its manifest. So a condition on
properties and on file sets is met by all of them if each tag tells only such as meet it, where a
file must not break what the file set meets that it is added to.
-/

namespace InstallManifest

open Markup

namespace Markup

/-- Whether a tag tells only properties and file sets that meet a condition. -/
structure Tag.Tells (P : Property → Prop) (Q : FileSet → Prop) (t : Tag) : Prop where
  property : ∀ p, Property.ofTag t = .ok p → P p
  fileSet : ∀ set, FileSet.ofTag t = .ok set → Q set
  file : ∀ set f, Q set → FileEntry.ofTag t = .ok f → Q (set.addFile f)

end Markup

namespace Reading

/-- Whether all that was collected so far meets a condition. -/
structure Holds (P : Property → Prop) (Q : FileSet → Prop) (s : Reading) : Prop where
  properties : ∀ p ∈ s.repository.properties, P p
  fileSets : ∀ set ∈ s.repository.fileSets, Q set
  current : ∀ set ∈ s.current, Q set

variable {P : Property → Prop} {Q : FileSet → Prop} {s s' : Reading}

namespace Holds

theorem initial : Holds P Q {} where
  properties p hp := by cases hp
  fileSets set hset := by cases hset
  current set hset := by cases hset

/-- The open elements and the roots do not count. -/
theorem congr (h : s.Holds P Q) (hr : s'.repository = s.repository)
    (hc : s'.current = s.current) : s'.Holds P Q where
  properties := hr ▸ h.properties
  fileSets := hr ▸ h.fileSets
  current := hc ▸ h.current

theorem addProperty (h : s.Holds P Q) {p : Property} (hp : P p) : (s.addProperty p).Holds P Q where
  properties := List.forall_mem_append.2 ⟨h.properties, List.forall_mem_singleton.2 hp⟩
  fileSets := h.fileSets
  current := h.current

theorem addFileSet (h : s.Holds P Q) {set : FileSet} (hset : Q set) :
    (s.addFileSet set).Holds P Q where
  properties := h.properties
  fileSets := List.forall_mem_append.2 ⟨h.fileSets, List.forall_mem_singleton.2 hset⟩
  current := h.current

theorem withCurrent (h : s.Holds P Q) {set : FileSet} (hset : Q set) :
    Holds P Q { s with current := some set } where
  properties := h.properties
  fileSets := h.fileSets
  current _ hmem := Option.mem_some.1 hmem ▸ hset

theorem complete (h : s.Holds P Q) : s.complete.Holds P Q := by
  unfold Reading.complete
  -- nothing is added if nothing was being filled
  split
  · rename_i set hset
    have hadded := h.addFileSet (h.current set hset)
    exact ⟨hadded.properties, hadded.fileSets, fun _ hmem => by cases hmem⟩
  · exact h

end Holds

/-! ## One step -/

/-- A tag that tells only what meets the conditions keeps them. -/
theorem Notes.holds {t : Tag} (h : s.Notes t s') (ht : t.Tells P Q) (hs : s.Holds P Q) :
    s'.Holds P Q := by
  cases h with
  | root hk => exact hs.congr rfl rfl
  | @property p hk hp => exact hs.addProperty (ht.property p hp)
  | @file set f hk hset hf => exact hs.withCurrent (ht.file set f (hs.current set hset) hf)
  | other hk => exact hs

/-- A token whose tag tells only what meets the conditions keeps them. -/
theorem step_holds {token : Token} (ht : ∀ t ∈ token.tag?, t.Tells P Q) (hs : s.Holds P Q)
    (h : s.step token = .ok s') : s'.Holds P Q := by
  cases steps_of_step h with
  | @opening t s₁ hnotes => exact (hnotes.holds (ht t rfl) hs).congr rfl rfl
  | @empty t s₁ hnotes => exact hnotes.holds (ht t rfl) hs
  | @openingFileSet t set hk hnone hset =>
    have henter : (s.enter t.name).Holds P Q := hs.congr rfl rfl
    exact henter.withCurrent ((ht t rfl).fileSet set hset)
  | @emptyFileSet t set hk hset => exact hs.addFileSet ((ht t rfl).fileSet set hset)
  | closing hk hopen => exact hs.congr rfl rfl
  | @closingFileSet name outer hk hopen =>
    have houter : Holds P Q { s with openNames := outer } := hs.congr rfl rfl
    exact houter.complete
  | aside => exact hs

end Reading

/-! ## A whole manifest -/

namespace Repository

/-- What all tags of a manifest tell, the repository holds. -/
theorem ofManifest_holds {P : Property → Prop} {Q : FileSet → Prop} {document : String}
    {r : Repository} (ht : ∀ t ∈ tags document, t.Tells P Q) (h : ofManifest document = .ok r) :
    (∀ p ∈ r.properties, P p) ∧ ∀ set ∈ r.fileSets, Q set := by
  obtain ⟨s, hfold, -, -, rfl⟩ := ofManifest_eq_ok_iff.1 h
  -- by induction on the tokens, with the step lemma for each
  have hs : s.Holds P Q := by
    refine foldlM_invariant (fun token htoken s s' hs hstep => ?_) Reading.Holds.initial hfold
    exact Reading.step_holds (fun t hmem => ht t (mem_tags htoken t hmem)) hs hstep
  exact ⟨hs.properties, hs.fileSets⟩

end Repository

/-! ## Identifiers -/

/-- An identifier that was read is a UUID if it spells one. -/
theorem Repository.raw_id_of_ofManifest {document : String} {r : Repository}
    (h : ofManifest document = .ok r) :
    ∀ set ∈ r.fileSets, ∀ text, set.id = .raw text → Uuid.ofString? text = none := by
  -- a tag that tells a file set told its identifier as a text
  have htells (t : Tag) :
      t.Tells (fun _ => True) fun set => ∀ text, set.id = .raw text →
        Uuid.ofString? text = none := by
    refine ⟨fun _ _ => trivial, fun set hset text hraw => ?_, fun _ _ hset _ => hset⟩
    obtain ⟨⟨written, -, hid⟩, -⟩ := FileSet.get?_of_ofTag hset
    exact FileSetId.ofString?_of_ofText_eq_raw (hid.symm.trans hraw)
  exact (ofManifest_holds (fun t _ => htells t) h).2

end InstallManifest
