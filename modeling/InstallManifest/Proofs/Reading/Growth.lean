import InstallManifest.Proofs.Outcome
import InstallManifest.Proofs.Reading.Run
import InstallManifest.Proofs.Reading.Step

/-!
# What a reading collects

Along a reading nothing that was collected is ever changed or lost: properties and file sets are
only added at the end, a property for each of its tags and a file set for each tag that ends one.
The state stays coherent: a file set is being filled exactly while its element is open, and there
is never more than one.
-/

namespace InstallManifest

open Markup

namespace Markup.Token

/-- Whether a token tells a property. -/
def isProperty : Token → Bool
  | opening t => ElementKind.ofName t.name = .property
  | empty t => ElementKind.ofName t.name = .property
  | _ => false

/-- Whether a token ends a file set. -/
def endsFileSet : Token → Bool
  | empty t => ElementKind.ofName t.name = .fileSet
  | closing name => ElementKind.ofName name = .fileSet
  | _ => false

end Markup.Token

namespace Reading

/-- A file set is being filled exactly if one element of its name is open. -/
def Coherent (s : Reading) : Prop :=
  s.openNames.count "FileSet".toList = if s.current.isSome then 1 else 0

theorem Coherent.initial : Coherent {} := rfl

/-- Whether a file set is open can be told from what is being filled. -/
theorem Coherent.mem_openNames_iff {s : Reading} (h : s.Coherent) :
    "FileSet".toList ∈ s.openNames ↔ s.current.isSome := by
  rw [← List.count_pos_iff, h]
  split_ifs with hs <;> simp [hs]

/-- A reading that goes from `s` to `s'` adds so many properties and file sets. -/
structure Grows (s s' : Reading) (properties fileSets : Nat) : Prop where
  properties_prefix : s.repository.properties <+: s'.repository.properties
  length_properties :
    s'.repository.properties.length = s.repository.properties.length + properties
  fileSets_prefix : s.repository.fileSets <+: s'.repository.fileSets
  length_fileSets : s'.repository.fileSets.length = s.repository.fileSets.length + fileSets
  sawRoot : s.sawRoot = true → s'.sawRoot = true

namespace Grows

variable {s s' s'' : Reading} {p p' f f' : Nat}

theorem refl (s : Reading) : Grows s s 0 0 :=
  ⟨List.prefix_rfl, rfl, List.prefix_rfl, rfl, id⟩

theorem trans (h : Grows s s' p f) (h' : Grows s' s'' p' f') :
    Grows s s'' (p + p') (f + f') where
  properties_prefix := h.properties_prefix.trans h'.properties_prefix
  length_properties := by rw [h'.length_properties, h.length_properties, Nat.add_assoc]
  fileSets_prefix := h.fileSets_prefix.trans h'.fileSets_prefix
  length_fileSets := by rw [h'.length_fileSets, h.length_fileSets, Nat.add_assoc]
  sawRoot := h'.sawRoot ∘ h.sawRoot

theorem addProperty (s : Reading) (q : Property) : Grows s (s.addProperty q) 1 0 :=
  ⟨List.prefix_append .., by simp [Reading.addProperty], List.prefix_rfl, rfl, id⟩

theorem addFileSet (s : Reading) (set : FileSet) : Grows s (s.addFileSet set) 0 1 :=
  ⟨List.prefix_rfl, rfl, List.prefix_append .., by simp [Reading.addFileSet], id⟩

/-- The open names and the file set being filled do not count. -/
theorem congr (h : Grows s s' p f) (hr : s''.repository = s'.repository)
    (hs : s''.sawRoot = s'.sawRoot) : Grows s s'' p f where
  properties_prefix := hr ▸ h.properties_prefix
  length_properties := hr ▸ h.length_properties
  fileSets_prefix := hr ▸ h.fileSets_prefix
  length_fileSets := hr ▸ h.length_fileSets
  sawRoot := hs ▸ h.sawRoot

end Grows

/-! ## One step -/

/-- A tag that is no file set leaves the elements alone. -/
theorem Notes.grows {s s' : Reading} {t : Tag} (h : s.Notes t s') :
    s'.openNames = s.openNames ∧ s'.current.isSome = s.current.isSome ∧
      Grows s s' (decide (ElementKind.ofName t.name = .property)).toNat 0 := by
  cases h with
  | root hk =>
    rw [hk]
    exact ⟨rfl, rfl, List.prefix_rfl, rfl, List.prefix_rfl, rfl, fun _ => rfl⟩
  | @property p hk hp =>
    rw [hk]
    exact ⟨rfl, rfl, .addProperty s p⟩
  | file hk hs hf =>
    rw [hk]
    exact ⟨rfl, by rw [hs]; rfl, (Grows.refl s).congr rfl rfl⟩
  | other hk =>
    rw [hk]
    exact ⟨rfl, rfl, .refl s⟩

/-- A token that is taken leaves the state coherent, and adds what it tells and no more. -/
theorem step_ok {s s' : Reading} {t : Token} (hs : s.Coherent) (h : s.step t = .ok s') :
    s'.Coherent ∧ Grows s s' t.isProperty.toNat t.endsFileSet.toNat := by
  have hother {name : List Char} (hk : ElementKind.ofName name ≠ .fileSet) :
      name ≠ "FileSet".toList := fun hname => hk (ElementKind.ofName_eq_fileSet_iff.2 hname)
  cases steps_of_step h with
  | @opening t s₁ hnotes =>
    obtain ⟨hopen, hcur, hgrows⟩ := hnotes.grows
    refine ⟨?_, hgrows.congr rfl rfl⟩
    -- the element that is entered has another name
    rw [Coherent, enter, List.count_cons_of_ne (hother hnotes.ne_fileSet), hopen, hs]
    simp only [hcur]
  | @empty t s₁ hnotes =>
    obtain ⟨hopen, hcur, hgrows⟩ := hnotes.grows
    refine ⟨by rw [Coherent, hopen, hs, hcur], ?_⟩
    simpa [Token.isProperty, Token.endsFileSet, hnotes.ne_fileSet] using hgrows
  | @openingFileSet t set hk hcur hset =>
    -- none is open yet, and now there is one
    have hname := ElementKind.ofName_eq_fileSet_iff.1 hk
    rw [Coherent, hcur] at hs
    simp only [Token.isProperty, Token.endsFileSet, hk]
    refine ⟨?_, (Grows.refl s).congr rfl rfl⟩
    simp_all [Coherent, enter]
  | @emptyFileSet t set hk hset =>
    simp only [Token.isProperty, Token.endsFileSet, hk]
    exact ⟨hs, .addFileSet s set⟩
  | @closing name outer hk hopen =>
    rw [Coherent, hopen, List.count_cons_of_ne (hother hk)] at hs
    simp only [Token.isProperty, Token.endsFileSet, hk]
    exact ⟨hs, (Grows.refl s).congr rfl rfl⟩
  | @closingFileSet name outer hk hopen =>
    -- the file set being filled is the one that ends here
    rw [Coherent, hopen, ElementKind.ofName_eq_fileSet_iff.1 hk, List.count_cons_self] at hs
    -- none being filled would mean that none was open
    cases hcur : s.current with
    | none => rw [hcur] at hs; simp at hs
    | some set =>
      simp only [hcur, Option.isSome_some, if_true] at hs
      simp only [Token.isProperty, Token.endsFileSet, hk]
      refine ⟨?_, (Grows.addFileSet s set).congr rfl rfl⟩
      simpa [Coherent, complete, addFileSet] using hs
  | aside => exact ⟨hs, .refl s⟩

/-! ## A whole text -/

theorem foldlM_step_ok {s s' : Reading} {ts : List Token} (hs : s.Coherent)
    (h : ts.foldlM step s = .ok s') :
    s'.Coherent ∧ Grows s s' (ts.countP Token.isProperty) (ts.countP Token.endsFileSet) := by
  induction ts generalizing s with
  | nil => cases h; exact ⟨hs, .refl _⟩
  | cons t ts ih =>
    rw [List.foldlM_cons, bind_eq_ok_iff] at h
    obtain ⟨s1, hstep, hrest⟩ := h
    obtain ⟨hs1, hgrows⟩ := step_ok hs hstep
    obtain ⟨hs', hgrows'⟩ := ih hs1 hrest
    refine ⟨hs', ?_⟩
    have hsum := hgrows.trans hgrows'
    rw [List.countP_cons, List.countP_cons]
    -- the sums of the two steps are told by conditions instead of numbers
    have hcount (b : Bool) : b.toNat = if b = true then 1 else 0 := by
      cases b <;> rfl
    rwa [Nat.add_comm _ (ite ..), Nat.add_comm _ (ite ..), ← hcount, ← hcount]

/-- A text that is read leaves the state coherent, and adds what its tokens tell. -/
theorem run_ok {s s' : Reading} {cs : List Char} (hs : s.Coherent) (h : s.run cs = .ok s') :
    s'.Coherent ∧ Grows s s' ((Token.scan cs).1.countP Token.isProperty)
      ((Token.scan cs).1.countP Token.endsFileSet) := by
  obtain ⟨s1, hfold, hend⟩ := bind_eq_ok_iff.1 h
  -- a text with a fault at its end is not read
  split at hend
  · cases hend
  · cases hend
    exact foldlM_step_ok hs hfold

end Reading

end InstallManifest
