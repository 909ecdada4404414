import InstallManifest.Proofs.Outcome
import InstallManifest.Repository.Reading
import Mathlib.Tactic.SplitIfs

/-!
# What a token does

Everything that a step of the reading can do. A tag of a kind other than a file set tells the same
whether it begins an element or is a whole one (`Reading.note`); apart from that, beginning an
element and ending it again only opens and closes a name. File sets are the exception, as one that
is begun waits for its end.
-/

namespace InstallManifest

open Markup

namespace ElementKind

/-- The name that all elements of a kind have. -/
def name? : ElementKind → Option String
  | root => some "FileRepository"
  | property => some "Property"
  | fileSet => some "FileSet"
  | file => some "File"
  | other => none

/-- A kind that has a name is the kind of that name only. -/
theorem ofName_eq_iff {kind : ElementKind} {s : String} (h : kind.name? = some s)
    {name : List Char} : ofName name = kind ↔ name = s.toList := by
  constructor
  · rintro rfl
    unfold ofName at h
    -- each branch of the look-up has its own name, and the last one none
    split_ifs at h with hname hname hname hname
    all_goals
      cases h
      try exact hname
  · rintro rfl
    cases kind <;> cases h <;> decide

theorem ofName_eq_fileSet_iff {name : List Char} :
    ofName name = fileSet ↔ name = "FileSet".toList :=
  ofName_eq_iff rfl

end ElementKind

namespace Reading

/-- The state inside an element of a name. -/
def enter (s : Reading) (name : List Char) : Reading := { s with openNames := name :: s.openNames }

/-- The state with more properties. -/
def addProperties (s : Reading) (ps : List Property) : Reading :=
  { s with repository := { s.repository with properties := s.repository.properties ++ ps } }

/-- The state with more file sets. -/
def addFileSets (s : Reading) (sets : List FileSet) : Reading :=
  { s with repository := { s.repository with fileSets := s.repository.fileSets ++ sets } }

@[simp] theorem addProperties_nil (s : Reading) : s.addProperties [] = s := by
  simp [addProperties]

@[simp] theorem addFileSets_nil (s : Reading) : s.addFileSets [] = s := by
  simp [addFileSets]

theorem addProperties_cons (s : Reading) (p : Property) (ps : List Property) :
    s.addProperties (p :: ps) = (s.addProperty p).addProperties ps := by
  simp [addProperties, addProperty]

theorem addFileSets_cons (s : Reading) (set : FileSet) (sets : List FileSet) :
    s.addFileSets (set :: sets) = (s.addFileSet set).addFileSets sets := by
  simp [addFileSets, addFileSet]

/-- What a tag tells, whether or not its element has content, if it is no file set. -/
def note (s : Reading) (t : Tag) : Except ReadFault Reading :=
  match ElementKind.ofName t.name with
  | .root => .ok { s with sawRoot := true }
  | .property => return s.addProperty (← Property.ofTag t)
  | .file => s.addFile t
  | .fileSet => .ok s
  | .other => .ok s

/-- A whole element that is no file set does what its tag tells, and nothing else. -/
theorem onEmpty_eq_note {s : Reading} {t : Tag} (h : ElementKind.ofName t.name ≠ .fileSet) :
    s.onEmpty t = s.note t := by
  unfold onEmpty note
  cases hk : ElementKind.ofName t.name with
  | fileSet => exact absurd hk h
  | root => rfl
  | property => rfl
  | file => rfl
  | other => rfl

/-- Which names are open is no matter to a file; only the file set that is being filled is. -/
theorem addFile_enter (s : Reading) (t : Tag) (name : List Char) :
    (s.enter name).addFile t = (s.addFile t).map (·.enter name) := by
  unfold addFile
  cases hs : s.current with
  | none => simp [enter, hs, Except.map]
  | some set => cases FileEntry.ofTag t <;> simp [enter, hs, Except.map, bind, Except.bind, pure,
      Except.pure]

/-- An element that is no file set tells all it has to tell when it begins. Its name is open
afterwards. -/
theorem onOpening_eq_note {s : Reading} {t : Tag} (h : ElementKind.ofName t.name ≠ .fileSet) :
    s.onOpening t = (s.note t).map (·.enter t.name) := by
  unfold onOpening note
  cases hk : ElementKind.ofName t.name with
  | fileSet => exact absurd hk h
  | root => rfl
  | property => cases Property.ofTag t <;> rfl
  | file => exact addFile_enter s t t.name
  | other => rfl

/-- A whole file set is put in at once, whether or not another one is being filled. -/
theorem onEmpty_fileSet {s : Reading} {t : Tag} (h : ElementKind.ofName t.name = .fileSet) :
    s.onEmpty t = (FileSet.ofTag t).map s.addFileSet := by
  unfold onEmpty
  rw [h]
  cases FileSet.ofTag t <;> rfl

/-- A file set that begins outside of others is filled until it ends. -/
theorem onOpening_fileSet {s : Reading} {t : Tag} (h : ElementKind.ofName t.name = .fileSet)
    (hs : s.current = none) :
    s.onOpening t
      = (FileSet.ofTag t).map fun set => { s.enter t.name with current := some set } := by
  unfold onOpening
  rw [h]
  simp only [hs, Option.isSome_none, Bool.false_eq_true, if_false]
  cases FileSet.ofTag t <;> rfl

/-- A file set does not begin while another one is being filled. -/
theorem onOpening_nested {s : Reading} {t : Tag} (h : ElementKind.ofName t.name = .fileSet)
    (hs : s.current.isSome) : s.onOpening t = .error .nestedFileSet := by
  unfold onOpening
  rw [h]
  simp [hs]

/-- The end of an element that is no file set only closes its name. -/
theorem onClosing_enter {s : Reading} {name : List Char}
    (h : ElementKind.ofName name ≠ .fileSet) : (s.enter name).onClosing name = .ok s := by
  simp [onClosing, enter, h]

/-- The end of a file set puts in the one that is being filled. -/
theorem onClosing_enter_fileSet {s : Reading} {name : List Char}
    (h : ElementKind.ofName name = .fileSet) :
    (s.enter name).onClosing name = .ok s.complete := by
  simp [onClosing, enter, h]

/-- To begin an element and end it at once is the same as a whole element, but for a file set
inside a file set. -/
theorem onOpening_bind_onClosing {s : Reading} {t : Tag}
    (h : ElementKind.ofName t.name ≠ .fileSet ∨ s.current = none) :
    (s.onOpening t >>= fun s' => s'.onClosing t.name) = s.onEmpty t := by
  by_cases hk : ElementKind.ofName t.name = .fileSet
  · have hs : s.current = none := h.resolve_left (not_not_intro hk)
    rw [onOpening_fileSet hk hs, onEmpty_fileSet hk]
    cases FileSet.ofTag t with
    | error cause => rfl
    | ok set =>
      -- the file set that was begun has no files yet when it ends
      show (enter { s with current := some set } t.name).onClosing t.name
        = .ok (s.addFileSet set)
      rw [onClosing_enter_fileSet hk]
      simp [complete, addFileSet, hs]
  · rw [onOpening_eq_note hk, onEmpty_eq_note hk]
    cases s.note t with
    | error cause => rfl
    | ok s' => exact onClosing_enter hk

/-! ## Everything that a step can do -/

/-- What a tag can lead to that is no file set. -/
inductive Notes (s : Reading) (t : Tag) : Reading → Prop where
  | root (hk : ElementKind.ofName t.name = .root) : Notes s t { s with sawRoot := true }
  | property {p : Property} (hk : ElementKind.ofName t.name = .property)
      (hp : Property.ofTag t = .ok p) : Notes s t (s.addProperty p)
  | file {set : FileSet} {f : FileEntry} (hk : ElementKind.ofName t.name = .file)
      (hs : s.current = some set) (hf : FileEntry.ofTag t = .ok f) :
      Notes s t { s with current := some (set.addFile f) }
  | other (hk : ElementKind.ofName t.name = .other) : Notes s t s

/-- What a token can lead to. -/
inductive Steps (s : Reading) : Token → Reading → Prop where
  | opening {t : Tag} {s' : Reading} (h : Notes s t s') : Steps s (.opening t) (s'.enter t.name)
  | empty {t : Tag} {s' : Reading} (h : Notes s t s') : Steps s (.empty t) s'
  | openingFileSet {t : Tag} {set : FileSet} (hk : ElementKind.ofName t.name = .fileSet)
      (hs : s.current = none) (hset : FileSet.ofTag t = .ok set) :
      Steps s (.opening t) { s.enter t.name with current := some set }
  | emptyFileSet {t : Tag} {set : FileSet} (hk : ElementKind.ofName t.name = .fileSet)
      (hset : FileSet.ofTag t = .ok set) : Steps s (.empty t) (s.addFileSet set)
  | closing {name : List Char} {outer : List (List Char)} (hk : ElementKind.ofName name ≠ .fileSet)
      (hopen : s.openNames = name :: outer) :
      Steps s (.closing name) { s with openNames := outer }
  | closingFileSet {name : List Char} {outer : List (List Char)}
      (hk : ElementKind.ofName name = .fileSet) (hopen : s.openNames = name :: outer) :
      Steps s (.closing name) (complete { s with openNames := outer })
  | aside : Steps s .aside s

section

variable {s s' : Reading}

/-- What a tag tells is one of the things that there are to tell. -/
theorem notes_of_note {t : Tag} (hk : ElementKind.ofName t.name ≠ .fileSet)
    (h : s.note t = .ok s') : s.Notes t s' := by
  unfold note at h
  cases hkind : ElementKind.ofName t.name with
  | root =>
    rw [hkind] at h
    cases h
    exact .root hkind
  | property =>
    rw [hkind] at h
    obtain ⟨p, hp, hadd⟩ := bind_eq_ok_iff.1 h
    cases hadd
    exact .property hkind hp
  | fileSet => exact absurd hkind hk
  | file =>
    rw [hkind] at h
    -- a file needs a file set to be put into
    simp only [addFile] at h
    split at h
    · cases h
    · rename_i set hset
      obtain ⟨f, hf, hadd⟩ := bind_eq_ok_iff.1 h
      cases hadd
      exact .file hkind hset hf
  | other =>
    rw [hkind] at h
    cases h
    exact .other hkind

/-- Only a tag that is no file set is told in this way. -/
theorem Notes.ne_fileSet {t : Tag} (h : s.Notes t s') : ElementKind.ofName t.name ≠ .fileSet := by
  cases h with
  | root hk => simp [hk]
  | property hk hp => simp [hk]
  | file hk hs hf => simp [hk]
  | other hk => simp [hk]

/-- A step does one of these things or fails. Invariants are proved by cases on what it did, without
a look into the step itself. -/
theorem steps_of_step {token : Token} (h : s.step token = .ok s') : s.Steps token s' := by
  cases token with
  | opening t =>
    have hopening : s.onOpening t = .ok s' := h
    by_cases hk : ElementKind.ofName t.name = .fileSet
    · cases hs : s.current with
      | some set =>
        -- a second file set does not begin, so there is no such step
        rw [onOpening_nested hk (by rw [hs]; rfl)] at hopening
        cases hopening
      | none =>
        rw [onOpening_fileSet hk hs] at hopening
        obtain ⟨set, hset, rfl⟩ := map_eq_ok_iff.1 hopening
        exact .openingFileSet hk hs hset
    · rw [onOpening_eq_note hk] at hopening
      obtain ⟨s₁, hnote, rfl⟩ := map_eq_ok_iff.1 hopening
      exact .opening (notes_of_note hk hnote)
  | empty t =>
    have hempty : s.onEmpty t = .ok s' := h
    by_cases hk : ElementKind.ofName t.name = .fileSet
    · rw [onEmpty_fileSet hk] at hempty
      obtain ⟨set, hset, rfl⟩ := map_eq_ok_iff.1 hempty
      exact .emptyFileSet hk hset
    · rw [onEmpty_eq_note hk] at hempty
      exact .empty (notes_of_note hk hempty)
  | closing name =>
    have hclosing : s.onClosing name = .ok s' := h
    unfold onClosing at hclosing
    -- with nothing open there is nothing to be closed
    split at hclosing
    · cases hclosing
    · rename_i expected outer hopen
      split at hclosing
      · rename_i hname
        subst hname
        cases hclosing
        -- the name is known, so only its kind decides what else happens
        split_ifs with hk
        · exact .closingFileSet hk hopen
        · exact .closing hk hopen
      · cases hclosing
  | aside =>
    cases h
    exact .aside

end

end Reading

end InstallManifest
