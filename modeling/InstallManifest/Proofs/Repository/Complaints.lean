import InstallManifest.Proofs.Repository.RoundTrip
import InstallManifest.Repository.Check

/-!
# Complaints about a manifest that was written

A repository can be checked before it is written, or after it is read back. Identifiers are compared
by their text, and a text that spells a UUID is read as that UUID; so file sets whose identifiers
are two spellings of one UUID pass the first check and fail the second. Apart from them the two
checks agree: what is complained of before is complained of afterwards, in the same order and of the
same file sets, and everything new is about such an identifier.
-/

namespace InstallManifest

/-! ## Spellings of identifiers -/

namespace FileSetId

/-- What a text is written as after it was read as an identifier. -/
def respell (text : String) : String := (ofText text).toText

theorem respell_inj {a b : String} : respell a = respell b ↔ ofText a = ofText b :=
  toText_ofText_inj

/-- Whether no identifier is spelt in two ways by some texts. -/
def SpeltOneWay (texts : List String) : Prop :=
  ∀ a ∈ texts, ∀ b ∈ texts, ofText a = ofText b → a = b

instance (texts : List String) : Decidable (SpeltOneWay texts) :=
  inferInstanceAs (Decidable (∀ a ∈ texts, ∀ b ∈ texts, _))

theorem SpeltOneWay.nil : SpeltOneWay [] := by
  intro a ha
  cases ha

/-- One more text is no second way to spell anything if it is new as an identifier, or known as a
text. -/
theorem SpeltOneWay.concat_iff {texts : List String} (h : SpeltOneWay texts) (text : String) :
    SpeltOneWay (texts ++ [text]) ↔ (respell text ∈ texts.map respell → text ∈ texts) := by
  constructor
  · intro hall hmem
    obtain ⟨a, ha, heq⟩ := List.mem_map.1 hmem
    have hsame : a = text :=
      hall a (List.mem_append_left _ ha) text (List.mem_append_right _ List.mem_cons_self)
        (respell_inj.1 heq)
    exact hsame ▸ ha
  · intro hknown a ha b hb heq
    -- a text that spells the same as a known one is known itself
    have hold {c : String} (hc : c ∈ texts) (hct : ofText c = ofText text) : text ∈ texts :=
      hknown (List.mem_map.2 ⟨c, hc, respell_inj.2 hct⟩)
    rcases List.mem_append.1 ha with ha | ha
    · rcases List.mem_append.1 hb with hb | hb
      · exact h a ha b hb heq
      · rw [List.mem_singleton.1 hb] at heq ⊢
        exact h a ha text (hold ha heq) heq
    · rcases List.mem_append.1 hb with hb | hb
      · rw [List.mem_singleton.1 ha] at heq ⊢
        exact h text (hold hb heq.symm) b hb heq
      · rw [List.mem_singleton.1 ha, List.mem_singleton.1 hb]

end FileSetId

open Markup FileSetId

/-! ## What complaints are about -/

/-- The part of the repository that a complaint is about, and the file set if there is one. -/
def Complaint.subject (c : Complaint) : String × Option String := (c.misuse.field, c.context)

namespace FileSet

/-- The subjects of complaints about one file set. -/
def subjects (index : Nat) (earlierIds : List String) (s : FileSet) :
    List (String × Option String) :=
  (s.misuses earlierIds).map fun misuse => (misuse.field, some (s.context index))

/-- Only the complaint about the identifier depends on other file sets. -/
theorem subjects_eq (index : Nat) (earlierIds : List String) (s : FileSet) :
    s.subjects index earlierIds
      = (if s.id.toText ∈ earlierIds then [("id", some (s.context index))] else []) ++
        s.subjects index [] := by
  have hmisuses : s.misuses earlierIds
      = (if s.id.toText ∈ earlierIds then [.duplicateId s.id.toText] else []) ++
        s.misuses [] := by
    simp [misuses]
  rw [subjects, hmisuses, List.map_append]
  split_ifs <;> rfl

section

variable (emitSourcePackage : Bool) (index : Nat) (earlierIds : List String) (s : FileSet)

/-- A file set that was read differs only in the spelling of its identifier. -/
theorem subjects_reread :
    (s.reread emitSourcePackage).subjects index (earlierIds.map respell)
      = (if respell s.id.toText ∈ earlierIds.map respell
          then [("id", some (s.context index))] else []) ++ s.subjects index [] :=
  subjects_eq index (earlierIds.map respell) (s.reread emitSourcePackage)

variable {earlierIds s}

theorem subjects_reread_eq
    (h : respell s.id.toText ∈ earlierIds.map respell → s.id.toText ∈ earlierIds) :
    (s.reread emitSourcePackage).subjects index (earlierIds.map respell)
      = s.subjects index earlierIds := by
  have hiff : respell s.id.toText ∈ earlierIds.map respell ↔ s.id.toText ∈ earlierIds :=
    ⟨h, List.mem_map_of_mem⟩
  rw [subjects_reread, subjects_eq index earlierIds]
  simp only [hiff]

/-- An identifier that repeats another one in a new spelling makes for one more complaint. -/
theorem subjects_reread_of_new_spelling (hread : respell s.id.toText ∈ earlierIds.map respell)
    (hnew : s.id.toText ∉ earlierIds) :
    (s.reread emitSourcePackage).subjects index (earlierIds.map respell)
      = ("id", some (s.context index)) :: s.subjects index earlierIds := by
  rw [subjects_reread, subjects_eq index earlierIds, if_pos hread, if_neg hnew]
  rfl

end

end FileSet

/-! ## All file sets -/

namespace Repository

/-- The subjects of complaints about the file sets from a position on. -/
def fileSetSubjects (index : Nat) (earlierIds : List String) (sets : List FileSet) :
    List (String × Option String) :=
  (fileSetComplaints index earlierIds sets).map Complaint.subject

theorem fileSetSubjects_cons (index : Nat) (earlierIds : List String) (s : FileSet)
    (rest : List FileSet) :
    fileSetSubjects index earlierIds (s :: rest)
      = s.subjects index earlierIds ++
        fileSetSubjects (index + 1) (earlierIds ++ [s.id.toText]) rest := by
  rw [fileSetSubjects, fileSetComplaints, List.map_append, List.map_map]
  rfl

/-- The subjects of all complaints about a repository. -/
def subjects (r : Repository) : List (String × Option String) :=
  r.complaints.map Complaint.subject

theorem subjects_eq_nil_iff {r : Repository} : r.subjects = [] ↔ r.complaints = [] :=
  List.map_eq_nil_iff

theorem subjects_eq (r : Repository) :
    r.subjects = (if r.packageTypeCount > 1 then [("properties", none)] else []) ++
      fileSetSubjects 0 [] r.fileSets := by
  rw [subjects, complaints, List.map_append, fileSetSubjects]
  split_ifs <;> rfl

section

variable (emitSourcePackage : Bool) (sets : List FileSet) (index : Nat) (earlierIds : List String)

/-- The file sets as they are read, after others that were read too. -/
theorem fileSetSubjects_reread_cons (s : FileSet) :
    fileSetSubjects index (earlierIds.map respell)
        ((s :: sets).map (FileSet.reread emitSourcePackage))
      = (s.reread emitSourcePackage).subjects index (earlierIds.map respell) ++
        fileSetSubjects (index + 1) ((earlierIds ++ [s.id.toText]).map respell)
          (sets.map (FileSet.reread emitSourcePackage)) := by
  rw [List.map_cons, fileSetSubjects_cons, List.map_append, List.map_singleton]
  rfl

/-- What is complained of is complained of again, and what is new is about identifiers. -/
theorem fileSetSubjects_reread :
    (fileSetSubjects index earlierIds sets).Sublist
        (fileSetSubjects index (earlierIds.map respell)
          (sets.map (FileSet.reread emitSourcePackage))) ∧
      (fileSetSubjects index (earlierIds.map respell)
          (sets.map (FileSet.reread emitSourcePackage))).filter (·.1 ≠ "id")
        = (fileSetSubjects index earlierIds sets).filter (·.1 ≠ "id") := by
  induction sets generalizing index earlierIds with
  | nil => exact ⟨List.Sublist.refl _, rfl⟩
  | cons s sets ih =>
    obtain ⟨hsublist, hfilter⟩ := ih (index + 1) (earlierIds ++ [s.id.toText])
    rw [fileSetSubjects_reread_cons, fileSetSubjects_cons, List.filter_append, List.filter_append,
      hfilter]
    -- the identifier is new in every spelling, known as it is spelt, or known in another spelling
    by_cases h : respell s.id.toText ∈ earlierIds.map respell → s.id.toText ∈ earlierIds
    · rw [FileSet.subjects_reread_eq _ _ h]
      exact ⟨hsublist.append_left _, rfl⟩
    · obtain ⟨hread, hnew⟩ := Classical.not_imp.1 h
      rw [FileSet.subjects_reread_of_new_spelling _ _ hread hnew]
      refine ⟨(List.sublist_cons_self _ _).append hsublist, ?_⟩
      rw [List.filter_cons_of_neg (by simp)]

variable {earlierIds}

/-- Nothing is new exactly if no identifier is spelt in two ways. By induction on the file sets,
with the identifiers before them spelt in one way so far. -/
theorem fileSetSubjects_reread_eq_iff (hearlier : SpeltOneWay earlierIds) :
    fileSetSubjects index (earlierIds.map respell) (sets.map (FileSet.reread emitSourcePackage))
        = fileSetSubjects index earlierIds sets ↔
      SpeltOneWay (earlierIds ++ sets.map (·.id.toText)) := by
  induction sets generalizing index earlierIds with
  | nil => simpa [fileSetSubjects, fileSetComplaints] using hearlier
  | cons s sets ih =>
    have hids : earlierIds ++ (s :: sets).map (·.id.toText)
        = earlierIds ++ [s.id.toText] ++ sets.map (·.id.toText) := by simp
    rw [fileSetSubjects_reread_cons, fileSetSubjects_cons, hids]
    -- in the first two cases nothing is new here, in the third something is
    by_cases h : respell s.id.toText ∈ earlierIds.map respell → s.id.toText ∈ earlierIds
    · rw [FileSet.subjects_reread_eq _ _ h, List.append_cancel_left_eq]
      exact ih (index + 1) ((hearlier.concat_iff s.id.toText).2 h)
    · obtain ⟨hread, hnew⟩ := Classical.not_imp.1 h
      rw [FileSet.subjects_reread_of_new_spelling _ _ hread hnew]
      constructor
      · -- there is one complaint more, and none of the later ones goes away
        intro heq
        have hlength := congrArg List.length heq
        have hlater := (fileSetSubjects_reread emitSourcePackage sets (index + 1)
          (earlierIds ++ [s.id.toText])).1.length_le
        simp only [List.length_append, List.length_cons] at hlength
        omega
      · intro hone
        -- the identifiers so far would be spelt in two ways
        refine absurd ((hearlier.concat_iff s.id.toText).1 ?_) h
        intro a ha b hb
        exact hone a (List.mem_append_left _ ha) b (List.mem_append_left _ hb)

end

/-- Whether no two file sets have identifiers that are different spellings of one. -/
def SpellsIdsOneWay (r : Repository) : Prop := SpeltOneWay (r.fileSets.map (·.id.toText))

instance (r : Repository) : Decidable r.SpellsIdsOneWay :=
  inferInstanceAs (Decidable (SpeltOneWay _))

/-- A repository that was written is read back as one of which the same is complained, and more:
every file set whose identifier spells an earlier one anew is complained of for its identifier. So
the two checks agree, and accept alike, exactly if there is no such file set. -/
theorem complaints_of_written {r : Repository} {o : RenderOptions} {xml : String}
    (h : r.render o = .ok xml) :
    ∃ r', ofManifest xml = .ok r' ∧
      r.subjects.Sublist r'.subjects ∧
      r'.subjects.filter (·.1 ≠ "id") = r.subjects.filter (·.1 ≠ "id") ∧
      (r'.subjects = r.subjects ↔ r.SpellsIdsOneWay) ∧
      (r'.complaints = [] ↔ r.complaints = [] ∧ r.SpellsIdsOneWay) := by
  obtain ⟨hsublist, hfilter⟩ :=
    fileSetSubjects_reread o.emitSourcePackage r.fileSets 0 []
  have hone := fileSetSubjects_reread_eq_iff o.emitSourcePackage r.fileSets 0 SpeltOneWay.nil
  -- package types are no matter of spelling
  have hreread : (r.reread o.emitSourcePackage).subjects
      = (if r.packageTypeCount > 1 then [("properties", none)] else []) ++
        fileSetSubjects 0 [] (r.fileSets.map (FileSet.reread o.emitSourcePackage)) :=
    subjects_eq _
  have hsub : r.subjects.Sublist (r.reread o.emitSourcePackage).subjects := by
    rw [hreread, subjects_eq]
    exact hsublist.append_left _
  have heq : (r.reread o.emitSourcePackage).subjects = r.subjects ↔ r.SpellsIdsOneWay := by
    rw [hreread, subjects_eq, List.append_cancel_left_eq]
    exact hone
  refine ⟨_, ofManifest_written h, hsub, ?_, heq, ?_⟩
  · rw [hreread, subjects_eq, List.filter_append, List.filter_append]
    exact congrArg _ hfilter
  · rw [← subjects_eq_nil_iff, ← subjects_eq_nil_iff]
    constructor
    · intro hnil
      have hnil' : r.subjects = [] := List.sublist_nil.1 (hnil ▸ hsub)
      exact ⟨hnil', heq.1 (hnil.trans hnil'.symm)⟩
    · rintro ⟨hnil, hspelt⟩
      exact (heq.2 hspelt).trans hnil

/-- One identifier three times, the last time in capitals. -/
theorem complaints_of_written_sample :
    let r : Repository := ⟨[],
      [⟨some "a", .raw "0f8fad5b-d9cb-469f-a165-70867728950e", none, []⟩,
        ⟨none, .raw "0f8fad5b-d9cb-469f-a165-70867728950e", none, [⟨"", none⟩]⟩,
        ⟨some "b", .raw "0F8FAD5B-D9CB-469F-A165-70867728950E", none, []⟩]⟩
    r.subjects = [("id", some "file set #1"), ("name", some "file set #1"),
        ("files", some "file set #1")] ∧
      ∃ r', ofManifest (compactDocument (r.pieces false)) = .ok r' ∧
        r.subjects.Sublist r'.subjects ∧ r'.subjects ≠ r.subjects := by
  intro r
  have h : r.render .compact = .ok (compactDocument (r.pieces false)) :=
    render_compact (by decide +kernel)
  have hspelt : ¬ r.SpellsIdsOneWay := by decide +kernel
  obtain ⟨r', hread, hsublist, -, heq, -⟩ := complaints_of_written h
  refine ⟨by decide +kernel, r', hread, hsublist, ?_⟩
  intro hsame
  exact hspelt (heq.1 hsame)

/-- Two file sets that are told apart are read back as one and the same. -/
theorem complaints_of_two_spellings :
    ∃ (r : Repository) (xml : String) (r' : Repository),
      r.render .compact = .ok xml ∧ ofManifest xml = .ok r' ∧ r.complaints = [] ∧
      r'.complaints = [⟨some "b", .duplicateId "0F8FAD5B-D9CB-469F-A165-70867728950E"⟩] := by
  let r : Repository := ⟨[],
    [⟨some "a", .raw "0f8fad5b-d9cb-469f-a165-70867728950e", none, []⟩,
      ⟨some "b", .raw "0F8FAD5B-D9CB-469F-A165-70867728950E", none, []⟩]⟩
  have h : r.render .compact = .ok (compactDocument (r.pieces false)) :=
    render_compact (by decide +kernel)
  exact ⟨r, _, r.reread false, h, ofManifest_written h, by decide +kernel, by decide +kernel⟩

end Repository

end InstallManifest
