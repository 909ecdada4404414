import InstallManifest.Proofs.Description.Building
import InstallManifest.Proofs.Disk.Order
import InstallManifest.Proofs.FileSet.Walked

/-!
# Descriptions that are built alike

The order in which a disk lists its directories is the order in which walks find files. Where every
file set is sorted and has an identifier, that order leaves no trace: files of one walk have no
target, so two of them with one source are the same file, and files with a target stand behind all
files of walks before they are sorted.
-/

namespace InstallManifest

open Utf8 (Bytes)

variable {disk disk' : Disk}

/-! ## Files of a walk -/

theorem Disk.target_of_mem_filesUnder {base : Bytes} {lead : String} {file : FileEntry}
    (h : file ∈ (disk.filesUnder base lead).1) : file.target = none :=
  FileEntry.target_of_mem_ofFound h

/-- Both walks fail, or they find the same files in some order. -/
theorem Disk.SameButForOrder.filesUnder_perm (h : disk.SameButForOrder disk')
    (hproper : disk.root.IsProper) (hproper' : disk'.root.IsProper) {base : Bytes} {lead : String}
    (hnone : (disk.filesUnder base lead).2 = none) :
    (disk'.filesUnder base lead).2 = none ∧
      (disk.filesUnder base lead).1.Perm (disk'.filesUnder base lead).1 := by
  have hparts : (FileEntry.ofFound lead (disk.walk base).found).2 = none ∧
      (disk.walk base).fault = none := by
    simpa [Disk.filesUnder] using hnone
  obtain ⟨hfault', hperm⟩ := h.walk_perm hproper hproper' hparts.2
  have hfound' : (FileEntry.ofFound lead (disk'.walk base).found).2 = none := by
    rw [FileEntry.ofFound_snd_eq_none_iff]
    intro names hin
    exact FileEntry.ofFound_snd_eq_none_iff.1 hparts.1 names (hperm.mem_iff.2 hin)
  refine ⟨?_, ?_⟩
  · simp [Disk.filesUnder, hfound', hfault']
  · show (FileEntry.ofFound lead _).1.Perm (FileEntry.ofFound lead _).1
    rw [FileEntry.ofFound_fst hparts.1, FileEntry.ofFound_fst hfound']
    exact hperm.filterMap _

/-! ## One file set -/

namespace FileSetDescription

variable {base : Option Bytes}

/-- Whether lists are what the walks of a file set append, each of them in some order. -/
def IsAppended (disk : Disk) (base : Option Bytes) (entry : FileSetDescription)
    (appended : List (List FileEntry)) : Prop :=
  List.Forall₂ (fun dir files => files.Perm (dir.walk disk base).1) entry.directories appended

/-- Files without a target that have one source are the same, so of a list of them only their number
matters. -/
theorem filter_source_eq_of_perm {files files' : List FileEntry} (hperm : files.Perm files')
    (htarget : ∀ file ∈ files, file.target = none) (source : String) :
    files.filter (·.source = source) = files'.filter (·.source = source) := by
  have hfilter := hperm.filter (·.source = source)
  have hall : ∀ file ∈ files.filter (·.source = source), file = ⟨source, none⟩ := by
    intro file hin
    obtain ⟨hfile, hsource⟩ := List.mem_filter.1 hin
    calc file = ⟨file.source, file.target⟩ := rfl
      _ = ⟨source, none⟩ := by rw [of_decide_eq_true hsource, htarget file hfile]
  -- lists of one file are the same if they are of one length
  have hreplicate := List.eq_replicate_iff.2 ⟨rfl, hall⟩
  rw [hreplicate] at hfilter ⊢
  exact List.replicate_perm.1 hfilter

theorem IsAppended.flatten_perm {entry : FileSetDescription} {appended : List (List FileEntry)}
    (h : entry.IsAppended disk base appended) :
    appended.flatten.Perm (entry.directories.flatMap fun dir => (dir.walk disk base).1) := by
  unfold IsAppended at h
  generalize entry.directories = dirs at h ⊢
  induction h with
  | nil => exact .refl _
  | cons hperm _ ih =>
    rw [List.flatten_cons, List.flatMap_cons]
    exact hperm.append ih

/-- Whatever the order of the files of each walk is, sorting makes the same of them. -/
theorem files_fileSet_of_isAppended {entry : FileSetDescription} {appended : List (List FileEntry)}
    (hsort : entry.sort = true) (h : entry.IsAppended disk base appended) (id : FileSetId)
    (s : FileSet) (hs : s.files = appended.flatten ++ entry.files) :
    (entry.fileSet disk base id).files = s.sortFiles.files := by
  rw [fileSet, if_pos hsort]
  refine FileSet.files_sortFiles_congr fun source => ?_
  rw [hs, listed, List.filter_append, List.filter_append]
  -- the explicit files stand behind on both sides
  congr 1
  refine filter_source_eq_of_perm h.flatten_perm.symm ?_ source
  intro file hin
  obtain ⟨dir, -, hfile⟩ := List.mem_flatMap.1 hin
  exact Disk.target_of_mem_filesUnder hfile

/-- What one disk appends, the other appends as well, in some order. -/
theorem isAppended_of_sameButForOrder (h : disk.SameButForOrder disk')
    (hproper : disk.root.IsProper) (hproper' : disk'.root.IsProper) {entry : FileSetDescription}
    (hnone : ∀ dir ∈ entry.directories, (dir.walk disk base).2 = none) :
    entry.IsAppended disk base (entry.directories.map fun dir => (dir.walk disk' base).1) := by
  unfold IsAppended
  rw [List.forall₂_map_right_iff, List.forall₂_same]
  intro dir hdir
  exact (h.filesUnder_perm hproper hproper' (hnone dir hdir)).2.symm

theorem fileSet_eq (h : disk.SameButForOrder disk') (hproper : disk.root.IsProper)
    (hproper' : disk'.root.IsProper) {entry : FileSetDescription} (hsort : entry.sort = true)
    (hnone : ∀ dir ∈ entry.directories, (dir.walk disk base).2 = none) (id : FileSetId) :
    entry.fileSet disk base id = entry.fileSet disk' base id := by
  have hfiles : (entry.fileSet disk base id).files = (entry.fileSet disk' base id).files := by
    rw [files_fileSet_of_isAppended hsort
      (isAppended_of_sameButForOrder h hproper hproper' hnone) id
      ⟨entry.name, id, entry.sourcePackage, entry.listed disk' base⟩ (by rw [listed, List.flatMap]),
      fileSet, if_pos hsort]
  rw [fileSet, fileSet, if_pos hsort, if_pos hsort] at hfiles ⊢
  simp only [FileSet.sortFiles] at hfiles ⊢
  rw [hfiles]

/-- File sets with identifiers of their own do not depend on the supply. -/
theorem fileSets_eq (h : disk.SameButForOrder disk') (hproper : disk.root.IsProper)
    (hproper' : disk'.root.IsProper) (ids ids' : IdSupply) {entries : List FileSetDescription}
    (hentries : ∀ entry ∈ entries, entry.sort = true ∧ entry.id.isSome = true)
    (hnone : ∀ entry ∈ entries, ∀ dir ∈ entry.directories, (dir.walk disk base).2 = none) :
    fileSets disk base ids entries = fileSets disk' base ids' entries := by
  induction entries generalizing ids ids' with
  | nil => rfl
  | cons entry entries ih =>
    rw [List.forall_mem_cons] at hentries hnone
    obtain ⟨hsort, hid⟩ := hentries.1
    obtain ⟨text, htext⟩ := Option.isSome_iff_exists.1 hid
    rw [fileSets, fileSets, ih _ _ hentries.2 hnone.2, fileSet_eq h hproper hproper' hsort hnone.1,
      idOr, idOr, htext]

end FileSetDescription

/-! ## The whole description -/

namespace Description

open FileSetDescription

/-- Walks that succeed on one disk succeed on the other. -/
theorem walks_succeed (h : disk.SameButForOrder disk') (hproper : disk.root.IsProper)
    (hproper' : disk'.root.IsProper) {base : Option Bytes} {d : Description}
    (hnone : (d.directories.findSome? fun dir => (dir.walk disk base).2) = none) :
    (d.directories.findSome? fun dir => (dir.walk disk' base).2) = none := by
  rw [List.findSome?_eq_none_iff] at hnone ⊢
  intro dir hdir
  exact (h.filesUnder_perm hproper hproper' (hnone dir hdir)).1

/-- A description whose file sets are all sorted and have identifiers is built alike from disks that
differ only in the order of their listings, whatever identifiers the supply would give: it fails on
both or gives one repository and one manifest. More than that, in whatever order each walk appends
its files, the files of a file set are these and the explicit ones after them, sorted by source and
but for that left in their order. -/
theorem toBuilder_sameButForOrder (h : disk.SameButForOrder disk') (hproper : disk.root.IsProper)
    (hproper' : disk'.root.IsProper) (base : Option Bytes) (ids ids' : IdSupply) (d : Description)
    (hentries : ∀ entry ∈ d.fileSets, entry.sort = true ∧ entry.id.isSome = true) :
    (∃ failure failure', d.toBuilder disk base ids = .error failure ∧
      d.toBuilder disk' base ids' = .error failure') ∨
    ∃ b b', d.toBuilder disk base ids = .ok b ∧ d.toBuilder disk' base ids' = .ok b' ∧
      b.repository = b'.repository ∧
      d.toManifest disk base ids = d.toManifest disk' base ids' ∧
      ∀ (i : Nat) (entry : FileSetDescription) (s : FileSet) (appended : List (List FileEntry)),
        d.fileSets[i]? = some entry → b.repository.fileSets[i]? = some s →
        entry.IsAppended disk base appended →
        FileEntry.IsStableSort (appended.flatten ++ entry.files) s.files := by
  have hbuilder := d.toBuilder_eq disk base ids
  have hbuilder' := d.toBuilder_eq disk' base ids'
  cases hfirst : d.directories.findSome? fun dir => (dir.walk disk base).2 with
  | some failure =>
    -- if all walks of the other disk succeeded, so would these
    have hfirst' : (d.directories.findSome? fun dir => (dir.walk disk' base).2) ≠ none := by
      intro hnone'
      rw [walks_succeed h.symm hproper' hproper hnone'] at hfirst
      cases hfirst
    obtain ⟨failure', hfailure'⟩ := Option.ne_none_iff_exists'.1 hfirst'
    rw [hfirst, okUnless_some, map_eq_error_iff] at hbuilder
    rw [hfailure', okUnless_some, map_eq_error_iff] at hbuilder'
    exact .inl ⟨failure, failure', hbuilder, hbuilder'⟩
  | none =>
    have hwalks : ∀ entry ∈ d.fileSets, ∀ dir ∈ entry.directories,
        (dir.walk disk base).2 = none := by
      intro entry hentry dir hdir
      exact List.findSome?_eq_none_iff.1 hfirst dir (List.mem_flatMap.2 ⟨entry, hentry, hdir⟩)
    -- the file sets are the same, whatever identifiers the supplies have
    have hsame : d.repository disk base ids = d.repository disk' base ids' := by
      rw [repository, repository, fileSets_eq h hproper hproper' ids ids' hentries hwalks]
    have hmanifest := d.toManifest_eq disk base ids
    have hmanifest' := d.toManifest_eq disk' base ids'
    rw [hfirst, okUnless_none] at hbuilder
    rw [walks_succeed h hproper hproper' hfirst, okUnless_none, ← hsame] at hbuilder'
    obtain ⟨b, hb, hrepository⟩ := map_eq_ok_iff.1 hbuilder
    obtain ⟨b', hb', hrepository'⟩ := map_eq_ok_iff.1 hbuilder'
    refine .inr ⟨b, b', hb, hb', hrepository.trans hrepository'.symm, ?_, ?_⟩
    · rw [hmanifest, hmanifest', hbuilder, hbuilder']
    · intro i entry s appended hentry hs happended
      obtain ⟨hsort, -⟩ := hentries entry (List.mem_of_getElem? hentry)
      rw [hrepository, getElem?_fileSets_repository, hentry, Option.map_some,
        Option.some_inj] at hs
      have hfiles := files_fileSet_of_isAppended hsort happended
        (entry.idOr (ids.draw (d.madeBefore i)))
        { s with files := appended.flatten ++ entry.files } rfl
      rw [← hs, hfiles]
      exact FileSet.isStableSort_sortFiles { s with files := appended.flatten ++ entry.files }

/-- Two walks of one directory, below a base whose name is no text, and an explicit file all give
the source `a`; the explicit file, which has a target, comes last of the three whatever the disk
lists first. -/
theorem toBuilder_sameButForOrder_ties :
    let disk : Disk :=
      ⟨.directory {} [([255], .directory {} [([97], .file []), ([98], .file [])])], []⟩
    let disk' : Disk :=
      ⟨.directory {} [([255], .directory {} [([98], .file []), ([97], .file [])])], []⟩
    let base : Option Bytes := some [47, 255]
    let ids : IdSupply := ⟨fun _ => 0, 0⟩
    let entry : FileSetDescription :=
      { id := some "i", directories := [⟨[46], ""⟩, ⟨[46], ""⟩], files := [⟨"a", some "t"⟩],
        sort := true }
    ∃ b b', toBuilder disk base ids { fileSets := [entry] } = .ok b ∧
      toBuilder disk' base ids { fileSets := [entry] } = .ok b' ∧
      b.repository = b'.repository ∧ ∃ s, b.repository.fileSets[0]? = some s ∧
        FileEntry.IsStableSort [⟨"b", none⟩, ⟨"a", none⟩, ⟨"a", none⟩, ⟨"b", none⟩,
          ⟨"a", some "t"⟩] s.files := by
  intro disk disk' base ids entry
  have hfile : (Disk.Node.file []).IsProper := Disk.Node.isProper_of_isDirectory_eq_false rfl
  have hproper : disk.root.IsProper := by
    refine Disk.Node.isProper_directory_iff.2 ⟨by decide, ?_⟩
    simp [Disk.Node.isProper_directory_iff, hfile, Disk.slash]
  have hproper' : disk'.root.IsProper := by
    refine Disk.Node.isProper_directory_iff.2 ⟨by decide, ?_⟩
    simp [Disk.Node.isProper_directory_iff, hfile, Disk.slash]
  have hsame : disk.SameButForOrder disk' :=
    ⟨Disk.Node.sameBelow_cons {} [255]
      (Disk.Node.sameBelow_of_perm {} (by decide) (.swap _ _ _)) [], rfl⟩
  have hplace : disk.find true (.ofBytes [47, 255, 47, 46])
      = .ok ⟨[[255]], .directory {} [([97], .file []), ([98], .file [])], Disk.maxLinks⟩ := by
    show Disk.search disk true Disk.maxLinks [] [.entry [255], .stay] = _
    rw [Disk.search_directory (by decide) (by decide) rfl, Disk.search_stay (by decide)]
    exact Disk.search_nil rfl
  have hfound : disk.walk [47, 255, 47, 46] = ⟨[[[97]], [[98]]], none⟩ := by
    rw [Disk.walk_eq hplace]
    rfl
  have hwalk : (⟨[46], ""⟩ : DirectorySource).walk disk base =
      ([⟨"a", none⟩, ⟨"b", none⟩], none) := by
    show disk.filesUnder [47, 255, 47, 46] "" = _
    rw [Disk.filesUnder, hfound]
    decide +kernel
  have happended : entry.IsAppended disk base
      [[⟨"b", none⟩, ⟨"a", none⟩], [⟨"a", none⟩, ⟨"b", none⟩]] := by
    simp only [IsAppended, entry, List.forall₂_cons, hwalk]
    exact ⟨.swap _ _ _, .refl _, .nil⟩
  have hbuilder := toBuilder_eq disk base ids { fileSets := [entry] }
  rcases toBuilder_sameButForOrder hsame hproper hproper' base ids ids { fileSets := [entry] }
    (by simp [entry]) with ⟨failure, -, hfailure, -⟩ | ⟨b, b', hb, hb', hrepository, -, hsets⟩
  · rw [hfailure] at hbuilder
    simp [directories, entry, hwalk, Except.map] at hbuilder
  · refine ⟨b, b', hb, hb', hrepository, ?_⟩
    rw [hb] at hbuilder
    have hbuilt : repository disk base ids { fileSets := [entry] } = b.repository :=
      (okUnless_eq_ok_iff.1 hbuilder.symm).2
    have hset : b.repository.fileSets[0]? =
        some (entry.fileSet disk base (entry.idOr ids.next)) := by
      rw [← hbuilt]
      rfl
    exact ⟨_, hset, hsets 0 entry _ _ rfl hset happended⟩

end Description

end InstallManifest
