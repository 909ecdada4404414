import InstallManifest.Description.Building
import InstallManifest.Proofs.Disk.Joining
import InstallManifest.Proofs.Disk.Walk
import InstallManifest.Proofs.FileSet.Sorting
import InstallManifest.Proofs.Outcome
import InstallManifest.Proofs.Uuid.Fresh

/-!
# What a description builds

The directories of a description are walked one after the other, and the first walk that fails is
the failure of the whole. If none fails, each file set is what its own entry says, whatever the
others hold; only the identifiers that are made up depend on how many were made up before.
-/

namespace InstallManifest

open Utf8 (Bytes)

/-! ## Directories -/

namespace DirectorySource

/-- Where a directory is: a path that does not start at the root goes on from the base if there is
one, behind a slash if the base needs one, and any other path is taken as it is. -/
def place (base : Option Bytes) (dir : DirectorySource) : Bytes :=
  match base with
  | some base =>
    if dir.path.head? = some Disk.slash then dir.path
    else base ++ (Disk.separator base ++ dir.path)
  | none => dir.path

/-- The files below a directory, and why there may be more of them. -/
def walk (disk : Disk) (base : Option Bytes) (dir : DirectorySource) :
    List FileEntry × Option Failure :=
  disk.filesUnder (dir.place base) dir.lead

theorem located_eq_place (base : Option Bytes) (dir : DirectorySource) :
    dir.located base = dir.place base := by
  cases base with
  | none => rfl
  | some base =>
    show Disk.joinBytes base dir.path = if _ then _ else _
    split_ifs with habsolute
    · exact Disk.joinBytes_of_absolute habsolute
    · exact Disk.joinBytes_of_relative habsolute

end DirectorySource

/-- A walk that fails leaves its files behind all the same. -/
theorem FileSet.addFilesUnder_eq (disk : Disk) (base : Bytes) (lead : String) (s : FileSet) :
    s.addFilesUnder disk base lead = ({ s with files := s.files ++ (disk.filesUnder base lead).1 },
      okUnless (disk.filesUnder base lead).2 (disk.filesUnder base lead).1.length) := by
  unfold FileSet.addFilesUnder
  rcases disk.filesUnder base lead with ⟨files, _ | failure⟩ <;> rfl

/-! ## One file set -/

namespace FileSetDescription

variable (disk : Disk) (base : Option Bytes)

/-- The failure of the first directory that cannot be walked. -/
def failure? (d : FileSetDescription) : Option Failure :=
  d.directories.findSome? fun dir => (dir.walk disk base).2

/-- The files of the directories in order, and after them those that are named. -/
def listed (d : FileSetDescription) : List FileEntry :=
  d.directories.flatMap (fun dir => (dir.walk disk base).1) ++ d.files

/-- The identifier that a description tells, or one that was made up. -/
def idOr (fresh : Uuid) (d : FileSetDescription) : FileSetId :=
  match d.id with
  | some text => .ofText text
  | none => .uuid fresh

/-- The file set of a description, under an identifier. -/
def fileSet (id : FileSetId) (d : FileSetDescription) : FileSet :=
  let s : FileSet := ⟨d.name, id, d.sourcePackage, d.listed disk base⟩
  if d.sort then s.sortFiles else s

theorem addDirectories_eq (s : FileSet) (dirs : List DirectorySource) :
    addDirectories disk base s dirs = okUnless (dirs.findSome? fun dir => (dir.walk disk base).2)
      { s with files := s.files ++ dirs.flatMap fun dir => (dir.walk disk base).1 } := by
  induction dirs generalizing s with
  | nil => simp [addDirectories]
  | cons dir dirs ih =>
    rw [addDirectories, FileSet.addFilesUnder_eq, dir.located_eq_place, List.findSome?_cons,
      List.flatMap_cons, DirectorySource.walk]
    cases (disk.filesUnder (dir.place base) dir.lead).2 with
    | some failure => rfl
    | none => simp [ih]

theorem foldl_addFile (s : FileSet) (files : List FileEntry) :
    files.foldl FileSet.addFile s = { s with files := s.files ++ files } := by
  induction files generalizing s with
  | nil => simp
  | cons file files ih => simp [ih, FileSet.addFile]

/-- A new file set becomes what its description says. -/
theorem fill_eq (id : FileSetId) (d : FileSetDescription) :
    d.fill disk base { name := d.name, id }
      = okUnless (d.failure? disk base) (d.fileSet disk base id) := by
  -- the package is put in first or not at all
  rcases d with ⟨name, id?, _ | package, dirs, files, sort⟩
  all_goals
    simp only [fill, addDirectories_eq, foldl_addFile, failure?, fileSet, listed]
    cases dirs.findSome? fun dir => (dir.walk disk base).2 <;> rfl

/-- The builder with the file set of a description. -/
def addTo (b : Builder) (d : FileSetDescription) : Builder where
  repository :=
    { b.repository with
      fileSets := b.repository.fileSets ++ [d.fileSet disk base (d.idOr b.ids.next)] }
  ids := if d.id.isSome then b.ids else b.ids.advance

/-- A description fails or adds one file set, and which of the two it does is no matter of what was
built before. -/
theorem build_eq (b : Builder) (d : FileSetDescription) :
    d.build disk base b = okUnless (d.failure? disk base) (d.addTo disk base b) := by
  -- the file set that was added last is at the end of the list
  have hnew : (b.addFileSet d.name (d.id.map FileSetId.ofText)).fileSet?
      b.repository.fileSets.length = some { name := d.name, id := d.idOr b.ids.next } := by
    have hid : (d.id.map FileSetId.ofText).getD (.uuid b.ids.next) = d.idOr b.ids.next := by
      unfold idOr
      cases d.id <;> rfl
    simp [Builder.fileSet?, Builder.addFileSet, hid]
  -- and there it is exchanged for what it is filled to
  have hchange (s s' : FileSet) :
      (b.repository.fileSets ++ [s]).modify b.repository.fileSets.length (fun _ => s')
        = b.repository.fileSets ++ [s'] := by
    simp [List.modify_eq_take_drop]
  unfold build
  simp only [hnew, fill_eq]
  cases d.failure? disk base with
  | some failure => rfl
  | none =>
    simp only [okUnless_none, ok_bind, Builder.changeFileSet, Builder.addFileSet, hchange,
      Option.isSome_map]
    rfl

/-! ## All file sets -/

/-- The file sets of descriptions. Only one that tells no identifier takes one from the supply. -/
def fileSets (ids : IdSupply) : List FileSetDescription → List FileSet
  | [] => []
  | d :: ds =>
    d.fileSet disk base (d.idOr ids.next) ::
      fileSets (if d.id.isSome then ids else ids.advance) ds

theorem foldl_addTo (b : Builder) (ds : List FileSetDescription) :
    (ds.foldl (addTo disk base) b).repository =
      { b.repository with fileSets := b.repository.fileSets ++ fileSets disk base b.ids ds } := by
  induction ds generalizing b with
  | nil => simp [fileSets]
  | cons d ds ih => simp [ih, addTo, fileSets]

@[simp] theorem length_fileSets (ids : IdSupply) (ds : List FileSetDescription) :
    (fileSets disk base ids ds).length = ds.length := by
  induction ds generalizing ids with
  | nil => rfl
  | cons d ds ih => simp [fileSets, ih]

/-- The identifier that is made up for a file set is the one after those for the file sets before
it. -/
theorem getElem?_fileSets (ids : IdSupply) (ds : List FileSetDescription) (i : Nat) :
    (fileSets disk base ids ds)[i]?
      = ds[i]?.map fun d =>
          d.fileSet disk base (d.idOr (ids.draw ((ds.take i).countP (·.id.isNone)))) := by
  -- the supply after the first file set is what the others begin with
  induction ds generalizing ids i with
  | nil => rfl
  | cons d ds ih =>
    cases i with
    | zero => rfl
    | succ i =>
      rw [fileSets, List.getElem?_cons_succ, ih, List.getElem?_cons_succ, List.take_succ_cons,
        List.countP_cons]
      cases d.id with
      | some text => rfl
      | none => simp [IdSupply.draw, IdSupply.advance, Nat.add_assoc, Nat.add_comm 1]

end FileSetDescription

/-! ## The whole description -/

namespace Description

variable (disk : Disk) (base : Option Bytes) (ids : IdSupply)

/-- The directories to be walked, file set by file set. -/
def directories (d : Description) : List DirectorySource := d.fileSets.flatMap (·.directories)

/-- How many identifiers are made up for the file sets before a position. -/
def madeBefore (d : Description) (i : Nat) : Nat := (d.fileSets.take i).countP (·.id.isNone)

/-- What a description builds if all walks succeed. -/
def repository (d : Description) : Repository :=
  ⟨(d.packageType.map Property.ofPackageType).toList,
    FileSetDescription.fileSets disk base ids d.fileSets⟩

/-- What is built depends on the walks alone. -/
theorem toBuilder_eq (d : Description) :
    (d.toBuilder disk base ids).map (·.repository)
      = okUnless (d.directories.findSome? fun dir => (dir.walk disk base).2)
          (d.repository disk base ids) := by
  have hfailure : d.fileSets.findSome? (FileSetDescription.failure? disk base)
      = d.directories.findSome? fun dir => (dir.walk disk base).2 := by
    rw [directories, findSome?_flatMap]
    rfl
  have hbuild : FileSetDescription.build disk base
      = fun b d => okUnless (d.failure? disk base) (d.addTo disk base b) :=
    funext₂ (FileSetDescription.build_eq disk base)
  unfold toBuilder
  simp only [hbuild, foldlM_okUnless, hfailure]
  cases d.directories.findSome? fun dir => (dir.walk disk base).2 with
  | some failure => rfl
  | none =>
    rw [okUnless_none, okUnless_none, Except.map, FileSetDescription.foldl_addTo, repository]
    cases d.packageType <;> rfl

theorem toManifest_eq (d : Description) :
    d.toManifest disk base ids = ((d.toBuilder disk base ids).map (·.repository)).bind
      fun r => (r.render d.render).mapError .render := by
  unfold toManifest
  cases d.toBuilder disk base ids <;> rfl

/-- The file set at a position is that of the description there, under its own identifier or the
next that is made up. -/
theorem getElem?_fileSets_repository (d : Description) (i : Nat) :
    (d.repository disk base ids).fileSets[i]?
      = d.fileSets[i]?.map fun entry =>
          entry.fileSet disk base (entry.idOr (ids.draw (d.madeBefore i))) :=
  FileSetDescription.getElem?_fileSets disk base ids d.fileSets i

end Description

end InstallManifest
