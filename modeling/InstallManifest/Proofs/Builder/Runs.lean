import InstallManifest.Proofs.Description.Building

/-!
# Runs of a builder

What a builder holds after a sequence of calls can be told from the calls alone. Each property comes
from a call that sets a package type, and each file set from a call that adds one. From there on a
file set follows the calls that are addressed to it, and no others.
-/

namespace InstallManifest

/-! ## What a call is about -/

namespace Operation

/-- The package type that a call sets. -/
def packageType? : Operation → Option PackageType
  | setPackageType t => some t
  | _ => none

/-- Whether a call adds a file set. -/
def addsFileSet : Operation → Bool
  | addFileSet _ _ => true
  | _ => false

/-- Whether a call adds a file set under an identifier that is made up. -/
def drawsId : Operation → Bool
  | addFileSet _ id => id.isNone
  | _ => false

/-- What a call does to the file set at a position, if it is addressed to that. -/
def addressed? (index : Nat) : Operation → Option FileSetOperation
  | onFileSet i operation => if i = index then some operation else none
  | _ => none

/-- Whether a call only looks at the builder. -/
def looks : Operation → Bool
  | finalize _ => true
  | finalizeWith _ => true
  | validate => true
  | _ => false

end Operation

/-! ## One file set -/

/-- No call changes the name or the identifier of a file set. -/
theorem FileSet.name_and_id_apply (disk : Disk) (s : FileSet) (operation : FileSetOperation) :
    (s.apply disk operation).name = s.name ∧ (s.apply disk operation).id = s.id := by
  cases operation <;> exact ⟨rfl, rfl⟩

theorem FileSet.name_and_id_foldl_apply (disk : Disk) (s : FileSet)
    (operations : List FileSetOperation) :
    (operations.foldl (FileSet.apply disk) s).name = s.name ∧
      (operations.foldl (FileSet.apply disk) s).id = s.id := by
  induction operations generalizing s with
  | nil => exact ⟨rfl, rfl⟩
  | cons operation operations ih =>
    obtain ⟨hname, hid⟩ := s.name_and_id_apply disk operation
    rw [List.foldl_cons, ← hname, ← hid]
    exact ih (s.apply disk operation)

namespace Builder

variable (disk : Disk) (b : Builder)

/-! ## One call -/

/-- A call that sets a package type adds a property, and no other call does. -/
theorem properties_apply (operation : Operation) :
    (b.apply disk operation).repository.properties
      = b.repository.properties ++ (operation.packageType?.map .ofPackageType).toList := by
  cases operation <;>
    simp [apply, Operation.packageType?, setPackageType, addFileSet, changeFileSet]

/-- A call that adds a file set adds one, and no other call does. -/
theorem length_fileSets_apply (operation : Operation) :
    (b.apply disk operation).repository.fileSets.length
      = b.repository.fileSets.length + operation.addsFileSet.toNat := by
  cases operation <;> simp [apply, Operation.addsFileSet, setPackageType, addFileSet, changeFileSet]

/-- An identifier is drawn for a file set that is added without one. -/
theorem ids_apply (operation : Operation) :
    (b.apply disk operation).ids = ⟨b.ids.chance, b.ids.drawn + operation.drawsId.toNat⟩ := by
  cases operation with
  | addFileSet name id => cases id <;> rfl
  | _ => rfl

/-- A file set that is there changes by a call that is addressed to it, and by no other. -/
theorem fileSet?_apply (operation : Operation) {index : Nat}
    (hindex : index < b.repository.fileSets.length) :
    (b.apply disk operation).fileSet? index
      = (b.fileSet? index).map fun s =>
          (operation.addressed? index).toList.foldl (FileSet.apply disk) s := by
  cases operation with
  | addFileSet name id =>
    rw [apply, fileSet?, addFileSet, List.getElem?_append_left hindex]
    exact Option.map_id'.symm
  | onFileSet i operation =>
    rw [apply, fileSet?, changeFileSet, List.getElem?_modify, Operation.addressed?]
    by_cases hi : i = index
    · rw [if_pos hi]
      simp [hi, fileSet?]
    · rw [if_neg hi]
      simp [hi, fileSet?]
  | setPackageType | finalize | finalizeWith | validate => exact Option.map_id'.symm

/-- The file set that a call adds comes last, and is empty but for its name and identifier. -/
theorem fileSet?_addFileSet (name : Option String) (id : Option FileSetId) :
    (b.addFileSet name id).fileSet? b.repository.fileSets.length
      = some { name, id := id.getD (.uuid b.ids.next) } := by
  simp [fileSet?, addFileSet]

/-- A change of the file set at one position is no change of the builder elsewhere. -/
theorem changeFileSet_frame (index : Nat) (change : FileSet → FileSet) :
    (b.changeFileSet index change).repository.properties = b.repository.properties ∧
      (b.changeFileSet index change).repository.fileSets.length = b.repository.fileSets.length ∧
      (b.changeFileSet index change).ids = b.ids ∧
      ∀ other, other ≠ index →
        (b.changeFileSet index change).fileSet? other = b.fileSet? other := by
  refine ⟨rfl, List.length_modify .., rfl, ?_⟩
  intro other hother
  simp [fileSet?, changeFileSet, Ne.symm hother]

theorem changeFileSet_of_length_le {index : Nat} (change : FileSet → FileSet)
    (hindex : b.repository.fileSets.length ≤ index) : b.changeFileSet index change = b := by
  rw [changeFileSet, List.modify_eq_self hindex]

/-- Changes of two file sets may be made in either order. -/
theorem changeFileSet_comm {i j : Nat} (hij : i ≠ j) (change change' : FileSet → FileSet) :
    (b.changeFileSet i change).changeFileSet j change'
      = (b.changeFileSet j change').changeFileSet i change := by
  have hmodify : (b.repository.fileSets.modify i change).modify j change'
      = (b.repository.fileSets.modify j change').modify i change := by
    refine List.ext_getElem? fun k => ?_
    simp only [List.getElem?_modify, Option.map_eq_map, Option.map_map, Function.comp_def]
    by_cases hi : i = k
    · have hj : j ≠ k := fun hj => hij (hi.trans hj.symm)
      simp only [if_pos hi, if_neg hj]
    · simp only [if_neg hi]
  rw [changeFileSet, changeFileSet, changeFileSet, changeFileSet, hmodify]

/-! ## Many calls -/

theorem run_cons (operation : Operation) (operations : List Operation) :
    b.run disk (operation :: operations) = (b.apply disk operation).run disk operations := rfl

theorem run_append (before after : List Operation) :
    b.run disk (before ++ after) = (b.run disk before).run disk after :=
  List.foldl_append

/-- The properties of a builder after a run are those it had and one for each package type that was
set. -/
theorem properties_run (operations : List Operation) :
    (b.run disk operations).repository.properties
      = b.repository.properties
        ++ (operations.filterMap Operation.packageType?).map .ofPackageType := by
  induction operations generalizing b with
  | nil => exact (List.append_nil _).symm
  | cons operation operations ih =>
    rw [run_cons, ih, properties_apply, List.filterMap_cons]
    cases operation.packageType? <;> simp

theorem length_fileSets_run (operations : List Operation) :
    (b.run disk operations).repository.fileSets.length
      = b.repository.fileSets.length + operations.countP Operation.addsFileSet := by
  induction operations generalizing b with
  | nil => rfl
  | cons operation operations ih =>
    rw [run_cons, ih, length_fileSets_apply, List.countP_cons]
    cases operation.addsFileSet <;> simp; omega

theorem ids_run (operations : List Operation) :
    (b.run disk operations).ids
      = ⟨b.ids.chance, b.ids.drawn + operations.countP Operation.drawsId⟩ := by
  induction operations generalizing b with
  | nil => rfl
  | cons operation operations ih =>
    rw [run_cons, ih, ids_apply, List.countP_cons]
    cases operation.drawsId <;> simp; omega

/-- A file set that is there at the start follows the calls that are addressed to it. -/
theorem fileSet?_run (operations : List Operation) {index : Nat}
    (hindex : index < b.repository.fileSets.length) :
    (b.run disk operations).fileSet? index
      = (b.fileSet? index).map fun s =>
          (operations.filterMap (Operation.addressed? index)).foldl (FileSet.apply disk) s := by
  induction operations generalizing b with
  | nil => exact Option.map_id'.symm
  | cons operation operations ih =>
    -- a call takes no file set away
    have hindex' : index < (b.apply disk operation).repository.fileSets.length := by
      rw [length_fileSets_apply]
      omega
    rw [run_cons, ih _ hindex', fileSet?_apply disk b operation hindex, List.filterMap_cons]
    cases operation.addressed? index <;> simp [Function.comp_def]

/-- A call that does nothing where it is made can be left out of a run. -/
theorem run_without {before : List Operation} {operation : Operation} (after : List Operation)
    (hnothing : (b.run disk before).apply disk operation = b.run disk before) :
    b.run disk (before ++ operation :: after) = b.run disk (before ++ after) := by
  rw [run_append, run_append, run_cons, hnothing]

/-- The file set that a call adds follows the calls after that which are addressed to it. -/
theorem fileSet?_run_addFileSet (name : Option String) (id : Option FileSetId)
    (operations : List Operation) :
    (b.run disk (.addFileSet name id :: operations)).fileSet? b.repository.fileSets.length
      = some ((operations.filterMap (Operation.addressed? b.repository.fileSets.length)).foldl
          (FileSet.apply disk) { name, id := id.getD (.uuid b.ids.next) }) := by
  have hnew := b.fileSet?_addFileSet name id
  have hindex : b.repository.fileSets.length < (b.addFileSet name id).repository.fileSets.length :=
    (List.getElem?_eq_some_iff.1 hnew).1
  rw [run_cons, apply, fileSet?_run disk _ operations hindex, hnew, Option.map_some]

/-! ## Runs of a new builder -/

theorem packageType?_ofPackageType (t : PackageType) :
    (Property.ofPackageType t).packageType? = some t := by
  cases t <;> rfl

/-- After any sequence of calls a new builder has a property for each call that set a package type,
with that type and in the order of the calls, and a file set for each call that added one, under its
name and identifier. The package and the files of a file set come from the calls after that which
were addressed to it, and from nothing else. Calls that only look, and calls for a file set that is
not there, change nothing; so calls for two file sets may change places, and what is done to one
file set, well or badly, leaves all else as it was. -/
theorem run_outcome (ids : IdSupply) (operations : List Operation) :
    let b := run disk { ids } operations
    (b.repository.properties
        = (operations.filterMap Operation.packageType?).map Property.ofPackageType ∧
      b.repository.packageTypes = operations.filterMap Operation.packageType?) ∧
    b.repository.fileSets.length = operations.countP Operation.addsFileSet ∧
    (∀ (before : List Operation) (name : Option String) (id : Option FileSetId)
        (after : List Operation), operations = before ++ Operation.addFileSet name id :: after →
      let index := before.countP Operation.addsFileSet
      let new : FileSet :=
        { name, id := id.getD (.uuid (ids.draw (before.countP Operation.drawsId))) }
      ∃ s, b.fileSet? index = some s ∧ s.name = new.name ∧ s.id = new.id ∧
        s = (after.filterMap (Operation.addressed? index)).foldl (FileSet.apply disk) new) ∧
    (∀ (before : List Operation) (operation : Operation) (after : List Operation),
      operations = before ++ operation :: after →
      (operation.looks = true ∨ ∃ index change, operation = Operation.onFileSet index change ∧
        before.countP Operation.addsFileSet ≤ index) →
      b = run disk { ids } (before ++ after)) ∧
    (∀ (before : List Operation) (i : Nat) (change : FileSetOperation) (j : Nat)
      (change' : FileSetOperation) (after : List Operation), i ≠ j →
      operations
        = before ++ Operation.onFileSet i change :: Operation.onFileSet j change' :: after →
      b = run disk { ids }
        (before ++ Operation.onFileSet j change' :: Operation.onFileSet i change :: after)) ∧
    ∀ (index : Nat) (change : FileSetOperation),
      let b' := b.apply disk (.onFileSet index change)
      b'.repository.properties = b.repository.properties ∧
      b'.repository.fileSets.length = b.repository.fileSets.length ∧ b'.ids = b.ids ∧
      ∀ other, other ≠ index → b'.fileSet? other = b.fileSet? other := by
  intro b
  have hproperties : b.repository.properties
      = (operations.filterMap Operation.packageType?).map Property.ofPackageType :=
    properties_run disk { ids } operations
  have hlength (before : List Operation) : (run disk { ids } before).repository.fileSets.length
      = before.countP Operation.addsFileSet := by
    rw [length_fileSets_run]
    exact Nat.zero_add _
  refine ⟨⟨hproperties, ?_⟩, hlength operations, ?_, ?_, ?_, ?_⟩
  · rw [Repository.packageTypes, hproperties, List.filterMap_map]
    simp only [Function.comp_def, packageType?_ofPackageType, List.filterMap_some]
  · intro before name id after hoperations index new
    -- the file set is the first to be added after the calls before
    have hset := fileSet?_run_addFileSet disk (run disk { ids } before) name id after
    rw [← run_append, ← hoperations, hlength before, ids_run] at hset
    obtain ⟨hname, hid⟩ := FileSet.name_and_id_foldl_apply disk new
      (after.filterMap (Operation.addressed? index))
    exact ⟨_, hset, hname, hid, rfl⟩
  · intro before operation after hoperations hneutral
    show run disk { ids } operations = _
    rw [hoperations]
    refine run_without disk _ after ?_
    -- a call that only looks does nothing anywhere, and a call for a missing file set nothing here
    rcases hneutral with hlooks | ⟨index, change, rfl, hindex⟩
    · cases operation with
      | finalize | finalizeWith | validate => rfl
      | setPackageType | addFileSet | onFileSet => cases hlooks
    · exact changeFileSet_of_length_le _ _ (hlength before ▸ hindex)
  · intro before i change j change' after hij hoperations
    show run disk { ids } operations = _
    rw [hoperations, run_append, run_append]
    simp only [run_cons, apply, changeFileSet_comm _ hij]
  · intro index change
    exact b.changeFileSet_frame index _

/-- A call for the second file set before there is one is lost, and a walk of the first that fails
does not disturb the second. -/
theorem run_outcome_interleaved :
    let disk : Disk := ⟨.directory {} [], []⟩
    let ids : IdSupply := ⟨fun _ => 0, 0⟩
    let first : Operation := .addFileSet none none
    let lost : Operation := .onFileSet 1 (.addFile ⟨"early", none⟩)
    let second : Operation := .addFileSet (some "n") (some (.raw "i"))
    let failing : Operation := .onFileSet 0 (.addFilesUnder [47, 120] "")
    let added : Operation := .onFileSet 1 (.addFile ⟨"b", none⟩)
    let sorted : Operation := .onFileSet 1 .sortFiles
    let b := run disk { ids } [first, lost, second, failing, added, .validate, sorted]
    b.repository.properties = [] ∧
      b = run disk { ids } [first, second, failing, added, .validate, sorted] ∧
      b = run disk { ids } [first, lost, second, added, failing, .validate, sorted] ∧
      ∃ s, b.fileSet? 1 = some s ∧ s.name = some "n" ∧
        s = (FileSet.mk (some "n") (.raw "i") none [⟨"b", none⟩]).sortFiles := by
  intro disk ids first lost second failing added sorted b
  obtain ⟨⟨hproperties, -⟩, -, hsets, hneutral, hcomm, -⟩ :=
    run_outcome disk ids [first, lost, second, failing, added, .validate, sorted]
  refine ⟨hproperties, ?_, ?_, ?_⟩
  · exact hneutral [first] lost _ rfl (.inr ⟨1, _, rfl, Nat.le_refl 1⟩)
  · exact hcomm [first, lost, second] 0 _ 1 _ [.validate, sorted] (by decide) rfl
  · obtain ⟨s, hs, hname, -, heq⟩ := hsets [first, lost] (some "n") (some (.raw "i"))
      [failing, added, .validate, sorted] rfl
    exact ⟨s, hs, hname, heq⟩

end Builder

end InstallManifest
