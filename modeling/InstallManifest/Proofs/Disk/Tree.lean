import InstallManifest.Disk.Access
import Mathlib.Data.List.Nodup

/-!
# Trees of directories

What names lead to in a tree, step by step and without following links. In a proper tree, as every
real disk holds one, names are not empty and have no slash, and no directory has two entries of one
name, so names lead to one thing at most.
-/

namespace InstallManifest.Disk

open Utf8 (Bytes)

namespace Node

/-- Whether names lead from one node to another, each of them to an entry of a directory. -/
def Reaches : Node → List Bytes → Node → Prop
  | n, [], m => m = n
  | n, name :: names, m => ∃ c, (name, c) ∈ n.entries ∧ c.Reaches names m

@[simp] theorem reaches_nil_iff {n m : Node} : n.Reaches [] m ↔ m = n := Iff.rfl

@[simp] theorem reaches_cons_iff {n m : Node} {name : Bytes} {names : List Bytes} :
    n.Reaches (name :: names) m ↔ ∃ c, (name, c) ∈ n.entries ∧ c.Reaches names m := Iff.rfl

/-- Names that lead on are put behind those that lead there. -/
theorem Reaches.append {n m k : Node} {names more : List Bytes} (hm : n.Reaches names m)
    (hk : m.Reaches more k) : n.Reaches (names ++ more) k := by
  induction names generalizing n with
  | nil => exact reaches_nil_iff.1 hm ▸ hk
  | cons name names ih =>
    obtain ⟨c, hc, hm⟩ := hm
    exact ⟨c, hc, ih hm⟩

theorem entries_of_isDirectory_eq_false {n : Node} (h : n.isDirectory = false) :
    n.entries = [] := by
  cases n with
  | directory access es => cases h
  | file | sink | link => rfl

/-- From anything but a directory no names lead on. -/
theorem Reaches.eq_of_isDirectory_eq_false {n m : Node} {names : List Bytes}
    (h : n.Reaches names m) (hn : n.isDirectory = false) : names = [] ∧ m = n := by
  cases names with
  | nil => exact ⟨rfl, h⟩
  | cons name names =>
    obtain ⟨c, hc, -⟩ := h
    rw [entries_of_isDirectory_eq_false hn] at hc
    cases hc

/-- Whether all names in a tree are such as a disk has them. -/
def IsProper (n : Node) : Prop :=
  ∀ names m, n.Reaches names m →
    (m.entries.map Prod.fst).Nodup ∧ ∀ entry ∈ m.entries, entry.1 ≠ [] ∧ slash ∉ entry.1

namespace IsProper

variable {n m : Node} {names : List Bytes}

/-- What is somewhere in a proper tree is proper. -/
theorem of_reaches (h : n.IsProper) (hm : n.Reaches names m) : m.IsProper :=
  fun _ _ hk => h _ _ (hm.append hk)

theorem nodup (h : n.IsProper) : (n.entries.map Prod.fst).Nodup := (h [] n rfl).1

theorem of_mem_entries {name : Bytes} (h : n.IsProper) (hm : (name, m) ∈ n.entries) :
    m.IsProper := by
  have hreaches : n.Reaches [name] m := ⟨m, hm, rfl⟩
  exact h.of_reaches hreaches

/-- The names that lead through a proper tree are not empty and have no slash. -/
theorem of_mem_names (h : n.IsProper) (hm : n.Reaches names m) {name : Bytes}
    (hname : name ∈ names) : name ≠ [] ∧ slash ∉ name := by
  -- each name is of an entry in the directory that those before it lead to
  induction names generalizing n with
  | nil => cases hname
  | cons first names ih =>
    obtain ⟨c, hc, hm⟩ := hm
    rcases List.mem_cons.1 hname with rfl | hname
    · exact (h [] n rfl).2 _ hc
    · exact ih (h.of_mem_entries hc) hm hname

end IsProper

theorem isProper_of_isDirectory_eq_false {n : Node} (h : n.isDirectory = false) : n.IsProper := by
  intro names m hm
  obtain ⟨-, rfl⟩ := hm.eq_of_isDirectory_eq_false h
  rw [entries_of_isDirectory_eq_false h]
  exact ⟨List.nodup_nil, nofun⟩

/-- A directory is proper if the names of its entries are, and what they lead to is proper. -/
theorem isProper_directory_iff {access : Access} {es : List (Bytes × Node)} :
    (directory access es).IsProper ↔ (es.map Prod.fst).Nodup ∧
      ∀ entry ∈ es, entry.1 ≠ [] ∧ slash ∉ entry.1 ∧ entry.2.IsProper := by
  constructor
  · intro h
    refine ⟨h.nodup, fun entry hentry => ?_⟩
    obtain ⟨hne, hslash⟩ := (h [] (directory access es) rfl).2 entry hentry
    exact ⟨hne, hslash, h.of_mem_entries hentry⟩
  · rintro ⟨hnodup, hentries⟩ names m hm
    cases names with
    | nil =>
      rw [reaches_nil_iff.1 hm]
      exact ⟨hnodup, fun entry h => ⟨(hentries entry h).1, (hentries entry h).2.1⟩⟩
    | cons name names =>
      obtain ⟨c, hc, hm⟩ := hm
      exact (hentries _ hc).2.2 names m hm

/-! ## Look-ups -/

/-- A name that is found is that of an entry. -/
theorem mem_entries_of_child? {n m : Node} {name : Bytes} (h : n.child? name = some m) :
    (name, m) ∈ n.entries := by
  unfold child? at h
  generalize n.entries = es at h ⊢
  induction es with
  | nil => cases h
  | cons entry es ih =>
    rw [List.lookup_cons] at h
    split at h
    -- the first entry with the name is the one that is found
    · next heq =>
      cases h
      exact List.mem_cons.2 (.inl (Prod.ext (eq_of_beq heq) rfl))
    · exact List.mem_cons_of_mem _ (ih h)

/-- In a directory without two entries of one name, each entry is found by its name. -/
theorem child?_of_mem_entries {n m : Node} {name : Bytes} (hnodup : (n.entries.map Prod.fst).Nodup)
    (hm : (name, m) ∈ n.entries) : n.child? name = some m := by
  unfold child?
  generalize n.entries = es at hnodup hm
  induction es with
  | nil => cases hm
  | cons entry es ih =>
    rw [List.map_cons, List.nodup_cons] at hnodup
    rw [List.lookup_cons]
    rcases List.mem_cons.1 hm with rfl | hm
    · simp
    · have hne : name ≠ entry.1 := fun h => hnodup.1 (h ▸ List.mem_map_of_mem hm)
      rw [beq_eq_false_iff_ne.2 hne]
      exact ih hnodup.2 hm

/-- What is found by names is where they lead. -/
theorem reaches_of_get? {n m : Node} {names : List Bytes} (h : n.get? names = some m) :
    n.Reaches names m := by
  induction names generalizing n with
  | nil =>
    rw [get?, Option.some_inj] at h
    exact h.symm
  | cons name names ih =>
    obtain ⟨c, hc, hm⟩ := Option.bind_eq_some_iff.1 h
    exact ⟨c, mem_entries_of_child? hc, ih hm⟩

/-- In a proper tree looking names up and being led by them are the same. -/
theorem IsProper.get?_eq_some_iff {n m : Node} {names : List Bytes} (h : n.IsProper) :
    n.get? names = some m ↔ n.Reaches names m := by
  refine ⟨reaches_of_get?, fun hm => ?_⟩
  induction names generalizing n with
  | nil => rw [get?, reaches_nil_iff.1 hm]
  | cons name names ih =>
    obtain ⟨c, hc, hm⟩ := hm
    rw [get?, child?_of_mem_entries h.nodup hc]
    exact ih (h.of_mem_entries hc) hm

/-- Names are looked up one after the other. -/
theorem get?_append {n : Node} (names more : List Bytes) :
    n.get? (names ++ more) = (n.get? names).bind (·.get? more) := by
  induction names generalizing n with
  | nil => rfl
  | cons name names ih =>
    rw [List.cons_append, get?, get?]
    cases n.child? name with
    | none => rfl
    | some c => exact ih

/-- The last name is looked up in what those before it lead to. -/
theorem get?_concat {n : Node} (names : List Bytes) (name : Bytes) :
    n.get? (names ++ [name]) = (n.get? names).bind (·.child? name) := by
  rw [get?_append]
  simp [get?]

end Node

variable {disk : Disk}

/-! ## Searches, one step at a time -/

section

variable {followLast : Bool} {links : Nat} {here : List Bytes} {name : Bytes} {rest : List Step}
  {node : Node}

theorem search_nil (h : disk.root.get? here = some node) :
    search disk followLast links here [] = .ok ⟨here, node, links⟩ := by
  rw [search, h]

/-- To stay is to take no step, but it asks for a directory that may be passed through. -/
theorem search_stay (hbars : ¬ disk.bars here = true) :
    search disk followLast links here (.stay :: rest) = search disk followLast links here rest := by
  rw [search, if_neg hbars]

/-- To go up is to leave out the last name. Above the root there is nothing but the root. -/
theorem search_up (hbars : ¬ disk.bars here = true) :
    search disk followLast links here (.up :: rest)
      = search disk followLast links here.dropLast rest := by
  rw [search, if_neg hbars]

/-- A search for an entry that is no link goes on in it or ends there. -/
theorem search_entry (hbars : ¬ disk.bars here = true) (hshort : ¬ name.length > maxName)
    (hnode : (disk.root.get? here).bind (·.child? name) = some node)
    (hlink : ∀ target, node = .link target → False) :
    search disk followLast links here (.entry name :: rest)
      = if node.isDirectory then search disk followLast links (here ++ [name]) rest
        else if rest.isEmpty then .ok ⟨here ++ [name], node, links⟩ else .error .notDirectory := by
  rw [search, if_neg hbars, if_neg hshort, hnode]
  cases node with
  -- a link is followed, and not what is asked for here
  | link target => exact (hlink target rfl).elim
  | _ => rfl

/-- A search goes on in a directory that it finds. -/
theorem search_directory {access : Access} {es : List (Bytes × Node)}
    (hbars : ¬ disk.bars here = true) (hshort : ¬ name.length > maxName)
    (hnode : (disk.root.get? here).bind (·.child? name) = some (.directory access es)) :
    search disk followLast links here (.entry name :: rest)
      = search disk followLast links (here ++ [name]) rest :=
  search_entry hbars hshort hnode nofun

/-- A link is followed by taking its target in its place, from where the link stands. -/
theorem search_link {target : Bytes} (hbars : ¬ disk.bars here = true)
    (hshort : ¬ name.length > maxName)
    (hnode : (disk.root.get? here).bind (·.child? name) = some (.link target)) :
    search disk true (links + 1) here (.entry name :: rest)
      = search disk true links (if (Path.ofBytes target).absolute then [] else here)
          ((Path.ofBytes target).lookupSteps ++ rest) := by
  rw [search, if_neg hbars, if_neg hshort, hnode]
  simp

/-- A search for what is not there ends with that fault, whatever steps would come after it. -/
theorem search_missing (hbars : ¬ disk.bars here = true) (hshort : ¬ name.length > maxName)
    (hnode : (disk.root.get? here).bind (·.child? name) = none) :
    search disk followLast links here (.entry name :: rest) = .error .notFound := by
  rw [search, if_neg hbars, if_neg hshort, hnode]

end

/-- Whether a path leads to a directory is told by what is found there. -/
theorem isDirectory_of_find {p : Path} {place : Place} (h : disk.find true p = .ok place) :
    disk.isDirectory p = place.node.isDirectory := by
  rw [isDirectory, h]

theorem isDirectory_of_find_error {p : Path} {fault : Fault} (h : disk.find true p = .error fault) :
    disk.isDirectory p = false := by
  rw [isDirectory, h]

/-! ## What searches find -/

/-- What a search finds is in the tree, at the names that it tells. -/
theorem get?_of_search {followLast : Bool} {links : Nat} {here : List Bytes} {steps : List Step}
    {place : Place} (h : search disk followLast links here steps = .ok place) :
    disk.root.get? place.names = some place.node := by
  fun_induction search disk followLast links here steps with
  | case1 _ _ _ hnode => cases h; exact hnode
  -- these go on with a search for the other steps
  | case3 | case5 | case7 | case13 | case14 => rename_i ih; exact ih h
  -- the search ends at a link that is not followed, or at what is no directory
  | case11 =>
    rename_i hchild _
    cases h
    exact (Node.get?_concat ..).trans hchild
  | case15 =>
    rename_i hchild _ _
    cases h
    exact (Node.get?_concat ..).trans hchild
  -- these end with a fault
  | case2 | case4 | case6 | case8 | case9 | case10 | case12 | case16 => cases h

/-- What a path leads to is in the tree, at the names that are told. -/
theorem get?_of_find {followLast : Bool} {p : Path} {place : Place}
    (h : disk.find followLast p = .ok place) : disk.root.get? place.names = some place.node := by
  unfold find at h
  split at h
  · cases h
  · exact get?_of_search h

end InstallManifest.Disk
