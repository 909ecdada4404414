import InstallManifest.Proofs.Disk.Walk
import InstallManifest.Proofs.Outcome

/-!
# The order of listings

A disk keeps the entries of a directory in the order in which a listing gives them. Two disks that
differ in nothing but that order lead every path to the same thing, and a walk of one finds what the
same walk of the other finds, in some order.
-/

namespace InstallManifest.Disk

open Utf8 (Bytes)

namespace Node

/-- What a node is, whatever its entries are. -/
def bare : Node → Node
  | directory access _ => directory access []
  | n => n

theorem isDirectory_bare (n : Node) : n.bare.isDirectory = n.isDirectory := by cases n <;> rfl

theorem isLink_bare (n : Node) : n.bare.isLink = n.isLink := by cases n <;> rfl

theorem access_bare (n : Node) : n.bare.access = n.access := by cases n <;> rfl

theorem bare_eq_link_iff {n : Node} {target : Bytes} : n.bare = link target ↔ n = link target := by
  cases n <;> simp [bare]

/-- Whether the same names lead to the same things in two trees, but for the order of entries. -/
def SameBelow (n n' : Node) : Prop := ∀ names, (n.get? names).map bare = (n'.get? names).map bare

theorem SameBelow.bare_eq {n n' : Node} (h : n.SameBelow n') : n.bare = n'.bare :=
  Option.some_inj.1 (h [])

theorem SameBelow.get? {n n' m m' : Node} {names : List Bytes} (h : n.SameBelow n')
    (hm : n.get? names = some m) (hm' : n'.get? names = some m') : m.SameBelow m' := by
  intro more
  have hmore := h (names ++ more)
  rwa [get?_append, get?_append, hm, hm'] at hmore

/-- What is somewhere in one tree has its match in the other. -/
theorem SameBelow.exists_get? {n n' m : Node} {names : List Bytes} (h : n.SameBelow n')
    (hm : n.get? names = some m) : ∃ m', n'.get? names = some m' ∧ m'.bare = m.bare := by
  have hnames := h names
  rw [hm] at hnames
  exact Option.map_eq_some_iff.1 hnames.symm

theorem SameBelow.symm {n n' : Node} (h : n.SameBelow n') : n'.SameBelow n :=
  fun names => (h names).symm

/-- Entries in another order make no difference below. -/
theorem sameBelow_of_perm (access : Access) {es es' : List (Bytes × Node)}
    (hnodup : (es.map Prod.fst).Nodup) (hperm : es.Perm es') :
    (directory access es).SameBelow (directory access es') := by
  have hnodup' : (es'.map Prod.fst).Nodup := (hperm.map Prod.fst).nodup hnodup
  -- names differ, so the entry of a name is found in any order
  have hchild (name : Bytes) :
      (directory access es).child? name = (directory access es').child? name := by
    ext m
    constructor
    · intro h
      exact child?_of_mem_entries hnodup' (hperm.mem_iff.1 (mem_entries_of_child? h))
    · intro h
      exact child?_of_mem_entries hnodup (hperm.mem_iff.2 (mem_entries_of_child? h))
  intro names
  cases names with
  | nil => rfl
  | cons name names => rw [Node.get?, Node.get?, hchild]

/-- Nor does it make a difference above if it makes none below one entry. -/
theorem sameBelow_cons (access : Access) (name : Bytes) {n n' : Node} (h : n.SameBelow n')
    (es : List (Bytes × Node)) :
    (directory access ((name, n) :: es)).SameBelow (directory access ((name, n') :: es)) := by
  intro names
  cases names with
  | nil => rfl
  | cons first names =>
    simp only [Node.get?, child?, entries, List.lookup_cons]
    cases first == name with
    | true => exact h names
    | false => rfl

end Node

/-- Whether two disks differ in nothing but the order in which directories are listed. -/
structure SameButForOrder (disk disk' : Disk) : Prop where
  root : disk.root.SameBelow disk'.root
  workingDirectory : disk.workingDirectory = disk'.workingDirectory

namespace SameButForOrder

variable {disk disk' : Disk}

theorem symm (h : disk.SameButForOrder disk') : disk'.SameButForOrder disk :=
  ⟨h.root.symm, h.workingDirectory.symm⟩

/-! ## Finding -/

/-- What is known of a place without the entries there. -/
def outline (place : Place) : List Bytes × Node × Nat := (place.names, place.node.bare, place.links)

theorem child?_eq_none (h : disk.SameButForOrder disk') {here : List Bytes} {name : Bytes}
    (hnone : (disk.root.get? here).bind (·.child? name) = none) :
    (disk'.root.get? here).bind (·.child? name) = none := by
  have hnames := h.root (here ++ [name])
  rw [Node.get?_concat, Node.get?_concat, hnone] at hnames
  exact Option.map_eq_none_iff.1 hnames.symm

theorem exists_child? (h : disk.SameButForOrder disk') {here : List Bytes} {name : Bytes}
    {node : Node} (hsome : (disk.root.get? here).bind (·.child? name) = some node) :
    ∃ node', (disk'.root.get? here).bind (·.child? name) = some node' ∧ node'.bare = node.bare := by
  rw [← Node.get?_concat] at hsome ⊢
  exact h.root.exists_get? hsome

/-- A link is the same on both disks. -/
theorem child?_eq_link (h : disk.SameButForOrder disk') {here : List Bytes} {name target : Bytes}
    (hsome : (disk.root.get? here).bind (·.child? name) = some (.link target)) :
    (disk'.root.get? here).bind (·.child? name) = some (.link target) := by
  obtain ⟨node', hnode', hbare⟩ := h.exists_child? hsome
  rw [hnode', Node.bare_eq_link_iff.1 hbare]

/-- The same directories bar the way on both disks. -/
theorem bars_eq (h : disk.SameButForOrder disk') (here : List Bytes) :
    disk.bars here = disk'.bars here := by
  have hhere := congrArg (Option.any (!·.access.pass)) (h.root here)
  simpa only [bars, Option.any_map, Function.comp_def, Node.access_bare] using hhere

/-- A search takes the same way on both disks. -/
theorem search_eq (h : disk.SameButForOrder disk') (followLast : Bool) (links : Nat)
    (here : List Bytes) (steps : List Step) :
    (search disk followLast links here steps).map outline
      = (search disk' followLast links here steps).map outline := by
  -- what is no link on one disk is none on the other, and a directory if it is one there
  have hother {node node' : Node} (hbare : node'.bare = node.bare)
      (hlink : ∀ target, node = .link target → False) :
      (∀ target, node' = .link target → False) ∧ node'.isDirectory = node.isDirectory := by
    refine ⟨fun target htarget => hlink target ?_, ?_⟩
    · exact Node.bare_eq_link_iff.1 (hbare ▸ Node.bare_eq_link_iff.2 htarget)
    · rw [← Node.isDirectory_bare, hbare, Node.isDirectory_bare]
  fun_induction search disk followLast links here steps with
  | case1 links here node hnode =>
    obtain ⟨node', hnode', hbare⟩ := h.root.exists_get? hnode
    rw [search, hnode']
    simp [Except.map, outline, hbare]
  | case2 links here hnone =>
    have hnone' : disk'.root.get? here = none := by
      have hnames := h.root here
      rw [hnone] at hnames
      exact Option.map_eq_none_iff.1 hnames.symm
    rw [search, hnone']
  | case3 links here rest ih => rw [search, ih]
  | case4 links here rest hbars => rw [search, ← h.bars_eq, if_pos hbars]
  | case5 links here rest hbars ih => rw [search, ← h.bars_eq, if_neg hbars, ih]
  | case6 links here rest hbars => rw [search, ← h.bars_eq, if_pos hbars]
  | case7 links here rest hbars ih => rw [search, ← h.bars_eq, if_neg hbars, ih]
  | case8 links here name rest hbars => rw [search, ← h.bars_eq, if_pos hbars]
  | case9 links here name rest hbars hlong =>
    rw [search, ← h.bars_eq, if_neg hbars, if_pos hlong]
  | case10 links here name rest hbars hshort hnone =>
    rw [search, ← h.bars_eq, if_neg hbars, if_neg hshort, h.child?_eq_none hnone]
  | case11 links here name rest hbars hshort target hlink hlast =>
    rw [search, ← h.bars_eq, if_neg hbars, if_neg hshort, h.child?_eq_link hlink]
    simp only [hlast, if_true]
  | case12 here name rest hbars hshort target hlink hlast =>
    rw [search, ← h.bars_eq, if_neg hbars, if_neg hshort, h.child?_eq_link hlink]
    simp only [hlast]
    rfl
  | case13 here name rest hbars hshort target hlink hlast links path ih =>
    rw [dite_eq_ite] at ih
    rw [search, ← h.bars_eq, if_neg hbars, if_neg hshort, h.child?_eq_link hlink]
    simp only [hlast]
    exact ih
  | case14 links here name rest hbars hshort node hlink hnode hdirectory ih =>
    obtain ⟨node', hnode', hbare⟩ := h.exists_child? hnode
    obtain ⟨hlink', hdirectory'⟩ := hother hbare hlink
    rw [ih, search_entry (h.bars_eq here ▸ hbars) hshort hnode' hlink', hdirectory',
      if_pos hdirectory]
  | case15 links here name rest hbars hshort node hlink hnode hdirectory hlast =>
    obtain ⟨node', hnode', hbare⟩ := h.exists_child? hnode
    obtain ⟨hlink', hdirectory'⟩ := hother hbare hlink
    rw [search_entry (h.bars_eq here ▸ hbars) hshort hnode' hlink', hdirectory',
      if_neg hdirectory, if_pos hlast]
    simp [Except.map, outline, hbare]
  | case16 links here name rest hbars hshort node hlink hnode hdirectory hlast =>
    obtain ⟨node', hnode', hbare⟩ := h.exists_child? hnode
    obtain ⟨hlink', hdirectory'⟩ := hother hbare hlink
    rw [search_entry (h.bars_eq here ▸ hbars) hshort hnode' hlink', hdirectory',
      if_neg hdirectory, if_neg hlast]

theorem find_eq (h : disk.SameButForOrder disk') (followLast : Bool) (p : Path) :
    (disk.find followLast p).map outline = (disk'.find followLast p).map outline := by
  unfold find start
  rw [h.workingDirectory]
  cases pathFault? p with
  | some fault => rfl
  | none => exact h.search_eq followLast maxLinks _ p.lookupSteps

theorem exists_find (h : disk.SameButForOrder disk') {followLast : Bool} {p : Path} {place : Place}
    (hplace : disk.find followLast p = .ok place) :
    ∃ place', disk'.find followLast p = .ok place' ∧ place.node.SameBelow place'.node := by
  have hfind := h.find_eq followLast p
  rw [hplace] at hfind
  obtain ⟨place', hplace', houtline⟩ := map_eq_ok_iff.1 hfind.symm
  -- both searches end at the same names
  refine ⟨place', hplace', h.root.get? (get?_of_find hplace) ?_⟩
  rw [← (Prod.mk.inj houtline).1]
  exact get?_of_find hplace'

theorem isDirectory_eq (h : disk.SameButForOrder disk') (p : Path) :
    disk.isDirectory p = disk'.isDirectory p := by
  have hfind := h.find_eq true p
  unfold isDirectory
  -- what leads nowhere on one disk leads nowhere on the other
  cases hplace : disk.find true p with
  | error fault =>
    rw [hplace] at hfind
    rw [map_eq_error_iff.1 hfind.symm]
  | ok place =>
    obtain ⟨place', hplace', hsame⟩ := h.exists_find hplace
    rw [hplace']
    show place.node.isDirectory = place'.node.isDirectory
    rw [← Node.isDirectory_bare, hsame.bare_eq, Node.isDirectory_bare]

/-! ## Walking -/

variable {base : Bytes} {place place' : Place}

theorem isListed_of_isListed (h : disk.SameButForOrder disk') {top top' : Node}
    (hsame : top.SameBelow top') (hproper : top.IsProper) {names : List Bytes}
    (hlisted : disk.IsListed base top names) : disk'.IsListed base top' names := by
  obtain ⟨hne, n, hn, hdirectory, hlink⟩ := hlisted
  obtain ⟨n', hn', hbare⟩ := hsame.exists_get? (hproper.get?_eq_some_iff.2 hn)
  refine ⟨hne, n', Node.reaches_of_get? hn', ?_, fun hlink' => ?_⟩
  · rw [← Node.isDirectory_bare, hbare, Node.isDirectory_bare, hdirectory]
  · rw [← h.isDirectory_eq]
    refine hlink ?_
    rw [← Node.isLink_bare, ← hbare, Node.isLink_bare, hlink']

/-- What can be opened on one disk can be opened on the other. -/
theorem isReadableBelow_of_isReadableBelow {top top' : Node} (hsame : top.SameBelow top')
    (hproper' : top'.IsProper) (hreadable : IsReadableBelow base top) :
    IsReadableBelow base top' := by
  -- each directory has its match, with the same access
  have hmatch {names : List Bytes} {n' : Node} (hn' : top'.Reaches names n') :
      ∃ n, top.get? names = some n ∧ n.access = n'.access ∧ n.isDirectory = n'.isDirectory := by
    obtain ⟨n, hn, hbare⟩ := hsame.symm.exists_get? (hproper'.get?_eq_some_iff.2 hn')
    refine ⟨n, hn, ?_, ?_⟩
    · rw [← Node.access_bare, hbare, Node.access_bare]
    · rw [← Node.isDirectory_bare, hbare, Node.isDirectory_bare]
  refine ⟨fun names n' hn' => ?_, fun names n' hne hn' hdirectory => ?_,
    fun names n' name c' hn' hc' hdirectory => ?_⟩
  · obtain ⟨n, hn, haccess, -⟩ := hmatch hn'
    exact haccess ▸ hreadable.list names n (Node.reaches_of_get? hn)
  · obtain ⟨n, hn, -, hsort⟩ := hmatch hn'
    exact hreadable.short names n hne (Node.reaches_of_get? hn) (hsort ▸ hdirectory)
  · obtain ⟨n, hn, haccess, -⟩ := hmatch hn'
    have hchild : top'.Reaches (names ++ [name]) c' := hn'.append ⟨c', hc', rfl⟩
    obtain ⟨c, hc, -, hsort⟩ := hmatch hchild
    -- the match of an entry is an entry of the match
    rw [Node.get?_concat, hn, Option.bind_some] at hc
    exact haccess ▸ hreadable.pass names n name c (Node.reaches_of_get? hn)
      (Node.mem_entries_of_child? hc) (hsort ▸ hdirectory)

/-- Either no walk ends early, and both find the same things in some order, or both end early. -/
theorem walk_perm (h : disk.SameButForOrder disk') (hproper : disk.root.IsProper)
    (hproper' : disk'.root.IsProper) (hfault : (disk.walk base).fault = none) :
    (disk'.walk base).fault = none ∧ (disk.walk base).found.Perm (disk'.walk base).found := by
  cases hplace : disk.find true (.ofBytes base) with
  | error fault =>
    rw [walk, hplace] at hfault
    cases hfault
  | ok place =>
    obtain ⟨place', hplace', hsame⟩ := h.exists_find hplace
    have htop := isProper_of_find hplace hproper
    have htop' := isProper_of_find hplace' hproper'
    have hfault' : (disk'.walk base).fault = none :=
      (fault_walk_eq_none_iff hplace').2
        (isReadableBelow_of_isReadableBelow hsame htop' ((fault_walk_eq_none_iff hplace).1 hfault))
    -- both walks find just what is to be listed, and nothing twice
    refine ⟨hfault', (List.perm_ext_iff_of_nodup (nodup_walk hplace hproper)
      (nodup_walk hplace' hproper')).2 fun names => ?_⟩
    constructor
    · intro hin
      exact mem_walk_of_isListed hplace' hfault'
        (h.isListed_of_isListed hsame htop (isListed_of_mem_walk hplace hin))
    · intro hin'
      exact mem_walk_of_isListed hplace hfault
        (h.symm.isListed_of_isListed hsame.symm htop' (isListed_of_mem_walk hplace' hin'))

end SameButForOrder

end InstallManifest.Disk
