import InstallManifest.Disk.Walk
import InstallManifest.Proofs.Disk.Tree
import Mathlib.Tactic.SplitIfs

/-!
# What a walk finds

A walk finds what names lead to below its base, but for directories and links to them, and each of
these once. It ends early if and only if some directory, the base or one below, cannot be opened.
Whatever it found until then belongs there.
-/

namespace InstallManifest.Disk

open Utf8 (Bytes)

/-- The path that names lead to from a base. -/
def pathBelow (base : Bytes) (names : List Bytes) : Bytes := names.foldl joinBytes base

namespace Node

def isLink : Node → Bool
  | link _ => true
  | _ => false

end Node

variable (disk : Disk)

/-- Whether a walk is about a node at a path: it is no directory, and no link that leads to one. -/
def Concerns (path : Bytes) (n : Node) : Prop :=
  n.isDirectory = false ∧ (n.isLink = true → disk.isDirectory (.ofBytes path) = false)

/-- Whether names lead from a base, of the given node, to something below that a walk is about. -/
def IsListed (base : Bytes) (top : Node) (names : List Bytes) : Prop :=
  names ≠ [] ∧ ∃ n, top.Reaches names n ∧ disk.Concerns (pathBelow base names) n

/-- Whether every directory can be opened from a base on, which is of the given node: each may be
listed, those below have paths that are not too long, and paths may lead through each that holds
another. -/
structure IsReadableBelow (base : Bytes) (top : Node) : Prop where
  list : ∀ names n, top.Reaches names n → n.access.list = true
  short : ∀ names n, names ≠ [] → top.Reaches names n → n.isDirectory = true →
    (pathBelow base names).length ≤ maxPath
  pass : ∀ names n name c, top.Reaches names n → (name, c) ∈ n.entries → c.isDirectory = true →
    n.access.pass = true

/-- Whether a directory can be opened by its path, as far as that depends on those above it. -/
def IsOpened (pass : Bool) (path : Bytes) (n : Node) : Prop :=
  n.isDirectory = true → path.length ≤ maxPath ∧ pass = true

/-! ## Directories that can be opened -/

theorem isReadableBelow_of_isDirectory_eq_false {n : Node} (h : n.isDirectory = false)
    (base : Bytes) : IsReadableBelow base n where
  list names m hm := by
    obtain ⟨-, rfl⟩ := hm.eq_of_isDirectory_eq_false h
    cases m with
    | directory access es => cases h
    | file | sink | link => rfl
  short names m hne hm _ := absurd (hm.eq_of_isDirectory_eq_false h).1 hne
  pass names m name c hm hc _ := by
    obtain ⟨-, rfl⟩ := hm.eq_of_isDirectory_eq_false h
    rw [Node.entries_of_isDirectory_eq_false h] at hc
    cases hc

/-- From a directory on all can be opened if it may be listed, and from each entry on all can be
opened, the entry itself included. -/
theorem isReadableBelow_directory_iff {base : Bytes} {access : Access}
    {es : List (Bytes × Node)} :
    IsReadableBelow base (.directory access es) ↔ access.list = true ∧
      ∀ name c, (name, c) ∈ es →
        IsOpened access.pass (joinBytes base name) c ∧ IsReadableBelow (joinBytes base name) c := by
  constructor
  · intro h
    refine ⟨h.list [] _ rfl, fun name c hc => ⟨fun hdirectory => ?_, ?_, ?_, ?_⟩⟩
    · exact ⟨h.short [name] c (List.cons_ne_nil _ _) ⟨c, hc, rfl⟩ hdirectory,
        h.pass [] _ name c rfl hc hdirectory⟩
    -- what is below an entry is below the directory, by one name more
    · exact fun names n hn => h.list (name :: names) n ⟨c, hc, hn⟩
    · exact fun names n _ hn => h.short (name :: names) n (List.cons_ne_nil _ _) ⟨c, hc, hn⟩
    · exact fun names n name' c' hn => h.pass (name :: names) n name' c' ⟨c, hc, hn⟩
  -- names that lead anywhere lead to the directory itself, or through an entry
  · rintro ⟨hlist, hentries⟩
    refine ⟨fun names n hn => ?_, fun names n hne hn hdirectory => ?_,
      fun names n name' c' hn hc' hdirectory => ?_⟩
    · cases names with
      | nil => exact Node.reaches_nil_iff.1 hn ▸ hlist
      | cons name names =>
        obtain ⟨c, hc, hn⟩ := hn
        exact (hentries name c hc).2.list names n hn
    · cases names with
      | nil => exact absurd rfl hne
      | cons name names =>
        obtain ⟨c, hc, hn⟩ := hn
        cases names with
        | nil =>
          rw [Node.reaches_nil_iff.1 hn] at hdirectory
          exact ((hentries name c hc).1 hdirectory).1
        | cons next names =>
          exact (hentries name c hc).2.short _ n (List.cons_ne_nil _ _) hn hdirectory
    · cases names with
      | nil =>
        rw [Node.reaches_nil_iff.1 hn] at hc' ⊢
        exact ((hentries name' c' hc').1 hdirectory).2
      | cons name names =>
        obtain ⟨c, hc, hn⟩ := hn
        exact (hentries name c hc).2.pass names n name' c' hn hc' hdirectory

/-! ## One walk after another -/

namespace Walk

variable {first second : Walk}

/-- What two walks found was found by one of them. -/
theorem mem_found_andThen {names : List Bytes} (h : names ∈ (first.andThen second).found) :
    names ∈ first.found ∨ names ∈ second.found := by
  unfold andThen at h
  split at h
  · exact .inl h
  · exact List.mem_append.1 h

/-- Two walks come to their end if each of them does. -/
theorem fault_andThen_eq_none_iff :
    (first.andThen second).fault = none ↔ first.fault = none ∧ second.fault = none := by
  rw [andThen]
  split
  · next hfirst => simp [hfirst]
  · next hfirst => simp [hfirst]

/-- If the first walk comes to its end, the second adds what it finds. -/
theorem found_andThen (h : first.fault = none) :
    (first.andThen second).found = first.found ++ second.found := by
  rw [andThen, h]

/-- Two walks find nothing twice if neither does and they find different things. -/
theorem nodup_andThen (hfirst : first.found.Nodup) (hsecond : second.found.Nodup)
    (hdisjoint : ∀ names ∈ first.found, names ∉ second.found) :
    (first.andThen second).found.Nodup := by
  rw [andThen]
  split
  · exact hfirst
  · exact List.nodup_append'.2 ⟨hfirst, hsecond, fun names h h' => hdisjoint names h h'⟩

end Walk

/-! ## Nodes and entries

Every statement comes twice, as the walk does: for a node and for the entries of a directory. -/

mutual

/-- What is found at a node is below it and to be listed, also if the walk ended early. -/
theorem concerns_of_mem_walkNode (pass : Bool) (path : Bytes) (above : List Bytes)
    {found : List Bytes} :
    (n : Node) → found ∈ (walkNode disk pass path above n).found →
    ∃ names m, found = above ++ names ∧ n.Reaches names m ∧ disk.Concerns (pathBelow path names) m
  | .file content, h => by
    rw [walkNode, List.mem_singleton] at h
    exact ⟨[], .file content, by simp [h], rfl, rfl, nofun⟩
  | .sink, h => by
    rw [walkNode, List.mem_singleton] at h
    exact ⟨[], .sink, by simp [h], rfl, rfl, nofun⟩
  | .link target, h => by
    rw [walkNode] at h
    split at h
    · cases h
    · next hlink =>
      rw [List.mem_singleton] at h
      exact ⟨[], .link target, by simp [h], rfl, rfl, fun _ => Bool.eq_false_iff.2 hlink⟩
  | .directory access es, h => by
    rw [walkNode] at h
    split_ifs at h with hlong hopen
    · cases h
    · obtain ⟨name, c, names, m, hc, rfl, hm, hconcerns⟩ :=
        concerns_of_mem_walkEntries access.pass path above es h
      exact ⟨name :: names, m, rfl, ⟨c, hc, hm⟩, hconcerns⟩
    · cases h

theorem concerns_of_mem_walkEntries (pass : Bool) (path : Bytes) (above : List Bytes)
    {found : List Bytes} :
    (es : List (Bytes × Node)) → found ∈ (walkEntries disk pass path above es).found →
    ∃ name c names m, (name, c) ∈ es ∧ found = above ++ name :: names ∧ c.Reaches names m ∧
      disk.Concerns (pathBelow path (name :: names)) m
  | [], h => by cases h
  | (name, c) :: rest, h => by
    rw [walkEntries] at h
    rcases Walk.mem_found_andThen h with h | h
    · obtain ⟨names, m, rfl, hm, hconcerns⟩ :=
        concerns_of_mem_walkNode pass (joinBytes path name) (above ++ [name]) c h
      exact ⟨name, c, names, m, List.mem_cons_self, by simp, hm, hconcerns⟩
    · obtain ⟨name', c', names, m, hc', hfound, hm, hconcerns⟩ :=
        concerns_of_mem_walkEntries pass path above rest h
      exact ⟨name', c', names, m, List.mem_cons_of_mem _ hc', hfound, hm, hconcerns⟩

end

mutual

/-- A walk that did not end early found all that is below and to be listed. -/
theorem mem_walkNode (pass : Bool) (path : Bytes) (above : List Bytes) {names : List Bytes}
    {m : Node} :
    (n : Node) → (walkNode disk pass path above n).fault = none → n.Reaches names m →
    disk.Concerns (pathBelow path names) m →
    above ++ names ∈ (walkNode disk pass path above n).found
  | .file content, _, hm, _ => by
    obtain ⟨rfl, -⟩ := hm.eq_of_isDirectory_eq_false rfl
    simp [walkNode]
  | .sink, _, hm, _ => by
    obtain ⟨rfl, -⟩ := hm.eq_of_isDirectory_eq_false rfl
    simp [walkNode]
  | .link target, _, hm, hconcerns => by
    obtain ⟨rfl, rfl⟩ := hm.eq_of_isDirectory_eq_false rfl
    have hlink : disk.isDirectory (.ofBytes path) = false := hconcerns.2 rfl
    simp [walkNode, hlink]
  | .directory access es, hfault, hm, hconcerns => by
    rw [walkNode] at hfault ⊢
    split_ifs at hfault ⊢ with hlong hopen
    · cases hfault
    · cases names with
      | nil =>
        -- the directory itself is not listed
        rw [Node.reaches_nil_iff.1 hm] at hconcerns
        cases hconcerns.1
      | cons name names =>
        obtain ⟨c, hc, hm⟩ := hm
        exact mem_walkEntries access.pass path above es hfault hc hm hconcerns
    · cases hfault

theorem mem_walkEntries (pass : Bool) (path : Bytes) (above : List Bytes) {name : Bytes}
    {names : List Bytes} {c m : Node} :
    (es : List (Bytes × Node)) → (walkEntries disk pass path above es).fault = none →
    (name, c) ∈ es → c.Reaches names m → disk.Concerns (pathBelow path (name :: names)) m →
    above ++ name :: names ∈ (walkEntries disk pass path above es).found
  | [], _, hc, _, _ => by cases hc
  | (first, node) :: rest, hfault, hc, hm, hconcerns => by
    rw [walkEntries] at hfault ⊢
    obtain ⟨hfirst, hrest⟩ := Walk.fault_andThen_eq_none_iff.1 hfault
    rw [Walk.found_andThen hfirst, List.mem_append]
    -- the names go through the first entry or through a later one
    rcases List.mem_cons.1 hc with heq | hc
    · obtain ⟨hname, hnode⟩ := Prod.mk.inj heq
      rw [hnode] at hm
      rw [hname] at hconcerns ⊢
      have hin :=
        mem_walkNode pass (joinBytes path first) (above ++ [first]) node hfirst hm hconcerns
      rw [List.append_assoc] at hin
      exact .inl hin
    · exact .inr (mem_walkEntries pass path above rest hrest hc hm hconcerns)

end

mutual

/-- A walk ends early only at a directory that cannot be opened. -/
theorem fault_walkNode_eq_none_iff (pass : Bool) (path : Bytes) (above : List Bytes) :
    (n : Node) → ((walkNode disk pass path above n).fault = none ↔
      IsOpened pass path n ∧ IsReadableBelow path n)
  | .file content =>
    iff_of_true rfl ⟨nofun, isReadableBelow_of_isDirectory_eq_false rfl path⟩
  | .sink => iff_of_true rfl ⟨nofun, isReadableBelow_of_isDirectory_eq_false rfl path⟩
  | .link target => by
    refine iff_of_true ?_ ⟨nofun, isReadableBelow_of_isDirectory_eq_false rfl path⟩
    rw [walkNode]
    split <;> rfl
  | .directory access es => by
    rw [walkNode, isReadableBelow_directory_iff]
    split_ifs with hlong hopen
    -- a path that is too long is told before anything else
    · exact iff_of_false nofun fun h => absurd (h.1 rfl).1 (Nat.not_le_of_lt hlong)
    · rw [Bool.and_eq_true] at hopen
      rw [fault_walkEntries_eq_none_iff access.pass path above es]
      exact ⟨fun h => ⟨fun _ => ⟨Nat.le_of_not_lt hlong, hopen.1⟩, hopen.2, h⟩, fun h => h.2.2⟩
    · refine iff_of_false nofun fun h => hopen ?_
      rw [(h.1 rfl).2, h.2.1]
      rfl

theorem fault_walkEntries_eq_none_iff (pass : Bool) (path : Bytes) (above : List Bytes) :
    (es : List (Bytes × Node)) → ((walkEntries disk pass path above es).fault = none ↔
      ∀ name c, (name, c) ∈ es →
        IsOpened pass (joinBytes path name) c ∧ IsReadableBelow (joinBytes path name) c)
  | [] => iff_of_true rfl nofun
  | (name, c) :: rest => by
    rw [walkEntries, Walk.fault_andThen_eq_none_iff,
      fault_walkNode_eq_none_iff pass (joinBytes path name) (above ++ [name]) c,
      fault_walkEntries_eq_none_iff pass path above rest]
    constructor
    · rintro ⟨hfirst, hrest⟩ name' c' hc'
      rcases List.mem_cons.1 hc' with heq | hc'
      · cases heq
        exact hfirst
      · exact hrest name' c' hc'
    · intro h
      exact ⟨h name c List.mem_cons_self,
        fun name' c' hc' => h name' c' (List.mem_cons_of_mem _ hc')⟩

end

mutual

/-- In a proper tree nothing is found twice: different entries have different names. -/
theorem nodup_walkNode (pass : Bool) (path : Bytes) (above : List Bytes) :
    (n : Node) → n.IsProper → (walkNode disk pass path above n).found.Nodup
  | .file _, _ => List.nodup_singleton _
  | .sink, _ => List.nodup_singleton _
  | .link _, _ => by
    rw [walkNode]
    split
    · exact List.nodup_nil
    · exact List.nodup_singleton _
  | .directory access es, h => by
    rw [walkNode]
    split_ifs with hlong hopen
    · exact List.nodup_nil
    · exact nodup_walkEntries access.pass path above es h.nodup fun name c hc =>
        h.of_mem_entries hc
    · exact List.nodup_nil

theorem nodup_walkEntries (pass : Bool) (path : Bytes) (above : List Bytes) :
    (es : List (Bytes × Node)) → (es.map Prod.fst).Nodup →
    (∀ name c, (name, c) ∈ es → c.IsProper) → (walkEntries disk pass path above es).found.Nodup
  | [], _, _ => List.nodup_nil
  | (name, c) :: rest, hnodup, hproper => by
    rw [List.map_cons, List.nodup_cons] at hnodup
    have hfirst := nodup_walkNode pass (joinBytes path name) (above ++ [name]) c
      (hproper name c List.mem_cons_self)
    have hrest := nodup_walkEntries pass path above rest hnodup.2 fun name' c' hc' =>
      hproper name' c' (List.mem_cons_of_mem _ hc')
    rw [walkEntries]
    refine Walk.nodup_andThen hfirst hrest fun found hin hin' => ?_
    -- what is found at the first entry goes on with its name, what is found later with another
    obtain ⟨names, m, rfl, -⟩ := concerns_of_mem_walkNode disk _ _ _ c hin
    obtain ⟨name', c', names', m', hc', heq, -⟩ := concerns_of_mem_walkEntries disk _ _ _ rest hin'
    rw [List.append_assoc, List.append_cancel_left_eq] at heq
    obtain rfl : name = name' := (List.cons.inj heq).1
    exact hnodup.1 (List.mem_map.2 ⟨_, hc', rfl⟩)

end

/-! ## Walks below a base -/

variable {disk}
variable {base : Bytes} {place : Place} (hplace : disk.find true (.ofBytes base) = .ok place)

include hplace

/-- A walk opens its base and goes on with the entries there. -/
theorem walk_eq :
    disk.walk base =
      if place.node.access.list then
        walkEntries disk place.node.access.pass base [] place.node.entries
      else .stuck base .denied := by
  rw [walk, hplace]

/-- What a walk found is below its base and to be listed. -/
theorem isListed_of_mem_walk {names : List Bytes} (h : names ∈ (disk.walk base).found) :
    disk.IsListed base place.node names := by
  rw [walk_eq hplace] at h
  split_ifs at h
  · obtain ⟨name, c, rest, m, hc, rfl, hm, hconcerns⟩ :=
      concerns_of_mem_walkEntries disk _ _ _ _ h
    exact ⟨List.cons_ne_nil _ _, m, ⟨c, hc, hm⟩, hconcerns⟩
  · cases h

/-- A walk that came to its end found all that is below its base and to be listed. -/
theorem mem_walk_of_isListed {names : List Bytes} (hfault : (disk.walk base).fault = none)
    (h : disk.IsListed base place.node names) : names ∈ (disk.walk base).found := by
  rw [walk_eq hplace] at hfault ⊢
  obtain ⟨hne, m, hm, hconcerns⟩ := h
  split_ifs at hfault ⊢
  · cases names with
    | nil => exact absurd rfl hne
    | cons name names =>
      obtain ⟨c, hc, hm⟩ := hm
      exact mem_walkEntries disk _ base [] _ hfault hc hm hconcerns
  · cases hfault

/-- A walk comes to its end exactly if it can open every directory. -/
theorem fault_walk_eq_none_iff :
    (disk.walk base).fault = none ↔ IsReadableBelow base place.node := by
  rw [walk_eq hplace]
  cases hnode : place.node with
  | directory access es =>
    rw [isReadableBelow_directory_iff]
    split_ifs with hlist
    · rw [fault_walkEntries_eq_none_iff]
      exact (and_iff_right hlist).symm
    · exact iff_of_false nofun fun h => hlist h.1
  | file | sink | link =>
    exact iff_of_true rfl (isReadableBelow_of_isDirectory_eq_false rfl base)

theorem isProper_of_find (hproper : disk.root.IsProper) : place.node.IsProper :=
  hproper.of_reaches (Node.reaches_of_get? (get?_of_find hplace))

theorem nodup_walk (hproper : disk.root.IsProper) : (disk.walk base).found.Nodup := by
  have hplaceProper := isProper_of_find hplace hproper
  rw [walk_eq hplace]
  split_ifs
  · exact nodup_walkEntries disk _ base [] _ hplaceProper.nodup fun _ _ hc =>
      hplaceProper.of_mem_entries hc
  · exact List.nodup_nil

end InstallManifest.Disk
