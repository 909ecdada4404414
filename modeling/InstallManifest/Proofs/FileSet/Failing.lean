import InstallManifest.Proofs.Disk.Joining
import InstallManifest.Proofs.FileSet.Walked
import InstallManifest.Proofs.Span

/-!
# Walks that fail

A walk whose directories can all be opened fails for two reasons only: its base leads nowhere, or
something that it is to list has a name on the way that is no text. What it added until then stays:
files that belong there, each once and under the source that it would have had in any case.
-/

namespace InstallManifest

open Utf8 (Bytes)

namespace Disk

/-- Whether a walk of a base is to list what names lead to. -/
def Lists (disk : Disk) (base : Bytes) (names : List Bytes) : Prop :=
  ∃ place, disk.find true (.ofBytes base) = .ok place ∧ disk.IsListed base place.node names

/-- Whether every directory below a base can be opened. -/
def IsReadable (disk : Disk) (base : Bytes) : Prop :=
  ∀ place, disk.find true (.ofBytes base) = .ok place → IsReadableBelow base place.node

/-! ## Names in a path -/

/-- A path is a text if all names in it are. -/
theorem decode?_pathBelow_eq_none_iff {names : List Bytes} (hne : names ≠ [])
    (hnames : ∀ name ∈ names, IsEntryName name) :
    Utf8.decode? (pathBelow [] names) = none ↔ ∃ name ∈ names, Utf8.decode? name = none := by
  have hafter {path : Bytes} (hpath : path ≠ []) (hlast : path.getLast? ≠ some slash)
      {more : List Bytes} (hmore : ∀ name ∈ more, IsEntryName name) :
      Utf8.decode? (pathBelow path more) = none ↔
        Utf8.decode? path = none ∨ ∃ name ∈ more, Utf8.decode? name = none := by
    -- with each name the path so far goes on to end with no slash, so that one is put in
    induction more generalizing path with
    | nil => simp [pathBelow]
    | cons name more ih =>
      obtain ⟨hname, hmore⟩ := List.forall_mem_cons.1 hmore
      have hjoin := joinBytes_of_isEntryName hpath hlast hname
      have hlast' : (path ++ slash :: name).getLast? ≠ some slash := by
        rw [← List.singleton_append, ← List.append_assoc, List.getLast?_append_of_ne_nil _ hname.1]
        exact fun h => hname.2 (List.mem_of_getLast? h)
      rw [pathBelow, List.foldl_cons, hjoin]
      refine (ih (by simp) hlast' hmore).trans ?_
      rw [Utf8.decode?_append_eq_none_iff (by decide), or_assoc, List.exists_mem_cons_iff]
  obtain ⟨name, more, rfl⟩ := List.exists_cons_of_ne_nil hne
  obtain ⟨hname, hmore⟩ := List.forall_mem_cons.1 hnames
  have hfirst : joinBytes [] name = name := joinBytes_of_relative hname.head?_ne
  rw [pathBelow, List.foldl_cons, hfirst, List.exists_mem_cons_iff]
  exact hafter hname.1 (fun h => hname.2 (List.mem_of_getLast? h)) hmore

/-- Names that lead to something on a disk can stand between slashes, and there is one at least. -/
theorem Lists.isEntryName {disk : Disk} {base : Bytes} {names : List Bytes}
    (hproper : disk.root.IsProper) (h : disk.Lists base names) :
    names ≠ [] ∧ ∀ name ∈ names, IsEntryName name := by
  obtain ⟨place, hplace, hne, n, hn, -⟩ := h
  exact ⟨hne, fun name hname => (isProper_of_find hplace hproper).of_mem_names hn hname⟩

end Disk

namespace FileEntry

/-- A file is made of names unless one of them is no text. -/
theorem ofNames?_eq_none_iff {lead : String} {names : List Bytes} :
    ofNames? lead names = none ↔ ∃ name ∈ names, Utf8.decode? name = none := by
  rw [ofNames?, Option.map_eq_none_iff]
  induction names with
  | nil => simp
  | cons name names ih =>
    rw [List.mapM_cons, List.exists_mem_cons_iff, ← ih]
    cases Utf8.decode? name <;> cases names.mapM Utf8.decode? <;> simp

/-- What was found is turned into files up to the first thing that is not named by texts, and that
thing is told. -/
theorem exists_ofFound (lead : String) (found : List (List Bytes)) :
    ∃ listed : List (List String), listed.map (·.map Utf8.encode) <+: found ∧
      (ofFound lead found).1 = listed.map (fun parts => ⟨parts.foldl extendSource lead, none⟩) ∧
      ((ofFound lead found).2 = none ∨
        ∃ names ∈ found, (∃ name ∈ names, Utf8.decode? name = none) ∧
          (ofFound lead found).2 = some (.unnamable (Disk.pathBelow [] names))) := by
  -- the things before it are those that are all named by texts
  obtain ⟨first, rest, rfl, hfirst, hrest⟩ :=
    exists_run (fun names => names.all fun name => (Utf8.decode? name).isSome) found
  obtain ⟨listed, hlisted, hnames⟩ := FileSet.exists_texts fun names h =>
    List.all_eq_true.1 (hfirst names h)
  rw [ofFound_append lead hlisted]
  refine ⟨listed, hnames ▸ List.prefix_append _ _, ?_⟩
  cases rest with
  | nil => exact ⟨List.append_nil _, .inl rfl⟩
  | cons names rest =>
    -- the next thing has a name that is no text, and ends the list of files
    have hbad : ∃ name ∈ names, Utf8.decode? name = none := by
      simpa using hrest names rfl
    rw [ofFound, ofNames?_eq_none_iff.2 hbad]
    exact ⟨List.append_nil _, .inr ⟨names, by simp, hbad, rfl⟩⟩

end FileEntry

namespace FileSet

open FileEntry Disk

/-! ## What a walk adds -/

/-- The names of what a walk is to list are parts. -/
theorem isPart_of_lists {disk : Disk} {base : Bytes} {parts : List String}
    (hproper : disk.root.IsProper) (h : disk.Lists base (parts.map Utf8.encode)) :
    parts ≠ [] ∧ ∀ part ∈ parts, IsPart part := by
  obtain ⟨place, hplace, hlisted⟩ := h
  exact isPart_of_isListed hplace hproper hlisted

/-- A walk below a base that leads somewhere. Every file that was added is one that is to be listed,
under its own source; the walk fails only at something that is to be listed and cannot be named. -/
theorem addFilesUnder_of_find {disk : Disk} {base : Bytes} {place : Place}
    (hplace : disk.find true (.ofBytes base) = .ok place) (hproper : disk.root.IsProper)
    (hreadable : disk.IsReadable base) (lead : String) (s : FileSet) :
    ∃ listed : List (List String),
      (listed.map (·.map Utf8.encode)).Nodup ∧
      (∀ parts ∈ listed, disk.Lists base (parts.map Utf8.encode)) ∧
      (s.addFilesUnder disk base lead).1
        = { s with files := s.files ++ listed.map fun parts => ⟨sourceBelow lead parts, none⟩ } ∧
      ((s.addFilesUnder disk base lead).2 = .ok listed.length ∧
          (∀ names, disk.Lists base names → ∀ name ∈ names, Utf8.decode? name ≠ none) ∨
        ∃ names, disk.Lists base names ∧ (∃ name ∈ names, Utf8.decode? name = none) ∧
          (s.addFilesUnder disk base lead).2 = .error (.unnamable (pathBelow [] names))) := by
  have hfault : (disk.walk base).fault = none :=
    (fault_walk_eq_none_iff hplace).2 (hreadable place hplace)
  have hlists {names : List Bytes} (h : names ∈ (disk.walk base).found) : disk.Lists base names :=
    ⟨place, hplace, isListed_of_mem_walk hplace h⟩
  obtain ⟨listed, hbegin, hfiles, houtcome⟩ := exists_ofFound lead (disk.walk base).found
  have hlisted : ∀ parts ∈ listed, disk.Lists base (parts.map Utf8.encode) := fun parts hin =>
    hlists (hbegin.subset (List.mem_map_of_mem hin))
  have hsources : (ofFound lead (disk.walk base).found).1
      = listed.map fun parts => ⟨sourceBelow lead parts, none⟩ := by
    rw [hfiles]
    exact map_foldl_extendSource lead fun parts hin => isPart_of_lists hproper (hlisted parts hin)
  -- the walk itself does not fail, so only the names can
  have hadd : s.addFilesUnder disk base lead
      = ({ s with files := s.files ++ listed.map fun parts => ⟨sourceBelow lead parts, none⟩ },
          okUnless (ofFound lead (disk.walk base).found).2 listed.length) := by
    rw [addFilesUnder, filesUnder, hfault]
    simp only [hsources, List.length_map]
    cases (ofFound lead (disk.walk base).found).2 <;> rfl
  refine ⟨listed, (nodup_walk hplace hproper).sublist hbegin.sublist, hlisted, by rw [hadd], ?_⟩
  rcases houtcome with hnone | ⟨names, hin, hbad, hsome⟩
  · -- all that was found became files, and all that is to be listed was found
    refine .inl ⟨by rw [hadd, hnone, okUnless_none], ?_⟩
    rintro names ⟨place', hplace', hnames⟩ name hname hbad
    obtain rfl : place = place' := Except.ok.inj (hplace.symm.trans hplace')
    have hin := mem_walk_of_isListed hplace hfault hnames
    exact ofFound_snd_eq_none_iff.1 hnone names hin (ofNames?_eq_none_iff.2 ⟨name, hname, hbad⟩)
  · exact .inr ⟨names, hlists hin, hbad, by rw [hadd, hsome, okUnless_some]⟩

/-- A walk of a base that leads nowhere adds nothing, and tells the base. -/
theorem addFilesUnder_of_find_error {disk : Disk} {base : Bytes} {cause : Fault}
    (hbase : disk.find true (.ofBytes base) = .error cause) (lead : String) (s : FileSet) :
    s.addFilesUnder disk base lead = (s, .error (.walk base cause)) := by
  have hwalk : disk.walk base = .stuck base cause := by rw [walk, hbase]
  rw [addFilesUnder, filesUnder, hwalk]
  simp [Walk.stuck, ofFound]

/-- A walk whose directories can all be opened fails in two cases, and in no other. Either its base
leads nowhere: then nothing is added. Or something that it is to list has a name on the way that is
no text, which is to say that its path below the base is none: then such a path is told. In any case
the file set keeps all that it had, and what is added behind its files was to be listed, each thing
once and under the source that its names make. -/
theorem addFilesUnder_outcome {disk : Disk} {base : Bytes} (hproper : disk.root.IsProper)
    (hreadable : disk.IsReadable base) (lead : String) (s : FileSet) :
    ∃ listed : List (List String),
      (s.addFilesUnder disk base lead).1
        = { s with files := s.files ++ listed.map fun parts => ⟨sourceBelow lead parts, none⟩ } ∧
      (listed.map (sourceBelow lead)).Nodup ∧
      (∀ parts ∈ listed, disk.Lists base (parts.map Utf8.encode)) ∧
      ((∃ failure, (s.addFilesUnder disk base lead).2 = .error failure) ↔
        (∃ cause, disk.find true (.ofBytes base) = .error cause) ∨
          ∃ names, disk.Lists base names ∧ ∃ name ∈ names, Utf8.decode? name = none) ∧
      (∀ cause, disk.find true (.ofBytes base) = .error cause →
        listed = [] ∧ (s.addFilesUnder disk base lead).2 = .error (.walk base cause)) ∧
      (∀ place failure, disk.find true (.ofBytes base) = .ok place →
        (s.addFilesUnder disk base lead).2 = .error failure →
        ∃ names, disk.Lists base names ∧ Utf8.decode? (pathBelow [] names) = none ∧
          failure = .unnamable (pathBelow [] names)) ∧
      ∀ names, disk.Lists base names →
        (Utf8.decode? (pathBelow [] names) = none ↔ ∃ name ∈ names, Utf8.decode? name = none) := by
  have hpath (names : List Bytes) (h : disk.Lists base names) :
      Utf8.decode? (pathBelow [] names) = none ↔ ∃ name ∈ names, Utf8.decode? name = none := by
    obtain ⟨hne, hnames⟩ := h.isEntryName hproper
    exact decode?_pathBelow_eq_none_iff hne hnames
  cases hbase : disk.find true (.ofBytes base) with
  | error cause =>
    rw [addFilesUnder_of_find_error hbase]
    refine ⟨[], by simp, List.nodup_nil, nofun, ?_, ?_, ?_, hpath⟩
    · exact iff_of_true ⟨_, rfl⟩ (.inl ⟨cause, rfl⟩)
    · intro cause' hcause
      cases hcause
      exact ⟨rfl, rfl⟩
    · intro place failure hplace
      cases hplace
  | ok place =>
    obtain ⟨listed, hnodup, hlisted, hfiles, houtcome⟩ :=
      addFilesUnder_of_find hbase hproper hreadable lead s
    have hsources := nodup_sourceBelow lead hnodup fun parts hin =>
      isPart_of_lists hproper (hlisted parts hin)
    refine ⟨listed, hfiles, hsources, hlisted, ?_, ?_, ?_, hpath⟩
    · rcases houtcome with ⟨hok, htexts⟩ | ⟨names, hnames, hbad, herror⟩
      · -- neither side holds
        refine iff_of_false (by simp [hok]) ?_
        rintro (⟨cause, hcause⟩ | ⟨names, hnames, name, hname, hbad⟩)
        · cases hcause
        · exact htexts names hnames name hname hbad
      · exact iff_of_true ⟨_, herror⟩ (.inr ⟨names, hnames, hbad⟩)
    · intro cause hcause
      cases hcause
    · intro place' failure _ hfailure
      rcases houtcome with ⟨hok, -⟩ | ⟨names, hnames, hbad, herror⟩
      · rw [hok] at hfailure
        cases hfailure
      · rw [herror] at hfailure
        cases hfailure
        exact ⟨names, hnames, (hpath names hnames).2 hbad, rfl⟩

/-- Below a directory with a file `a`, an empty directory whose name is no text and a file `e/\xfe`,
the walk fails for the sake of the last one. -/
theorem addFilesUnder_outcome_unnamable :
    let inner : List (Bytes × Node) := [([254], .file [])]
    let outer : List (Bytes × Node) :=
      [([97], .file []), ([255], .directory {} []), ([101], .directory {} inner)]
    let disk : Disk := ⟨.directory {} [([100], .directory {} outer)], []⟩
    ∀ s : FileSet, ∃ listed : List (List String),
      (s.addFilesUnder disk [47, 100] "p").1
        = { s with files := s.files ++ listed.map fun parts => ⟨sourceBelow "p" parts, none⟩ } ∧
      (∀ parts ∈ listed, disk.Lists [47, 100] (parts.map Utf8.encode)) ∧
      ∃ failure, (s.addFilesUnder disk [47, 100] "p").2 = .error failure := by
  intro inner outer disk s
  have hplace : disk.find true (.ofBytes [47, 100])
      = .ok ⟨[[100]], .directory {} outer, maxLinks⟩ := by
    show search disk true maxLinks [] [.entry [100]] = _
    rw [search_directory (by decide) (by decide) rfl]
    exact search_nil rfl
  have hproper : disk.root.IsProper := by
    have hfile : (Node.file []).IsProper := Node.isProper_of_isDirectory_eq_false rfl
    have hempty : (Node.directory {} []).IsProper := Node.isProper_directory_iff.2 (by simp)
    have hinner : (Node.directory {} inner).IsProper := by
      refine Node.isProper_directory_iff.2 ⟨by decide, ?_⟩
      simp [inner, hfile, slash]
    have houter : (Node.directory {} outer).IsProper := by
      refine Node.isProper_directory_iff.2 ⟨by decide, ?_⟩
      simp [outer, hfile, hempty, hinner, slash]
    refine Node.isProper_directory_iff.2 ⟨by decide, ?_⟩
    simp [houter, slash]
  have hwalk : disk.walk [47, 100] = ⟨[[[97]], [[101], [254]]], none⟩ := by
    rw [walk_eq hplace]
    rfl
  have hreadable : disk.IsReadable [47, 100] := by
    intro place hplace'
    exact (fault_walk_eq_none_iff hplace').1 (by rw [hwalk])
  have hlists : disk.Lists [47, 100] [[101], [254]] :=
    ⟨_, hplace, isListed_of_mem_walk hplace (by simp [hwalk])⟩
  have hbad : Utf8.decode? [254] = none := by decide +kernel
  obtain ⟨listed, hfiles, -, hlisted, hiff, -⟩ := addFilesUnder_outcome hproper hreadable "p" s
  exact ⟨listed, hfiles, hlisted, hiff.2 (.inr ⟨_, hlists, [254], by simp, hbad⟩)⟩

end FileSet

end InstallManifest
