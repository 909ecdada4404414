import InstallManifest.FileSet.Walked
import InstallManifest.Proofs.Disk.Walk
import InstallManifest.Proofs.Outcome
import InstallManifest.Proofs.Utf8.Encoding
import Mathlib.Data.List.Nodup

/-!
# Sources of files that a walk finds

The source of a file tells the names that lead to it: they stand between slashes after the lead, and
no name has a slash. So a walk in which all names are texts adds each file once, under a source of
its own.
-/

namespace InstallManifest

open Utf8 (Bytes)

namespace FileEntry

/-- Parts with slashes between them, after a lead and a slash if there is a lead that does not end
with one. -/
def sourceBelow (lead : String) (parts : List String) : String :=
  lead ++ (if lead = "" ∨ lead.toList.getLast? = some '/' then "" else "/") ++ "/".intercalate parts

/-- Whether a text can stand between two slashes. -/
def IsPart (part : String) : Prop := part ≠ "" ∧ '/' ∉ part.toList

theorem IsPart.extendSource_end {part : String} (h : IsPart part) (lead : String) :
    extendSource lead part ≠ "" ∧ (extendSource lead part).toList.getLast? ≠ some '/' := by
  have hpart : part.toList ≠ [] := fun h0 => h.1 (String.toList_eq_nil_iff.1 h0)
  have hlast : part.toList.getLast? ≠ some '/' := fun hslash =>
    h.2 (List.mem_of_getLast? hslash)
  -- whatever stands before it, the part comes last
  have hlead : ∃ before, (extendSource lead part).toList = before ++ part.toList := by
    unfold extendSource
    split
    · exact ⟨lead.toList, String.toList_append⟩
    · exact ⟨(lead ++ "/").toList, String.toList_append⟩
  obtain ⟨before, hbefore⟩ := hlead
  constructor
  · intro h0
    rw [h0, String.toList_empty] at hbefore
    exact hpart (List.append_eq_nil_iff.1 hbefore.symm).2
  · rw [hbefore, List.getLast?_append_of_ne_nil _ hpart]
    exact hlast

/-- Going on name by name puts a slash before every part but perhaps the first. -/
theorem foldl_extendSource (lead : String) {parts : List String} (hne : parts ≠ [])
    (hparts : ∀ part ∈ parts, IsPart part) :
    parts.foldl extendSource lead = sourceBelow lead parts := by
  induction parts generalizing lead with
  | nil => exact absurd rfl hne
  | cons part parts ih =>
    have hfirst : extendSource lead part = sourceBelow lead [part] := by
      unfold extendSource sourceBelow
      simp only [Bool.or_eq_true, decide_eq_true_eq, String.intercalate_singleton]
      split <;> simp
    cases parts with
    | nil => exact hfirst
    | cons next parts =>
      obtain ⟨hne', hlast⟩ := (hparts part List.mem_cons_self).extendSource_end lead
      rw [List.foldl_cons, ih _ (List.cons_ne_nil _ _)
        fun p hp => hparts p (List.mem_cons_of_mem _ hp)]
      rw [sourceBelow, if_neg (not_or.2 ⟨hne', hlast⟩), hfirst, sourceBelow, sourceBelow,
        String.intercalate_cons_cons, String.intercalate_singleton]
      simp only [String.append_assoc]

/-- A source tells the parts that it was made of. -/
theorem sourceBelow_injective (lead : String) {parts parts' : List String} (hne : parts ≠ [])
    (hne' : parts' ≠ []) (hparts : ∀ part ∈ parts, IsPart part)
    (hparts' : ∀ part ∈ parts', IsPart part)
    (h : sourceBelow lead parts = sourceBelow lead parts') : parts = parts' := by
  -- the parts have no slashes, so cutting at slashes gives them back
  have hsplit {ps : List String} (hps : ps ≠ []) (hslash : ∀ part ∈ ps, IsPart part) :
      ("/".intercalate ps).toList.splitOn '/' = ps.map String.toList := by
    rw [String.toList_intercalate]
    refine List.splitOn_intercalate '/' ?_ (by simpa using hps)
    rintro _ hl
    obtain ⟨part, hpart, rfl⟩ := List.mem_map.1 hl
    exact (hslash part hpart).2
  have hjoined : "/".intercalate parts = "/".intercalate parts' := String.append_right_inj _ |>.1 h
  have htexts := hsplit hne hparts
  rw [hjoined, hsplit hne' hparts'] at htexts
  exact List.map_injective_iff.2 (fun _ _ => String.toList_injective) htexts.symm

/-! ## Names as parts -/

/-- Names that are texts are the encodings of texts. -/
theorem exists_mapM_decode? {names : List Bytes}
    (h : ∀ name ∈ names, (Utf8.decode? name).isSome = true) :
    ∃ parts, names.mapM Utf8.decode? = some parts ∧ parts.map Utf8.encode = names := by
  refine exists_mapM_map fun name hname => ?_
  obtain ⟨part, hpart⟩ := Option.isSome_iff_exists.1 (h name hname)
  exact ⟨part, hpart, Utf8.decode?_eq_some_iff.1 hpart⟩

/-- Names of a disk are parts of sources. -/
theorem isPart_of_encode {part : String} (hne : Utf8.encode part ≠ [])
    (hslash : Disk.slash ∉ Utf8.encode part) : IsPart part := by
  constructor
  · rintro rfl
    exact hne rfl
  · intro hmem
    exact hslash (List.mem_flatMap.2 ⟨'/', hmem, by decide⟩)

/-- What was found first becomes files if its names are texts, whatever was found after it. -/
theorem ofFound_append (lead : String) {first : List (List Bytes)} {listed : List (List String)}
    (htexts : first.mapM (fun names => names.mapM Utf8.decode?) = some listed)
    (found : List (List Bytes)) :
    ofFound lead (first ++ found)
      = (listed.map (fun parts => ⟨parts.foldl extendSource lead, none⟩) ++ (ofFound lead found).1,
          (ofFound lead found).2) := by
  induction first generalizing listed with
  | nil =>
    cases htexts
    rfl
  | cons names first ih =>
    rw [List.mapM_cons] at htexts
    obtain ⟨parts, hparts, htail⟩ := Option.bind_eq_some_iff.1 htexts
    obtain ⟨listed', hlisted', hcons⟩ := Option.bind_eq_some_iff.1 htail
    obtain rfl : parts :: listed' = listed := Option.some_inj.1 hcons
    rw [List.cons_append, ofFound, ofNames?, hparts, ih hlisted']
    rfl

/-- What a walk found becomes files if all names are texts. -/
theorem ofFound_of_texts (lead : String) {found : List (List Bytes)} {listed : List (List String)}
    (htexts : found.mapM (fun names => names.mapM Utf8.decode?) = some listed) :
    ofFound lead found = (listed.map fun parts => ⟨parts.foldl extendSource lead, none⟩, none) := by
  have happend := ofFound_append lead htexts []
  rwa [List.append_nil, ofFound, List.append_nil] at happend

/-! ## What becomes of the things found -/

/-- All that was found becomes files exactly if each of it does. -/
theorem ofFound_snd_eq_none_iff {lead : String} {found : List (List Bytes)} :
    (ofFound lead found).2 = none ↔ ∀ names ∈ found, ofNames? lead names ≠ none := by
  induction found with
  | nil => exact iff_of_true rfl nofun
  | cons names found ih =>
    rw [ofFound, List.forall_mem_cons, ← ih]
    cases ofNames? lead names <;> simp

/-- If all becomes files, they are in the order in which they were found. -/
theorem ofFound_fst {lead : String} {found : List (List Bytes)}
    (h : (ofFound lead found).2 = none) :
    (ofFound lead found).1 = found.filterMap (ofNames? lead) := by
  induction found with
  | nil => rfl
  | cons names found ih =>
    rw [ofFound] at h ⊢
    rw [List.filterMap_cons]
    cases hnames : ofNames? lead names with
    | none => simp [hnames] at h
    | some file =>
      rw [hnames] at h
      exact congrArg (file :: ·) (ih h)

/-- A walk tells no targets. -/
theorem target_of_mem_ofFound {lead : String} {found : List (List Bytes)} {file : FileEntry}
    (h : file ∈ (ofFound lead found).1) : file.target = none := by
  induction found with
  | nil => cases h
  | cons names found ih =>
    rw [ofFound] at h
    cases hnames : ofNames? lead names with
    | none =>
      rw [hnames] at h
      cases h
    | some first =>
      rw [hnames] at h
      rcases List.mem_cons.1 h with rfl | h
      · obtain ⟨parts, -, rfl⟩ := Option.map_eq_some_iff.1 hnames
        rfl
      · exact ih h

end FileEntry

namespace FileSet

open FileEntry Disk

variable {disk : Disk} {base : Bytes} {place : Place}

/-- The parts of what a walk lists. -/
theorem exists_texts {found : List (List Bytes)}
    (htext : ∀ names ∈ found, ∀ name ∈ names, (Utf8.decode? name).isSome = true) :
    ∃ listed, found.mapM (fun names => names.mapM Utf8.decode?) = some listed ∧
      listed.map (·.map Utf8.encode) = found :=
  exists_mapM_map fun names hnames => exists_mapM_decode? (htext names hnames)

/-- Names that lead to something to be listed in a proper tree are parts, and there is one at
least. -/
theorem isPart_of_isListed (hplace : disk.find true (.ofBytes base) = .ok place)
    (hproper : disk.root.IsProper) {parts : List String}
    (h : disk.IsListed base place.node (parts.map Utf8.encode)) :
    parts ≠ [] ∧ ∀ part ∈ parts, IsPart part := by
  obtain ⟨hne, n, hn, -⟩ := h
  refine ⟨fun hnil => hne (by rw [hnil]; rfl), fun part hpart => ?_⟩
  obtain ⟨hpartne, hslash⟩ :=
    (isProper_of_find hplace hproper).of_mem_names hn (List.mem_map_of_mem hpart)
  exact isPart_of_encode hpartne hslash

section

variable (lead : String) {listed : List (List String)}

/-- Going on name by name makes the sources that are asked for. -/
theorem map_foldl_extendSource
    (hlisted : ∀ parts ∈ listed, parts ≠ [] ∧ ∀ part ∈ parts, IsPart part) :
    listed.map (fun parts => (⟨parts.foldl extendSource lead, none⟩ : FileEntry))
      = listed.map fun parts => ⟨sourceBelow lead parts, none⟩ := by
  refine List.map_congr_left fun parts hin => ?_
  obtain ⟨hne, hparts⟩ := hlisted parts hin
  rw [foldl_extendSource lead hne hparts]

/-- Files for different things that are listed have different sources. -/
theorem nodup_sourceBelow (hnodup : (listed.map (·.map Utf8.encode)).Nodup)
    (hlisted : ∀ parts ∈ listed, parts ≠ [] ∧ ∀ part ∈ parts, IsPart part) :
    (listed.map (sourceBelow lead)).Nodup := by
  refine (List.Nodup.of_map _ hnodup).map_on fun parts hin parts' hin' h => ?_
  obtain ⟨hne, hparts⟩ := hlisted parts hin
  obtain ⟨hne', hparts'⟩ := hlisted parts' hin'
  exact sourceBelow_injective lead hne hne' hparts hparts' h

end

/-- A walk below a base whose directories can be opened, where all names that lead to something to
be listed are texts, adds exactly those things, each once, behind the files that were there before.
The source of each is the lead and the names, and no other file of the walk has that source. -/
theorem addFilesUnder_listed (lead : String) (s : FileSet)
    (hplace : disk.find true (.ofBytes base) = .ok place)
    (hproper : disk.root.IsProper) (hreadable : IsReadableBelow base place.node)
    (htext : ∀ names, disk.IsListed base place.node names →
      ∀ name ∈ names, (Utf8.decode? name).isSome = true) :
    ∃ listed : List (List String),
      (listed.map (·.map Utf8.encode)).Nodup ∧
      (∀ names, names ∈ listed.map (·.map Utf8.encode) ↔
        disk.IsListed base place.node names) ∧
      s.addFilesUnder disk base lead =
        ({ s with files := s.files ++ listed.map fun parts => ⟨sourceBelow lead parts, none⟩ },
          .ok listed.length) ∧
      (listed.map (sourceBelow lead)).Nodup := by
  have hfault : (disk.walk base).fault = none :=
    (fault_walk_eq_none_iff hplace).2 hreadable
  have hmem (names : List Bytes) : names ∈ (disk.walk base).found ↔
      disk.IsListed base place.node names :=
    ⟨isListed_of_mem_walk hplace, mem_walk_of_isListed hplace hfault⟩
  obtain ⟨listed, hlisted, hfound⟩ := exists_texts fun names h => htext names ((hmem names).1 h)
  have hnodup : (listed.map (·.map Utf8.encode)).Nodup := hfound ▸ nodup_walk hplace hproper
  have hparts : ∀ parts ∈ listed, parts ≠ [] ∧ ∀ part ∈ parts, IsPart part := fun parts hin =>
    isPart_of_isListed hplace hproper ((hmem _).1 (hfound ▸ List.mem_map_of_mem hin))
  refine ⟨listed, hnodup, fun names => hfound ▸ hmem names, ?_, ?_⟩
  · rw [addFilesUnder, filesUnder, ofFound_of_texts lead hlisted, hfault,
      map_foldl_extendSource lead hparts]
    simp
  · exact nodup_sourceBelow lead hnodup hparts

/-- Below a directory with a file `f`, a link `u` back up and a link `e/g` to nothing, the walk
lists the file and the link to nothing. -/
theorem addFilesUnder_listed_links :
    let inner : List (Bytes × Node) := [([103], .link [110])]
    let outer : List (Bytes × Node) :=
      [([102], .file []), ([117], .link [46, 46]), ([101], .directory {} inner)]
    let disk : Disk := ⟨.directory {} [([100], .directory {} outer)], []⟩
    ∀ s : FileSet, ∃ listed : List (List String),
      (∀ names, names ∈ listed.map (·.map Utf8.encode) ↔ names = [[102]] ∨ names = [[101], [103]]) ∧
      s.addFilesUnder disk [47, 100] "p" =
        ({ s with files := s.files ++ listed.map fun parts => ⟨sourceBelow "p" parts, none⟩ },
          .ok listed.length) := by
  intro inner outer disk s
  have hplace : disk.find true (.ofBytes [47, 100])
      = .ok ⟨[[100]], .directory {} outer, maxLinks⟩ := by
    show search disk true maxLinks [] [.entry [100]] = _
    rw [search_directory (by decide) (by decide) rfl]
    exact search_nil rfl
  have hproper : disk.root.IsProper := by
    have hleaf (n : Node) (h : n.isDirectory = false) := Node.isProper_of_isDirectory_eq_false h
    have hinner : (Node.directory {} inner).IsProper := by
      refine Node.isProper_directory_iff.2 ⟨by decide, ?_⟩
      simp [inner, hleaf (.link [110]) rfl, slash]
    have houter : (Node.directory {} outer).IsProper := by
      refine Node.isProper_directory_iff.2 ⟨by decide, ?_⟩
      simp [outer, hleaf (.file []) rfl, hleaf (.link [46, 46]) rfl, hinner, slash]
    refine Node.isProper_directory_iff.2 ⟨by decide, ?_⟩
    simp [houter, slash]
  have hreaches (names : List Bytes) (n : Node) : (Node.directory {} outer).Reaches names n ↔
      names = [] ∧ n = .directory {} outer ∨ names = [[102]] ∧ n = .file [] ∨
      names = [[117]] ∧ n = .link [46, 46] ∨ names = [[101]] ∧ n = .directory {} inner ∨
      names = [[101], [103]] ∧ n = .link [110] := by
    rcases names with _ | ⟨a, _ | ⟨b, _ | ⟨c, names⟩⟩⟩
    · simp
    · simp only [Node.reaches_cons_iff, Node.reaches_nil_iff, outer, Node.entries]
      grind
    · simp only [Node.reaches_cons_iff, Node.reaches_nil_iff, outer, inner, Node.entries]
      grind
    · simp only [Node.reaches_cons_iff, outer, inner]
      grind [Node.entries]
  -- one link leads up to the root, the other nowhere
  have hup : disk.isDirectory (.ofBytes (pathBelow [47, 100] [[117]])) = true := by
    have hfind : disk.find true (.ofBytes (pathBelow [47, 100] [[117]]))
        = .ok ⟨[], disk.root, 39⟩ := by
      show search disk true (39 + 1) [] [.entry [100], .entry [117]] = _
      rw [search_directory (by decide) (by decide) rfl, search_link (by decide) (by decide) rfl]
      show search disk true 39 [[100]] [.up] = _
      rw [search_up (by decide)]
      exact search_nil rfl
    rw [isDirectory_of_find hfind]
    rfl
  have hnothing : disk.isDirectory (.ofBytes (pathBelow [47, 100] [[101], [103]])) = false := by
    have hfind : disk.find true (.ofBytes (pathBelow [47, 100] [[101], [103]]))
        = .error .notFound := by
      show search disk true (39 + 1) [] [.entry [100], .entry [101], .entry [103]] = _
      rw [search_directory (by decide) (by decide) rfl,
        search_directory (by decide) (by decide) rfl, search_link (by decide) (by decide) rfl]
      exact search_missing (by decide) (by decide) rfl
    exact isDirectory_of_find_error hfind
  have hreadable : IsReadableBelow [47, 100] (.directory {} outer) := by
    refine ⟨fun names n hn => ?_, fun names n hne hn hdirectory => ?_,
      fun names n name c hn _ _ => ?_⟩
    · rcases (hreaches names n).1 hn with ⟨-, rfl⟩ | ⟨-, rfl⟩ | ⟨-, rfl⟩ | ⟨-, rfl⟩ | ⟨-, rfl⟩
      all_goals rfl
    · rcases (hreaches names n).1 hn with ⟨rfl, -⟩ | ⟨-, rfl⟩ | ⟨-, rfl⟩ | ⟨rfl, -⟩ | ⟨-, rfl⟩
      · exact absurd rfl hne
      · cases hdirectory
      · cases hdirectory
      · decide
      · cases hdirectory
    · rcases (hreaches names n).1 hn with ⟨-, rfl⟩ | ⟨-, rfl⟩ | ⟨-, rfl⟩ | ⟨-, rfl⟩ | ⟨-, rfl⟩
      all_goals rfl
  have hlisted (names : List Bytes) : disk.IsListed [47, 100] (.directory {} outer) names ↔
      names = [[102]] ∨ names = [[101], [103]] := by
    constructor
    · rintro ⟨hne, n, hn, hfile, hlink⟩
      rcases (hreaches _ _).1 hn with ⟨rfl, -⟩ | ⟨rfl, -⟩ | ⟨rfl, rfl⟩ | ⟨-, rfl⟩ | ⟨rfl, -⟩
      · exact absurd rfl hne
      · exact .inl rfl
      · rw [hlink rfl] at hup
        cases hup
      · cases hfile
      · exact .inr rfl
    · rintro (rfl | rfl)
      · exact ⟨List.cons_ne_nil _ _, _, (hreaches _ (.file [])).2 (by simp), rfl,
          fun h => Bool.noConfusion h⟩
      · exact ⟨List.cons_ne_nil _ _, _, (hreaches _ (.link [110])).2 (by simp), rfl,
          fun _ => hnothing⟩
  have htext : ∀ names, disk.IsListed [47, 100] (.directory {} outer) names →
      ∀ name ∈ names, (Utf8.decode? name).isSome = true := by
    intro names h
    rcases (hlisted names).1 h with rfl | rfl
    · decide +kernel
    · decide +kernel
  obtain ⟨listed, -, hmem, hadd, -⟩ := addFilesUnder_listed "p" s hplace hproper hreadable htext
  exact ⟨listed, fun names => (hmem names).trans (hlisted names), hadd⟩

end FileSet

end InstallManifest
