import InstallManifest.FileSet
import InstallManifest.Proofs.Utf8.Order

/-!
# Files in order

Sorting a file set keeps its files, puts them in the order of the bytes of their sources, and leaves
files of one source in the order they had.
-/

namespace InstallManifest

open Utf8

/-- The files of a list, ordered by the bytes of their sources and by nothing else. -/
structure FileEntry.IsStableSort (files sorted : List FileEntry) : Prop where
  perm : sorted.Perm files
  ordered : sorted.Pairwise fun a b => ¬ Precedes (encode b.source) (encode a.source)
  stable : ∀ source, sorted.filter (·.source = source) = files.filter (·.source = source)

namespace FileSet

/-- Whether a file may stand before another. -/
def sourceLE (a b : FileEntry) : Bool := decide (a.source ≤ b.source)

theorem sourceLE_trans (a b c : FileEntry) (hab : sourceLE a b = true) (hbc : sourceLE b c = true) :
    sourceLE a c = true :=
  decide_eq_true (String.le_trans (of_decide_eq_true hab) (of_decide_eq_true hbc))

theorem sourceLE_total (a b : FileEntry) : (sourceLE a b || sourceLE b a) = true := by
  rw [Bool.or_eq_true]
  exact (String.le_total a.source b.source).imp decide_eq_true decide_eq_true

theorem files_sortFiles (s : FileSet) : s.sortFiles.files = s.files.mergeSort sourceLE := rfl

/-- The files of one source are a sorted part of the list, so sorting leaves them as they are. -/
theorem filter_sortFiles (s : FileSet) (source : String) :
    s.sortFiles.files.filter (·.source = source) = s.files.filter (·.source = source) := by
  have hsorted : (s.files.filter (·.source = source)).Pairwise (sourceLE · ·) := by
    refine List.pairwise_of_forall_mem_list fun a ha b hb => ?_
    have ha' : a.source = source := of_decide_eq_true (List.mem_filter.1 ha).2
    have hb' : b.source = source := of_decide_eq_true (List.mem_filter.1 hb).2
    rw [sourceLE, ha', hb']
    exact decide_eq_true (String.le_refl source)
  -- a sorted part of a list stays a part of it when the list is sorted
  have hsub : (s.files.filter (·.source = source)).Sublist (s.files.mergeSort sourceLE) :=
    List.sublist_mergeSort sourceLE_trans sourceLE_total hsorted List.filter_sublist
  have hfilter := hsub.filter (·.source = source)
  rw [List.filter_filter] at hfilter
  simp only [Bool.and_self] at hfilter
  have hlength := ((List.mergeSort_perm s.files sourceLE).filter (·.source = source)).length_eq
  rw [files_sortFiles]
  exact (hfilter.eq_of_length hlength.symm).symm

/-- Of two lists in order, each with the same files of every source, both are the same: first comes
a file of the least source, and of those the first. -/
theorem eq_of_filter_source {files files' : List FileEntry} (horder : files.Pairwise (sourceLE · ·))
    (horder' : files'.Pairwise (sourceLE · ·))
    (hsame : ∀ source, files.filter (·.source = source) = files'.filter (·.source = source)) :
    files = files' := by
  -- a file of one list is in the other, among those of its source
  have hmem {a : FileEntry} {l l' : List FileEntry}
      (h : l.filter (·.source = a.source) = l'.filter (·.source = a.source)) (ha : a ∈ l) :
      a ∈ l' := by
    have hfilter : a ∈ l.filter (·.source = a.source) :=
      List.mem_filter.2 ⟨ha, decide_eq_true rfl⟩
    rw [h] at hfilter
    exact (List.mem_filter.1 hfilter).1
  induction files generalizing files' with
  | nil =>
    cases files' with
    | nil => rfl
    | cons b files' => exact absurd (hmem (hsame b.source).symm List.mem_cons_self) List.not_mem_nil
  | cons a files ih =>
    cases files' with
    | nil => exact absurd (hmem (hsame a.source) List.mem_cons_self) List.not_mem_nil
    | cons b files' =>
      rw [List.pairwise_cons] at horder horder'
      have hle {c : FileEntry} (hc : c ∈ a :: files) : a.source ≤ c.source := by
        rcases List.mem_cons.1 hc with rfl | hc
        · exact String.le_refl _
        · exact of_decide_eq_true (horder.1 c hc)
      have hle' {c : FileEntry} (hc : c ∈ b :: files') : b.source ≤ c.source := by
        rcases List.mem_cons.1 hc with rfl | hc
        · exact String.le_refl _
        · exact of_decide_eq_true (horder'.1 c hc)
      -- each of the two first files has a source that is least in both lists
      have hsource : a.source = b.source :=
        String.le_antisymm (hle (hmem (hsame b.source).symm List.mem_cons_self))
          (hle' (hmem (hsame a.source) List.mem_cons_self))
      obtain ⟨rfl, htail⟩ : a = b ∧ files.filter (·.source = a.source)
          = files'.filter (·.source = a.source) := by
        simpa [List.filter_cons, hsource] using hsame a.source
      have hsame' (source : String) :
          files.filter (·.source = source) = files'.filter (·.source = source) := by
        by_cases hfirst : a.source = source
        · exact hfirst ▸ htail
        · simpa [List.filter_cons, hfirst] using hsame source
      rw [ih horder.2 horder'.2 hsame']

/-- Sorting makes the same of lists that have the same files of every source in the same order. -/
theorem files_sortFiles_congr {s s' : FileSet}
    (h : ∀ source, s.files.filter (·.source = source) = s'.files.filter (·.source = source)) :
    s.sortFiles.files = s'.sortFiles.files :=
  eq_of_filter_source (List.pairwise_mergeSort sourceLE_trans sourceLE_total s.files)
    (List.pairwise_mergeSort sourceLE_trans sourceLE_total s'.files) fun source => by
      rw [filter_sortFiles, filter_sortFiles, h]

theorem isStableSort_sortFiles (s : FileSet) :
    FileEntry.IsStableSort s.files s.sortFiles.files where
  perm := List.mergeSort_perm s.files sourceLE
  ordered := by
    refine (List.pairwise_mergeSort sourceLE_trans sourceLE_total s.files).imp ?_
    intro a b hab
    -- the order of bytes is that of texts
    rw [precedes_encode_iff, String.not_lt]
    exact of_decide_eq_true hab
  stable := s.filter_sortFiles

end FileSet

end InstallManifest
