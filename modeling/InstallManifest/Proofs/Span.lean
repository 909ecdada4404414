import Mathlib.Data.List.Basic

/-!
# Runs of a kind

A run is taken from a list, or dropped, up to the first element that is of another kind.
-/

namespace InstallManifest

variable {α : Type} {p : α → Bool} {run rest : List α}

theorem takeWhile_eq_nil (hrest : ∀ a ∈ rest.head?, p a = false) : rest.takeWhile p = [] := by
  cases rest with
  | nil => rfl
  | cons a as => simp [hrest a rfl]

theorem takeWhile_append_exact (hrun : ∀ a ∈ run, p a = true)
    (hrest : ∀ a ∈ rest.head?, p a = false) : (run ++ rest).takeWhile p = run := by
  rw [List.takeWhile_append_of_pos hrun, takeWhile_eq_nil hrest, List.append_nil]

theorem dropWhile_append_exact (hrun : ∀ a ∈ run, p a = true)
    (hrest : ∀ a ∈ rest.head?, p a = false) : (run ++ rest).dropWhile p = rest := by
  rw [List.dropWhile_append_of_pos hrun]
  cases rest with
  | nil => rfl
  | cons a as => simp [hrest a rfl]

/-- A list is a run of a kind, and a rest that does not go on with it. -/
theorem exists_run (p : α → Bool) (l : List α) :
    ∃ run rest, l = run ++ rest ∧ (∀ a ∈ run, p a = true) ∧ ∀ a ∈ rest.head?, p a = false := by
  induction l with
  | nil => exact ⟨[], [], rfl, nofun, nofun⟩
  | cons a l ih =>
    by_cases ha : p a = true
    · obtain ⟨run, rest, rfl, hrun, hrest⟩ := ih
      exact ⟨a :: run, rest, rfl, List.forall_mem_cons.2 ⟨ha, hrun⟩, hrest⟩
    · refine ⟨[], a :: l, rfl, nofun, ?_⟩
      simpa using ha

/-- The same from the end of a list. -/
theorem exists_last_run (p : α → Bool) (l : List α) :
    ∃ rest run, l = rest ++ run ∧ (∀ a ∈ run, p a = true) ∧ ∀ a ∈ rest.getLast?, p a = false := by
  obtain ⟨run, rest, hsplit, hrun, hrest⟩ := exists_run p l.reverse
  refine ⟨rest.reverse, run.reverse, ?_, fun a ha => hrun a (List.mem_reverse.1 ha), ?_⟩
  · rw [← List.reverse_append, ← hsplit, List.reverse_reverse]
  · rwa [List.getLast?_reverse]

end InstallManifest
