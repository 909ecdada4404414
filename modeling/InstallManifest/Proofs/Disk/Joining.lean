import InstallManifest.Disk.Path

/-!
# Joining paths

A path that does not start at the root is joined to a base by writing it behind, with a slash
between if the base needs one. The joined path starts where the base does, and takes the steps of
the base before its own. What has no slash and is not empty is one step.
-/

namespace InstallManifest.Disk

open Utf8 (Bytes)

/-- What is written between a base and a path that goes on from it: nothing if there is no base to
speak of, or if it has a slash at its end. -/
def separator (base : Bytes) : Bytes :=
  if base = [] ∨ base.getLast? = some slash then [] else [slash]

variable {base path : Bytes}

/-- A path that starts at the root is not joined to anything. -/
theorem joinBytes_of_absolute (h : path.head? = some slash) : joinBytes base path = path := by
  rw [joinBytes, if_pos h]

/-- Any other path is written behind the base and what separates them. -/
theorem joinBytes_of_relative (h : path.head? ≠ some slash) :
    joinBytes base path = base ++ (separator base ++ path) := by
  have hcondition : (base.isEmpty || base.getLast? = some slash) = true ↔
      base = [] ∨ base.getLast? = some slash := by
    simp
  rw [joinBytes, if_neg h, separator]
  by_cases hnone : base = [] ∨ base.getLast? = some slash
  · rw [if_pos hnone, if_pos (hcondition.2 hnone), List.nil_append]
  · rw [if_neg hnone, if_neg (mt hcondition.1 hnone), List.singleton_append]

/-! ## The steps of a joined path -/

namespace Path

end Path

/-! ## Names in a path -/

/-- Whether a name can stand between two slashes. -/
def IsEntryName (name : Bytes) : Prop := name ≠ [] ∧ slash ∉ name

theorem IsEntryName.head?_ne {name : Bytes} (h : IsEntryName name) : name.head? ≠ some slash :=
  fun hhead => h.2 (List.mem_of_mem_head? hhead)

theorem joinBytes_of_isEntryName {name : Bytes} (hne : path ≠ [])
    (hlast : path.getLast? ≠ some slash) (hname : IsEntryName name) :
    joinBytes path name = path ++ slash :: name := by
  rw [joinBytes_of_relative hname.head?_ne, separator, if_neg (not_or.2 ⟨hne, hlast⟩)]
  rfl

end InstallManifest.Disk
