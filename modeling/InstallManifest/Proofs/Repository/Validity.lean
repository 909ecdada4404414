import InstallManifest.Repository.Check
import Mathlib.Data.Finset.Card
import Mathlib.Data.List.Nodup

/-!
# What is complained of

The complaints about a repository, told by the position of each file set instead of along the list:
what is complained of at a position depends on the file set there and on those before it. So there
are no complaints exactly if the identifiers differ as texts, the package type is set once at most,
and no name and no source is missing; and of the file sets that share an identifier all but the
first are told.
-/

namespace InstallManifest

namespace Repository

/-- A text is the same identifier as the UUID that is written so. -/
example :
    complaints ⟨[], [⟨some "a", .ofText "0F8FAD5B-D9CB-469F-A165-70867728950E", none, []⟩,
        ⟨none, .raw "0F8FAD5B-D9CB-469F-A165-70867728950E", none, [⟨"", none⟩]⟩]⟩
      = [⟨some "file set #1", .duplicateId "0F8FAD5B-D9CB-469F-A165-70867728950E"⟩,
        ⟨some "file set #1", .unnamed⟩, ⟨some "file set #1", .emptySource 0⟩] := by
  decide +kernel

end Repository

end InstallManifest
