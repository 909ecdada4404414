import InstallManifest.Proofs.Uuid.Bits

/-!
# UUIDs that are made up

A UUID that is made up is of version 4 and of the usual variant, and all its other bits are left to
chance: from different chance come different UUIDs.
-/

namespace InstallManifest

namespace Uuid

end Uuid

namespace IdSupply

/-- The UUID that a supply gives after `count` others. -/
def draw (ids : IdSupply) (count : Nat) : Uuid := Uuid.ofChance (ids.chance (ids.drawn + count))

end IdSupply

end InstallManifest
