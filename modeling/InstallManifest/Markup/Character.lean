/-!
# Characters of markup
-/

namespace InstallManifest.Markup

/-- The characters that an XML 1.0 document may hold (production `Char`). -/
def isLegal (c : Char) : Bool :=
  c = '\t' || c = '\n' || c = '\r' || (0x20 ≤ c.toNat && c.toNat ≤ 0xFFFD) || 0x10000 ≤ c.toNat

/-- White space inside and between tags. -/
def isBlank (c : Char) : Bool := c = ' ' || c = '\t' || c = '\n' || c = '\r'

/-- Whether a list of characters holds only white space. -/
def allBlank (cs : List Char) : Bool := cs.all isBlank

end InstallManifest.Markup
