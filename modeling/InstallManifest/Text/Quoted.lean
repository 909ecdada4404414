import InstallManifest.Text.Property

/-!
# Text quoted for a message

A message shows a value between quotes so that every character of it can be told apart: the quote,
the backslash and line breaks are escaped with a backslash, and what cannot be seen by itself is
written as its code point in hexadecimal.
-/

namespace InstallManifest.Text

/-- The digits of a number in lower-case hexadecimal. -/
def hexDigits (n : Nat) : List Char := Nat.toDigits 16 n

/-- A character between quotes of the given kind; the other kind of quote needs no escape. -/
def escapeQuoted (quote c : Char) : List Char :=
  if c = '\x00' then ['\\', '0']
  else if c = '\t' then ['\\', 't']
  else if c = '\n' then ['\\', 'n']
  else if c = '\r' then ['\\', 'r']
  else if c = '\\' || c = quote then ['\\', c]
  else if inRanges combining c.toNat || inRanges invisible c.toNat then
    ['\\', 'u', '\x7b'] ++ hexDigits c.toNat ++ ['\x7d']
  else [c]

/-- A text between double quotes. -/
def quoted (s : String) : String :=
  String.ofList ('"' :: s.toList.flatMap (escapeQuoted '"') ++ ['"'])

/-- A character between single quotes. -/
def quotedChar (c : Char) : String :=
  String.ofList ('\'' :: escapeQuoted '\'' c ++ ['\''])

end InstallManifest.Text
