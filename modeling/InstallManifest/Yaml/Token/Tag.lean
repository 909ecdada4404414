import InstallManifest.Yaml.Token.Quoted

/-!
# Tags and anchors

A tag is a handle and a suffix, or a whole name between angle brackets. What follows the handle is
part of a URI: its octets may be escaped, and are therefore bytes and not always text.
-/

namespace InstallManifest.Yaml

open Utf8 (Bytes)

/-- What may stand in a URI besides letters, digits, dashes and underscores. -/
def uriMarks : List Char :=
  [';', '/', '?', ':', '@', '&', '=', '+', '$', '.', '!', '~', '*', '\'', '(', ')']

/-- Whether the character may stand in a URI as it is; commas and brackets only where no sequence
can end. -/
def isUriChar (full : Bool) (c : Char) : Bool :=
  isNameChar c || c ∈ uriMarks || (full && (c = ',' || c = '[' || c = ']'))

/-- How many octets a character has by the first of them. -/
def octetCount? (lead : Nat) : Option Nat :=
  if lead < 0x80 then some 1
  else if lead / 0x20 = 6 then some 2
  else if lead / 0x10 = 14 then some 3
  else if lead / 0x08 = 30 then some 4
  else none

/-- The octet that is escaped here. -/
def readOctet (context : Context) (start : Mark) (c : Cursor) : Except Fault Nat :=
  match c.rest with
  | '%' :: high :: low :: _ =>
    match Digit.value? 16 high, Digit.value? 16 low with
    | some high, some low => .ok (high * 16 + low)
    | _, _ => faultWithin context start .octetExpected c
  | _ => faultWithin context start .octetExpected c

/-- The next `n` escaped octets, none of which may begin a character. -/
def readTrailingOctets (context : Context) (start : Mark) : Nat → Cursor → Except Fault Bytes
  | 0, _ => .ok []
  | n + 1, c => do
    let octet ← readOctet context start c
    if octet / 0x40 ≠ 2 then faultWithin context start .trailingOctet c
    else return UInt8.ofNat octet :: (← readTrailingOctets context start n (c.skip 3))

/-- The character whose octets are escaped here. -/
def readOctets (context : Context) (start : Mark) (c : Cursor) : Except Fault Bytes := do
  let lead ← readOctet context start c
  match octetCount? lead with
  | none => faultWithin context start .leadingOctet c
  | some count =>
    return UInt8.ofNat lead :: (← readTrailingOctets context start (count - 1) (c.skip 3))

/-- The bytes of a URI from here on. -/
def readUriFrom (context : Context) (start : Mark) (full : Bool) (uri : Bytes) (c : Cursor) :
    Except Fault (Bytes × Cursor) :=
  match _h : c.rest with
  | [] => .ok (uri, c)
  | char :: _ =>
    if isUriChar full char then
      readUriFrom context start full (uri ++ Utf8.encodeChars [char]) (c.skip 1)
    else if char = '%' then
      match readOctets context start c with
      | .error fault => .error fault
      | .ok octets =>
        readUriFrom context start full (uri ++ octets) (c.skip (3 * (octets.length - 1) + 3))
    else .ok (uri, c)
termination_by c.rest.length
decreasing_by all_goals simp [_h]; try omega

/-- What counts of a URI: a zero byte ends it. -/
def uriText (uri : Bytes) : Bytes := uri.takeWhile (· ≠ 0)

/-- The URI that begins here; something must be written of it. -/
def readUri (context : Context) (start : Mark) (full : Bool) (c : Cursor) :
    Except Fault (Bytes × Cursor) := do
  let (uri, next) ← readUriFrom context start full [] c
  if uri.isEmpty then faultWithin context start .uriExpected c else return (uriText uri, next)

/-- The handle that begins here: an exclamation mark, and a name with a further one if there is
one. -/
def readHandle (context : Context) (start : Mark) (c : Cursor) :
    Except Fault (List Char × Cursor) :=
  if c.startsWith '!' then
    let (name, c) := (c.skip 1).span isNameChar
    if c.startsWith '!' then .ok ('!' :: name ++ ['!'], c.skip 1) else .ok ('!' :: name, c)
  else faultWithin context start .exclamationExpected c

/-- Whether a text is a handle with an exclamation mark at both ends. -/
def isClosedHandle (handle : List Char) : Bool :=
  handle.length > 1 && handle.getLast? = some '!'

/-- The tag that begins here: its handle, unless it is written out in full, and its suffix. An
exclamation mark alone is a tag of its own. -/
def readTag (flow : Bool) (c : Cursor) : Except Fault (Option String × Bytes × Cursor) := do
  let start := c.mark
  let (handle, suffix, c) ←
    -- a name in full
    if c.rest[1]? = some '<' then
      let (uri, c) ← readUri .tagUri start true (c.skip 2)
      if c.startsWith '>' then pure (none, uri, c.skip 1)
      else faultWithin .tag start .angleExpected c
    else
      let (handle, c) ← readHandle .tag start c
      if isClosedHandle handle then
        let (suffix, c) ← readUri .tagUri start false c
        pure (some (String.ofList handle), suffix, c)
      else
        -- what was read as a name belongs to the suffix after all
        let (uri, c) ← readUriFrom .tagUri start false (Utf8.encodeChars handle.tail) c
        let suffix := uriText uri
        if suffix.isEmpty then pure (none, Utf8.encode "!", c) else pure (some "!", suffix, c)
  if c.gapAfter 0 || (flow && c.startsWith ',') then return (handle, suffix, c)
  else faultWithin .tag start .spaceOrBreakExpected c

/-- Whether a character may come directly after the name of an anchor. -/
def endsAnchor (c : Char) : Bool :=
  isGap c || c ∈ ['?', ':', ',', ']', '\x7d', '%', '@', '`']

/-- The name of the anchor, or of the reference to one, whose indicator stands here. -/
def readAnchor (context : Context) (c : Cursor) : Except Fault (String × Cursor) :=
  let (name, next) := (c.skip 1).span isNameChar
  if name.isEmpty || !next.rest.head?.all endsAnchor then
    faultWithin context c.mark .nameExpected next
  else .ok (String.ofList name, next)

end InstallManifest.Yaml
