import InstallManifest.Markup.Character
import InstallManifest.Markup.Reference

/-!
# Attribute lists

The attributes of a tag are read from left to right up to the first fault. A look-up takes the
first attribute of a name; a fault matters to it only if it comes before that attribute, so what
stands further to the right is never judged.
-/

namespace InstallManifest.Markup

/-- An attribute as it stands in a tag: the value still holds its references, and `offset` counts
the bytes of the tag before the name. -/
structure Attribute where
  name : List Char
  raw : List Char
  offset : Nat
  deriving DecidableEq

/-- Why an attribute list cannot be read further. Positions are byte offsets in the tag. -/
inductive AttributeFault where
  | noEquals (position : Nat)
  | noValue (position : Nat)
  | unquoted (position : Nat)
  | unclosed (position : Nat) (quote : Char)
  | duplicate (position previous : Nat)
  deriving DecidableEq

def AttributeFault.message : AttributeFault → String
  | noEquals position =>
    s!"position {position}: attribute key must be directly followed by `=` or space"
  | noValue position => s!"position {position}: `=` must be followed by an attribute value"
  | unquoted position =>
    s!"position {position}: attribute value must be enclosed in `\"` or `'`"
  | unclosed position quote =>
    s!"position {position}: missing closing quote `{quote}` in attribute value"
  | duplicate position previous =>
    s!"position {position}: duplicated attribute, previous declaration at position {previous}"

/-- The attributes up to the first fault, and that fault. -/
structure AttributeList where
  attributes : List Attribute
  fault : Option AttributeFault
  deriving DecidableEq

namespace AttributeList

def nil : AttributeList := ⟨[], none⟩

def stop (fault : AttributeFault) : AttributeList := ⟨[], some fault⟩

def cons (a : Attribute) (rest : AttributeList) : AttributeList :=
  ⟨a :: rest.attributes, rest.fault⟩

/-- The written value of the first attribute of a name. -/
def lookup (l : AttributeList) (name : List Char) : Except AttributeFault (Option (List Char)) :=
  match l.attributes.find? (·.name = name), l.fault with
  | some a, _ => .ok (some a.raw)
  | none, some fault => .error fault
  | none, none => .ok none

end AttributeList

/-- Whether a character ends the name of an attribute. -/
def endsName (c : Char) : Bool := c = '=' || isBlank c

/-- Skips white space, counting bytes. -/
def skipBlank (offset : Nat) (cs : List Char) : Nat × List Char :=
  (offset + Utf8.size (cs.takeWhile isBlank), cs.dropWhile isBlank)

theorem skipBlank_length (offset : Nat) (cs : List Char) :
    (skipBlank offset cs).2.length ≤ cs.length :=
  (List.dropWhile_suffix isBlank).length_le

/-- One attribute and what follows it, or the fault that it ends in, given the names before it. -/
def readAttribute (earlier : List Attribute) (offset : Nat) (first : Char) (cs : List Char) :
    Except AttributeFault (Attribute × Nat × List Char) :=
  let name := first :: cs.takeWhile (!endsName ·)
  let afterName := cs.dropWhile (!endsName ·)
  match skipBlank (offset + Utf8.size name) afterName with
  | (position, '=' :: afterEquals) =>
    -- a repeated name is found before its value is looked at
    match earlier.find? (·.name = name) with
    | some previous => .error (.duplicate offset previous.offset)
    | none =>
      match skipBlank (position + 1) afterEquals with
      | (position, []) => .error (.noValue position)
      | (position, quote :: value) =>
        if quote = '"' || quote = '\'' then
          let raw := value.takeWhile (· ≠ quote)
          let stop := position + 1 + Utf8.size raw
          match value.dropWhile (· ≠ quote) with
          | [] => .error (.unclosed stop quote)
          | _ :: rest => .ok (⟨name, raw, offset⟩, stop + 1, rest)
        else .error (.unquoted position)
  | (position, _) => .error (.noEquals position)

theorem readAttribute_length {earlier : List Attribute} {offset stop : Nat} {first : Char}
    {cs rest : List Char} {a : Attribute}
    (h : readAttribute earlier offset first cs = .ok (a, stop, rest)) :
    rest.length < cs.length := by
  unfold readAttribute at h
  simp only at h
  split at h
  · rename_i position afterEquals heq
    have h1 := skipBlank_length (offset + Utf8.size (first :: cs.takeWhile (!endsName ·)))
      (cs.dropWhile (!endsName ·))
    have h2 := (List.dropWhile_suffix (l := cs) (!endsName ·)).length_le
    rw [heq] at h1
    simp only [List.length_cons] at h1
    split at h
    · simp at h
    · split at h
      · simp at h
      · rename_i position2 quote value heq2
        have h3 := skipBlank_length (position + 1) afterEquals
        rw [heq2] at h3
        simp only [List.length_cons] at h3
        split at h
        · split at h
          · simp at h
          · rename_i c after heq4
            have h4 := (List.dropWhile_suffix (l := value) (· ≠ quote)).length_le
            rw [heq4] at h4
            simp only [List.length_cons] at h4
            simp only [Except.ok.injEq, Prod.mk.injEq] at h
            rw [← h.2.2]
            omega
        · simp at h
  · simp at h

/-- Reads attributes from byte offset `offset` of the tag on, given those before. -/
def readAttributes (earlier : List Attribute) (offset : Nat) (cs : List Char) : AttributeList :=
  match _hs : skipBlank offset cs with
  | (_, []) => .nil
  | (start, first :: rest) =>
    match _hr : readAttribute earlier start first rest with
    | .error fault => .stop fault
    | .ok (a, stop, rest') => .cons a (readAttributes (earlier ++ [a]) stop rest')
termination_by cs.length
decreasing_by
  have h1 := skipBlank_length offset cs
  rw [_hs] at h1
  have h2 := readAttribute_length _hr
  simp only [List.length_cons] at h1
  omega

end InstallManifest.Markup
