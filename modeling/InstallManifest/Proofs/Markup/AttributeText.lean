import InstallManifest.Markup.Attribute
import InstallManifest.Proofs.Span

/-!
# The grammar of attribute lists

`IsAttributeList` says, without regard to how lists are read, which texts are attribute lists and
what they hold: names with quoted values, and no name twice. Reading follows this grammar exactly.
It finds no fault in just these texts, and of any other text it has read the longest part at the
beginning that is such a list.
-/

namespace InstallManifest.Markup

/-- The name of an attribute and its written value, wherever it stands. -/
def Attribute.entry (a : Attribute) : List Char × List Char := (a.name, a.raw)

/-- How the attribute of a name and a written value may look, with white space before it. A name is
not judged: it goes on up to white space or an equals sign. -/
inductive IsAttribute : List Char × List Char → List Char → Prop where
  | intro {gap tail beforeEquals afterEquals raw : List Char} {first quote : Char}
      (gap_blank : allBlank gap = true) (first_visible : isBlank first = false)
      (tail_name : ∀ c ∈ tail, endsName c = false)
      (beforeEquals_blank : allBlank beforeEquals = true)
      (afterEquals_blank : allBlank afterEquals = true) (quote_eq : quote = '"' ∨ quote = '\'')
      (quote_notMem : quote ∉ raw) :
      IsAttribute (first :: tail, raw) (gap ++ first :: (tail ++
        (beforeEquals ++ '=' :: (afterEquals ++ quote :: (raw ++ [quote])))))

/-- A sequence of attributes, and white space after the last one. -/
inductive IsAttributes : List (List Char × List Char) → List Char → Prop where
  | nil {gap : List Char} (h : allBlank gap = true) : IsAttributes [] gap
  | cons {entry : List Char × List Char} {as : List (List Char × List Char)}
      {text rest : List Char} (h : IsAttribute entry text) (hrest : IsAttributes as rest) :
      IsAttributes (entry :: as) (text ++ rest)

/-- A well-formed attribute list: a sequence of attributes of different names. -/
structure IsAttributeList (as : List (List Char × List Char)) (text : List Char) : Prop where
  isAttributes : IsAttributes as text
  nodup : (as.map Prod.fst).Nodup

/-- Whether a text is an attribute list at all. -/
def IsWellFormedList (text : List Char) : Prop := ∃ as, IsAttributeList as text

/-! ## Values in their text -/

/-- The value stands in the text of its attribute. -/
theorem IsAttribute.raw_infix {entry : List Char × List Char} {text : List Char}
    (h : IsAttribute entry text) : entry.2 <:+: text := by
  cases h with
  | @intro gap tail beforeEquals afterEquals raw first quote =>
    refine ⟨gap ++ first :: (tail ++ (beforeEquals ++ '=' :: (afterEquals ++ [quote]))), [quote],
      ?_⟩
    simp

/-- All values stand in the text of the attributes. -/
theorem IsAttributes.raw_infix {as : List (List Char × List Char)} {text : List Char}
    (h : IsAttributes as text) : ∀ entry ∈ as, entry.2 <:+: text := by
  induction h with
  | nil => nofun
  | @cons entry as text rest hentry _ ih =>
    have hfirst : entry.2 <:+: text ++ rest :=
      hentry.raw_infix.trans (List.prefix_append text rest).isInfix
    refine List.forall_mem_cons.2 ⟨hfirst, fun later hlater => ?_⟩
    exact (ih later hlater).trans (List.suffix_append text rest).isInfix

/-! ## Skipping white space -/

theorem isBlank_of_allBlank {cs : List Char} (h : allBlank cs = true) :
    ∀ c ∈ cs, isBlank c = true :=
  List.all_eq_true.1 h

theorem skipBlank_append {gap rest : List Char} (offset : Nat) (hgap : allBlank gap = true)
    (hrest : ∀ c ∈ rest.head?, isBlank c = false) :
    skipBlank offset (gap ++ rest) = (offset + Utf8.size gap, rest) := by
  have hall := isBlank_of_allBlank hgap
  rw [skipBlank, takeWhile_append_exact hall hrest, dropWhile_append_exact hall hrest]

/-- What is skipped is white space, and none is left in front. -/
theorem exists_of_skipBlank {offset position : Nat} {cs rest : List Char}
    (h : skipBlank offset cs = (position, rest)) :
    ∃ gap, cs = gap ++ rest ∧ allBlank gap = true ∧ ∀ c ∈ rest.head?, isBlank c = false := by
  obtain ⟨gap, rest', rfl, hgap, hrest⟩ := exists_run isBlank cs
  have hblank : allBlank gap = true := List.all_eq_true.2 hgap
  rw [skipBlank_append offset hblank hrest] at h
  cases h
  exact ⟨gap, rfl, hblank, hrest⟩

/-! ## One attribute -/

/-- An attribute is read up to its closing quote, if its name did not occur before. -/
theorem readAttribute_eq {earlier : List Attribute} (offset : Nat) {first quote : Char}
    {tail beforeEquals afterEquals raw : List Char} (rest : List Char)
    (htail : ∀ c ∈ tail, endsName c = false) (hbefore : allBlank beforeEquals = true)
    (hafter : allBlank afterEquals = true) (hquote : quote = '"' ∨ quote = '\'')
    (hraw : quote ∉ raw) (hnew : ∀ e ∈ earlier, e.name ≠ first :: tail) :
    ∃ stop, readAttribute earlier offset first
        (tail ++ (beforeEquals ++ '=' :: (afterEquals ++ quote :: (raw ++ quote :: rest))))
      = .ok (⟨first :: tail, raw, offset⟩, stop, rest) := by
  -- each part of the attribute ends where a character of another kind begins the next part
  have hname : ∀ c ∈ tail, (!endsName c) = true := by
    intro c hc
    rw [htail c hc]
    rfl
  have hends :
      ∀ c ∈ (beforeEquals ++ '=' :: (afterEquals ++ quote :: (raw ++ quote :: rest))).head?,
        (!endsName c) = false := by
    cases beforeEquals with
    | nil => simp [endsName]
    | cons d ds =>
      have hd : isBlank d = true := isBlank_of_allBlank hbefore d List.mem_cons_self
      simp [endsName, hd]
  have hvisible : isBlank quote = false := by
    rcases hquote with rfl | rfl <;> rfl
  have hinside : ∀ c ∈ raw, decide (c ≠ quote) = true := by
    intro c hc
    simp only [ne_eq, decide_eq_true_eq]
    rintro rfl
    exact hraw hc
  have hclosing : ∀ c ∈ (quote :: rest).head?, decide (c ≠ quote) = false := by simp
  have hfind : earlier.find? (·.name = first :: tail) = none :=
    List.find?_eq_none.2 fun e he => by simpa using hnew e he
  unfold readAttribute
  simp only [takeWhile_append_exact hname hends, dropWhile_append_exact hname hends]
  rw [skipBlank_append _ hbefore (by simp [isBlank])]
  simp only [hfind]
  rw [skipBlank_append _ hafter (by simp [hvisible])]
  simp only [takeWhile_append_exact hinside hclosing, dropWhile_append_exact hinside hclosing]
  exact ⟨_, if_pos (by simpa using hquote)⟩

/-- Whatever is read as an attribute looks like one, and its name is new. -/
theorem exists_of_readAttribute {earlier : List Attribute} {offset start stop : Nat} {first : Char}
    {cs rest after : List Char} {a : Attribute}
    (hskip : skipBlank offset cs = (start, first :: rest))
    (h : readAttribute earlier start first rest = .ok (a, stop, after)) :
    ∃ text, cs = text ++ after ∧ IsAttribute a.entry text ∧ ∀ e ∈ earlier, e.name ≠ a.name := by
  -- cut the text where the reader does, so that each part is known when its test is opened
  obtain ⟨gap, rfl, hgap, hfirst⟩ := exists_of_skipBlank hskip
  obtain ⟨tail, afterName, rfl, htail, hends⟩ := exists_run (!endsName ·) rest
  unfold readAttribute at h
  simp only [takeWhile_append_exact htail hends, dropWhile_append_exact htail hends] at h
  split at h
  · rename_i position afterEquals hequals
    -- an equals sign is there, or the attribute is refused
    obtain ⟨beforeEquals, rfl, hbefore, -⟩ := exists_of_skipBlank hequals
    split at h
    · cases h
    · rename_i hfind
      split at h
      · cases h
      -- so is something behind it, which has to be a quote
      · rename_i position' quote value hvalue
        obtain ⟨afterEquals, rfl, hafter, -⟩ := exists_of_skipBlank hvalue
        obtain ⟨raw, behind, rfl, hraw, hstop⟩ := exists_run (· ≠ quote) value
        split at h
        · rename_i hquote
          simp only [takeWhile_append_exact hraw hstop, dropWhile_append_exact hraw hstop] at h
          split at h
          · cases h
          -- and the quote closes again
          · rename_i closing after'
            obtain rfl : closing = quote := by simpa using hstop
            cases h
            refine ⟨gap ++ first :: (tail ++ (beforeEquals ++ '=' :: (afterEquals ++
              closing :: (raw ++ [closing])))), by simp, ?_, ?_⟩
            · refine .intro hgap (hfirst first rfl) ?_ hbefore hafter (by simpa using hquote) ?_
              · intro c hc
                simpa using htail c hc
              · intro hmem
                simpa using hraw closing hmem
            · intro e he
              simpa using List.find?_eq_none.1 hfind e he
        · cases h
  · cases h

/-! ## Equations of the reader -/

theorem readAttributes_of_blank {earlier : List Attribute} {offset start : Nat} {cs : List Char}
    (h : skipBlank offset cs = (start, [])) : readAttributes earlier offset cs = .nil := by
  rw [readAttributes]
  split
  · rfl
  · rename_i heq
    rw [h] at heq
    cases heq

theorem readAttributes_of_attribute {earlier : List Attribute} {offset start stop : Nat}
    {first : Char} {cs rest after : List Char} {a : Attribute}
    (h : skipBlank offset cs = (start, first :: rest))
    (ha : readAttribute earlier start first rest = .ok (a, stop, after)) :
    readAttributes earlier offset cs = .cons a (readAttributes (earlier ++ [a]) stop after) := by
  rw [readAttributes]
  split
  · rename_i heq
    rw [h] at heq
    cases heq
  · rename_i heq
    rw [h] at heq
    cases heq
    split
    · rename_i hfault
      rw [ha] at hfault
      cases hfault
    · rename_i hok
      rw [ha] at hok
      cases hok
      rfl

theorem IsAttribute.readAttributes_append {entry : List Char × List Char} {text : List Char}
    (h : IsAttribute entry text) {earlier : List Attribute} (hnew : ∀ e ∈ earlier, e.name ≠ entry.1)
    (offset : Nat) (rest : List Char) :
    ∃ a stop, a.entry = entry ∧ readAttributes earlier offset (text ++ rest)
      = .cons a (readAttributes (earlier ++ [a]) stop rest) := by
  cases h with
  | @intro gap tail beforeEquals afterEquals raw first quote hgap hfirst htail hbefore hafter hquote
      hraw =>
    obtain ⟨stop, hread⟩ :=
      readAttribute_eq (offset + Utf8.size gap) rest htail hbefore hafter hquote hraw hnew
    have hskip : skipBlank offset (gap ++ first :: (tail ++ (beforeEquals ++
          '=' :: (afterEquals ++ quote :: (raw ++ quote :: rest)))))
        = (offset + Utf8.size gap, _) := skipBlank_append offset hgap (by simpa using hfirst)
    refine ⟨⟨first :: tail, raw, offset + Utf8.size gap⟩, stop, rfl, ?_⟩
    rw [← readAttributes_of_attribute hskip hread]
    simp

/-! ## A list -/

/-- A sequence of attributes of new names is read to its end, whatever comes behind it. -/
theorem IsAttributes.readAttributes_append {as : List (List Char × List Char)} {text : List Char}
    (h : IsAttributes as text) {earlier : List Attribute} (hnodup : (as.map Prod.fst).Nodup)
    (hnew : ∀ name ∈ as.map Prod.fst, ∀ e ∈ earlier, e.name ≠ name) (offset : Nat)
    (rest : List Char) :
    ∃ earlier' offset' gap, allBlank gap = true ∧
      (readAttributes earlier offset (text ++ rest)).attributes.map Attribute.entry
        = as ++ (readAttributes earlier' offset' (gap ++ rest)).attributes.map Attribute.entry ∧
      (readAttributes earlier offset (text ++ rest)).fault
        = (readAttributes earlier' offset' (gap ++ rest)).fault := by
  -- the names read so far grow with each attribute, and none of them comes again
  induction h generalizing earlier offset with
  | nil hgap => exact ⟨earlier, offset, _, hgap, rfl, rfl⟩
  | @cons entry as text more hentry _ ih =>
    rw [List.map_cons, List.nodup_cons] at hnodup
    rw [List.map_cons, List.forall_mem_cons] at hnew
    obtain ⟨a, stop, rfl, hread⟩ := hentry.readAttributes_append hnew.1 offset (more ++ rest)
    -- the names to come differ from those before, and from this one
    have hnew' : ∀ name ∈ as.map Prod.fst, ∀ e ∈ earlier ++ [a], e.name ≠ name := by
      intro name hname e he
      rcases List.mem_append.1 he with he | he
      · exact hnew.2 name hname e he
      · rw [List.mem_singleton] at he
        subst he
        rintro rfl
        exact hnodup.1 hname
    obtain ⟨earlier', offset', gap, hgap, hattributes, hfault⟩ := ih hnodup.2 hnew' stop
    refine ⟨earlier', offset', gap, hgap, ?_, ?_⟩
    · rw [List.append_assoc, hread, AttributeList.cons, List.map_cons, hattributes,
        List.cons_append]
    · rw [List.append_assoc, hread, AttributeList.cons, hfault]

/-- What has been read of a text is a well-formed list at its beginning, and all of the text if
there was no fault. -/
theorem exists_of_readAttributes (earlier : List Attribute) (offset : Nat) (cs : List Char) :
    ∃ text rest, cs = text ++ rest ∧
      IsAttributeList ((readAttributes earlier offset cs).attributes.map Attribute.entry) text ∧
      (∀ a ∈ (readAttributes earlier offset cs).attributes, ∀ e ∈ earlier, e.name ≠ a.name) ∧
      ((readAttributes earlier offset cs).fault = none → rest = []) := by
  -- a fault ends the list before the attribute that it stands in
  fun_induction readAttributes earlier offset cs with
  | case1 earlier offset cs start hskip =>
    obtain ⟨gap, rfl, hgap, -⟩ := exists_of_skipBlank hskip
    exact ⟨gap, [], rfl, ⟨.nil hgap, List.nodup_nil⟩, nofun, fun _ => rfl⟩
  | case2 earlier offset cs start first rest hskip fault hread =>
    exact ⟨[], cs, rfl, ⟨.nil rfl, List.nodup_nil⟩, nofun, nofun⟩
  | case3 earlier offset cs start first rest hskip a stop after hread ih =>
    obtain ⟨text, rfl, htext, hnew⟩ := exists_of_readAttribute hskip hread
    obtain ⟨more, left, rfl, hmore, hnews, hleft⟩ := ih
    refine ⟨text ++ more, left, by simp, ⟨.cons htext hmore.isAttributes, ?_⟩, ?_, hleft⟩
    · refine List.nodup_cons.2 ⟨?_, hmore.nodup⟩
      rintro hmem
      obtain ⟨entry, hentry, hname⟩ := List.mem_map.1 hmem
      obtain ⟨b, hb, rfl⟩ := List.mem_map.1 hentry
      exact hnews b hb a (by simp) hname.symm
    · refine List.forall_mem_cons.2 ⟨hnew, fun b hb e he => ?_⟩
      exact hnews b hb e (List.mem_append_left _ he)

/-- No fault is found in just the well-formed lists, and of those every attribute is read. -/
theorem isAttributeList_iff (offset : Nat) {as : List (List Char × List Char)} {text : List Char} :
    IsAttributeList as text ↔ (readAttributes [] offset text).fault = none ∧
      (readAttributes [] offset text).attributes.map Attribute.entry = as := by
  constructor
  · intro h
    obtain ⟨earlier, offset', gap, hgap, hattributes, hfault⟩ :=
      h.isAttributes.readAttributes_append h.nodup (fun _ _ _ => List.not_mem_nil.elim) offset []
    -- behind the last attribute there is only white space
    have hend : readAttributes earlier offset' (gap ++ []) = .nil :=
      readAttributes_of_blank (skipBlank_append offset' hgap (by simp))
    rw [List.append_nil text, hend] at hattributes hfault
    exact ⟨hfault, by rw [hattributes]; exact List.append_nil as⟩
  · rintro ⟨hfault, rfl⟩
    obtain ⟨text', rest, rfl, hlist, -, hrest⟩ := exists_of_readAttributes [] offset text
    rw [hrest hfault, List.append_nil] at hlist ⊢
    exact hlist

instance (as : List (List Char × List Char)) (text : List Char) :
    Decidable (IsAttributeList as text) :=
  decidable_of_iff _ (isAttributeList_iff 0).symm

theorem isWellFormedList_iff (offset : Nat) {text : List Char} :
    IsWellFormedList text ↔ (readAttributes [] offset text).fault = none := by
  constructor
  · rintro ⟨as, h⟩
    exact ((isAttributeList_iff offset).1 h).1
  · intro hfault
    exact ⟨_, (isAttributeList_iff offset).2 ⟨hfault, rfl⟩⟩

instance (text : List Char) : Decidable (IsWellFormedList text) :=
  decidable_of_iff _ (isWellFormedList_iff 0).symm

/-- Of a text that begins with a well-formed list the attributes in it are read. -/
theorem IsAttributeList.prefix_entries {as : List (List Char × List Char)} {text cs : List Char}
    (h : IsAttributeList as text) (hbegin : text <+: cs) (offset : Nat) :
    as <+: (readAttributes [] offset cs).attributes.map Attribute.entry := by
  obtain ⟨rest, rfl⟩ := hbegin
  obtain ⟨earlier, offset', gap, -, hattributes, -⟩ :=
    h.isAttributes.readAttributes_append h.nodup (fun _ _ _ => List.not_mem_nil.elim) offset rest
  exact ⟨_, hattributes.symm⟩

/-! ## Looking up -/

/-- A look-up depends on the names and written values that were read, and on the fault only if the
name is not among them. -/
theorem AttributeList.lookup_eq (l : AttributeList) (name : List Char) :
    l.lookup name = match (l.attributes.map Attribute.entry).find? (·.1 = name), l.fault with
      | some entry, _ => .ok (some entry.2)
      | none, some fault => .error fault
      | none, none => .ok none := by
  rw [List.find?_map]
  show l.lookup name = match (l.attributes.find? (·.name = name)).map Attribute.entry, l.fault with
      | some entry, _ => .ok (some entry.2)
      | none, some fault => .error fault
      | none, none => .ok none
  unfold AttributeList.lookup
  cases l.attributes.find? (·.name = name) <;> cases l.fault <;> rfl

theorem AttributeList.lookup_of_fault_eq_none {l : AttributeList} (h : l.fault = none)
    (name : List Char) :
    l.lookup name
      = .ok (((l.attributes.map Attribute.entry).find? (·.1 = name)).map Prod.snd) := by
  rw [l.lookup_eq, h]
  cases (l.attributes.map Attribute.entry).find? (·.1 = name) <;> rfl

/-- What stands behind an attribute makes no difference to its look-up. -/
theorem AttributeList.lookup_of_prefix {l : AttributeList} {as : List (List Char × List Char)}
    {name : List Char} (h : as <+: l.attributes.map Attribute.entry)
    (hname : name ∈ as.map Prod.fst) :
    l.lookup name = .ok ((as.find? (·.1 = name)).map Prod.snd) := by
  obtain ⟨entry, hentry, rfl⟩ := List.mem_map.1 hname
  obtain ⟨found, hfound⟩ : ∃ found, as.find? (·.1 = entry.1) = some found :=
    Option.isSome_iff_exists.1 (List.find?_isSome.2 ⟨entry, hentry, by simp⟩)
  obtain ⟨more, hmore⟩ := h
  rw [l.lookup_eq, ← hmore, List.find?_append, hfound]
  rfl

/-- A look-up that meets the fault has passed by all attributes before it. -/
theorem AttributeList.mem_of_lookup {l : AttributeList} {name : List Char}
    {raw : Option (List Char)} (hfault : l.fault ≠ none) (h : l.lookup name = .ok raw) :
    name ∈ (l.attributes.map Attribute.entry).map Prod.fst := by
  rw [l.lookup_eq] at h
  split at h
  · rename_i entry hfind
    have hname : entry.1 = name := by simpa using List.find?_some hfind
    exact hname ▸ List.mem_map_of_mem (List.mem_of_find?_eq_some hfind)
  · cases h
  · rename_i hnone
    exact absurd hnone hfault

end InstallManifest.Markup
