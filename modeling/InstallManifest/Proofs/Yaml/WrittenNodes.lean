import InstallManifest.Proofs.Yaml.Printable
import InstallManifest.Yaml.Node.Reading

/-!
# Nodes of written blocks

The tokens of a written block are read as a node of the same shape. The descent takes less than four
levels for each token, which is how deep a document may be read.
-/

namespace InstallManifest.Yaml

namespace Block

/-! ## Nodes like blocks -/

mutual

/-- Whether a node has the shape, the styles and the texts of a block, and no properties. -/
inductive Matches : Block → Node → Prop
  | scalar (style : ScalarStyle) (text : String) (mark : Mark) :
    Matches (scalar style text) (.scalar mark none none style text)
  | sequence {items : List Block} {nodes : List Node} (mark : Mark)
    (all : MatchesItems items nodes) : Matches (sequence items) (.sequence mark none none nodes)
  | mapping {entries : List (String × Block)} {nodes : List (Node × Node)} (mark : Mark)
    (all : MatchesEntries entries nodes) :
    Matches (mapping entries) (.mapping mark none none nodes)

inductive MatchesItems : List Block → List Node → Prop
  | nil : MatchesItems [] []
  | cons {item : Block} {items : List Block} {node : Node} {nodes : List Node}
    (first : Matches item node) (rest : MatchesItems items nodes) :
    MatchesItems (item :: items) (node :: nodes)

inductive MatchesEntries : List (String × Block) → List (Node × Node) → Prop
  | nil : MatchesEntries [] []
  | cons {value : Block} {entries : List (String × Block)} {node : Node}
    {nodes : List (Node × Node)} (key : String) (mark : Mark) (first : Matches value node)
    (rest : MatchesEntries entries nodes) :
    MatchesEntries ((key, value) :: entries) ((.scalar mark none none .plain key, node) :: nodes)

end

end Block

/-! ## Readers by their first tokens -/

section

variable {e : Surroundings} {block unindented : Bool} {fuel : Nat} {absent : List TokenKind}
  {start : Mark} {first : Bool} {t : Token} {ts : List Token}

theorem readNode_scalar {text : String} {style : ScalarStyle} (h : t.kind = .scalar text style) :
    readNode e block unindented (fuel + 1) ⟨t :: ts, []⟩ =
      (.scalar t.start none none style text, .ok ⟨ts, []⟩) := by
  obtain ⟨kind, start, stop⟩ := t
  subst h
  rfl

theorem readNode_brackets (h : t.kind = .flowSequenceStart) :
    readNode e block unindented (fuel + 1) ⟨t :: ts, []⟩ =
      Part.map (.sequence t.start none none) (readItems e .flow t.start true fuel ⟨ts, []⟩) := by
  obtain ⟨kind, start, stop⟩ := t
  subst h
  rfl

theorem readNode_mapping (h : t.kind = .blockMappingStart) :
    readNode e true unindented (fuel + 1) ⟨t :: ts, []⟩ =
      Part.map (.mapping t.start none none) (readEntries e .block t.start true fuel ⟨ts, []⟩) := by
  obtain ⟨kind, start, stop⟩ := t
  subst h
  rfl

/-- A dash where no sequence has begun is the first item of one that has no indentation of its own,
and is read as such. -/
theorem readNode_unindented (h : t.kind = .blockEntry) :
    readNode e block true (fuel + 1) ⟨t :: ts, []⟩ =
      Part.map (.sequence t.start none none)
        (readItems e .unindented t.start true fuel ⟨t :: ts, []⟩) := by
  obtain ⟨kind, start, stop⟩ := t
  subst h
  rfl

/-- A node that may be missing is there unless its place begins with what ends it. -/
theorem readOptional_of_notMem {mark : Option Mark} (h : t.kind ∉ absent) :
    readOptional e block unindented absent mark (fuel + 1) ⟨t :: ts, []⟩ =
      readNode e block unindented fuel ⟨t :: ts, []⟩ := by
  rw [readOptional]
  exact if_neg h

theorem readValue_of_value (h : t.kind = .value) :
    readValue e true unindented absent (fuel + 1) ⟨t :: ts, []⟩ =
      readOptional e true unindented absent (some t.stop) fuel ⟨ts, []⟩ := by
  rw [readValue]
  exact if_pos h

theorem readItems_closed (h : t.kind = .flowSequenceEnd) :
    readItems e .flow start first (fuel + 1) ⟨t :: ts, []⟩ = ([], .ok ⟨ts, []⟩) := by
  rw [readItems]
  exact if_pos h

theorem readItems_of_dash (h : t.kind = .blockEntry) :
    readItems e .unindented start first (fuel + 1) ⟨t :: ts, []⟩ =
      consItem
        (readOptional e true false [.blockEntry, .key, .value, .blockEnd] t.stop fuel ⟨ts, []⟩)
        (readItems e .unindented start false fuel) := by
  rw [readItems]
  exact if_pos h

/-- A sequence without an indentation of its own ends where no dash follows. -/
theorem readItems_of_not_dash (h : t.kind ≠ .blockEntry) :
    readItems e .unindented start first (fuel + 1) ⟨t :: ts, []⟩ = ([], .ok ⟨t :: ts, []⟩) := by
  rw [readItems]
  exact if_neg h

/-- A key is followed by its value, and that by further entries. -/
theorem readEntries_of_key (h : t.kind = .key) :
    readEntries e .block start first (fuel + 1) ⟨t :: ts, []⟩ =
      consEntry (readOptional e true true [.key, .value, .blockEnd] t.stop fuel ⟨ts, []⟩)
        (readValue e true true [.key, .value, .blockEnd] fuel)
        (readEntries e .block start false fuel) := by
  rw [readEntries]
  exact if_pos h

theorem readEntries_of_end (h : t.kind = .blockEnd) :
    readEntries e .block start first (fuel + 1) ⟨t :: ts, []⟩ = ([], .ok ⟨ts, []⟩) := by
  rw [readEntries]
  refine (if_neg ?_).trans (if_pos h)
  rw [h]
  exact nofun

end

namespace Block

/-! ## Blocks by their tokens -/

/-- Whether tokens go on in a way that ends any value: with another key or the end of the
mapping. -/
def EndsValue (ts : List Token) : Prop :=
  ∃ t more, ts = t :: more ∧ (t.kind = .key ∨ t.kind = .blockEnd)

/-- Whether the tokens of a value are read as a node of its shape. -/
def IsParsed (b : Block) : Prop :=
  ∀ (e : Surroundings) ts more fuel, ts.map (·.kind) = b.kinds → EndsValue more →
    4 * ts.length + 1 < fuel →
    ∃ node, readNode e true true fuel ⟨ts ++ more, []⟩ = (node, .ok ⟨more, []⟩) ∧ b.Matches node

/-- Whether the tokens of items are, up to the end of the sequence. -/
def ItemsAreParsed (items : List Block) : Prop :=
  ∀ (e : Surroundings) start first ts more fuel, ts.map (·.kind) = itemKinds items →
    EndsValue more → 4 * ts.length < fuel →
    ∃ nodes, readItems e .unindented start first fuel ⟨ts ++ more, []⟩ = (nodes, .ok ⟨more, []⟩) ∧
      MatchesItems items nodes

/-- Whether the tokens of entries are, up to the end of the mapping. -/
def EntriesAreParsed (entries : List (String × Block)) : Prop :=
  ∀ (e : Surroundings) start first ts more fuel,
    ts.map (·.kind) = entryKinds entries ++ [.blockEnd] → 4 * ts.length < fuel →
    ∃ nodes, readEntries e .block start first fuel ⟨ts ++ more, []⟩ = (nodes, .ok ⟨more, []⟩) ∧
      MatchesEntries entries nodes

section

variable {key : String} {value : Block} {entries : List (String × Block)} {items : List Block}

/-- A value is not left out. -/
theorem exists_kinds_cons (b : Block) :
    ∃ kind kinds, b.kinds = kind :: kinds ∧ kind ∉ [.key, .value, .blockEnd] := by
  cases b with
  | scalar style text => exact ⟨_, _, by rw [kinds], by simp⟩
  | sequence items =>
    -- without items a sequence is written in brackets
    cases items with
    | nil => exact ⟨_, _, by rw [kinds], by simp⟩
    | cons item items => exact ⟨_, _, by rw [kinds, itemKinds]; exact List.cons_ne_nil _ _, by simp⟩
  | mapping entries => exact ⟨_, _, by rw [kinds], by simp⟩

theorem isParsed_scalar (style : ScalarStyle) (text : String) : (scalar style text).IsParsed := by
  intro e ts more fuel hts _ hfuel
  obtain ⟨t, rest, rfl, ht, hrest⟩ := List.map_eq_cons_iff.1 hts
  obtain rfl := List.map_eq_nil_iff.1 hrest
  obtain ⟨fuel, rfl⟩ := Nat.exists_eq_add_one_of_ne_zero (Nat.ne_zero_of_lt hfuel)
  exact ⟨_, readNode_scalar ht, .scalar style text t.start⟩

theorem isParsed_sequence_nil : (sequence []).IsParsed := by
  intro e ts more fuel hts _ hfuel
  rw [kinds] at hts
  obtain ⟨t, rest, rfl, ht, hrest⟩ := List.map_eq_cons_iff.1 hts
  obtain ⟨u, rest, rfl, hu, hrest⟩ := List.map_eq_cons_iff.1 hrest
  obtain rfl := List.map_eq_nil_iff.1 hrest
  obtain ⟨fuel, rfl⟩ : ∃ n, fuel = n + 2 := ⟨fuel - 2, by simp at hfuel; omega⟩
  refine ⟨_, ?_, .sequence t.start .nil⟩
  rw [List.cons_append, List.cons_append, readNode_brackets ht, readItems_closed hu]
  rfl

/-- A sequence with items begins with a dash, and is what its items are. -/
theorem isParsed_sequence_cons {item : Block} (hitems : ItemsAreParsed (item :: items)) :
    (sequence (item :: items)).IsParsed := by
  intro e ts more fuel hts hmore hfuel
  have hkinds : ts.map (·.kind) = itemKinds (item :: items) := by
    rw [hts, kinds]
    exact List.cons_ne_nil _ _
  obtain ⟨fuel, rfl⟩ := Nat.exists_eq_add_one_of_ne_zero (Nat.ne_zero_of_lt hfuel)
  -- the first token is a dash, so no token begins the sequence itself
  obtain ⟨t, rest, rfl, ht, -⟩ : ∃ t rest, ts = t :: rest ∧ t.kind = .blockEntry ∧ _ := by
    rw [itemKinds] at hkinds
    exact List.map_eq_cons_iff.1 hkinds
  obtain ⟨nodes, hread, hmatches⟩ := hitems e t.start true _ more fuel hkinds hmore (by omega)
  refine ⟨_, ?_, .sequence t.start hmatches⟩
  rw [List.cons_append] at hread ⊢
  rw [readNode_unindented ht, hread]
  rfl

/-- A mapping has an end of its own: whatever follows, and wherever it stands, it is read. -/
theorem readNode_entries (hentries : EntriesAreParsed entries) (e : Surroundings)
    (unindented : Bool) {ts : List Token} (more : List Token) {fuel : Nat}
    (hts : ts.map (·.kind) = (mapping entries).kinds) (hfuel : 4 * ts.length ≤ fuel) :
    ∃ node, readNode e true unindented fuel ⟨ts ++ more, []⟩ = (node, .ok ⟨more, []⟩) ∧
      (mapping entries).Matches node := by
  rw [kinds] at hts
  obtain ⟨t, rest, rfl, ht, hrest⟩ := List.map_eq_cons_iff.1 hts
  rw [List.length_cons] at hfuel
  obtain ⟨fuel, rfl⟩ : ∃ n, fuel = n + 1 := ⟨fuel - 1, by omega⟩
  obtain ⟨nodes, hread, hmatches⟩ := hentries e t.start true rest more fuel hrest (by omega)
  refine ⟨_, ?_, .mapping t.start hmatches⟩
  rw [List.cons_append, readNode_mapping ht, hread]
  rfl

/-- A mapping is what its entries are. -/
theorem isParsed_mapping (hentries : EntriesAreParsed entries) : (mapping entries).IsParsed :=
  fun e _ more _ hts _ hfuel => readNode_entries hentries e true more hts (by omega)

theorem itemsAreParsed_nil : ItemsAreParsed [] := by
  intro e start first ts more fuel hts hmore hfuel
  obtain rfl := List.map_eq_nil_iff.1 hts
  obtain ⟨t, more, rfl, ht⟩ := hmore
  obtain ⟨fuel, rfl⟩ := Nat.exists_eq_add_one_of_ne_zero (Nat.ne_zero_of_lt hfuel)
  refine ⟨_, readItems_of_not_dash ?_, .nil⟩
  rcases ht with ht | ht <;> rw [ht] <;> exact nofun

/-- An item is read up to its own end, and then the others are. -/
theorem itemsAreParsed_cons (hentries : EntriesAreParsed entries) (hitems : ItemsAreParsed items) :
    ItemsAreParsed (mapping entries :: items) := by
  intro e start first ts more fuel hts hmore hfuel
  rw [itemKinds] at hts
  obtain ⟨dash, rest, rfl, hdash, hrest⟩ := List.map_eq_cons_iff.1 hts
  -- after the dash come the tokens of the item, and after them those of the others
  obtain ⟨us, vs, rfl, hus, hvs⟩ := List.map_eq_append_iff.1 hrest
  rw [List.length_cons, List.length_append] at hfuel
  obtain ⟨fuel, rfl⟩ : ∃ n, fuel = n + 2 := ⟨fuel - 2, by omega⟩
  -- two levels are taken to come down to the mapping
  obtain ⟨node, hnode, hmatches⟩ := readNode_entries hentries e false (vs ++ more) hus
    (by omega : _ ≤ fuel)
  obtain ⟨nodes, hnodes, hall⟩ := hitems e start false vs more (fuel + 1) hvs hmore (by omega)
  obtain ⟨t, us, rfl, ht, -⟩ : ∃ t rest, us = t :: rest ∧ t.kind = .blockMappingStart ∧ _ := by
    rw [kinds] at hus
    exact List.map_eq_cons_iff.1 hus
  refine ⟨_, ?_, .cons hmatches hall⟩
  rw [List.cons_append, readItems_of_dash hdash, List.append_assoc, List.cons_append,
    readOptional_of_notMem (by simp [ht]), ← List.cons_append, hnode, consItem, hnodes]
  rfl

theorem entriesAreParsed_nil : EntriesAreParsed [] := by
  intro e start first ts more fuel hts hfuel
  obtain ⟨t, rest, rfl, ht, hrest⟩ := List.map_eq_cons_iff.1 hts
  obtain rfl := List.map_eq_nil_iff.1 hrest
  obtain ⟨fuel, rfl⟩ := Nat.exists_eq_add_one_of_ne_zero (Nat.ne_zero_of_lt hfuel)
  exact ⟨_, readEntries_of_end ht, .nil⟩

/-- An entry is a key, a colon and a value, which is read up to the next key or the end. -/
theorem entriesAreParsed_cons (hvalue : value.IsParsed) (hentries : EntriesAreParsed entries) :
    EntriesAreParsed ((key, value) :: entries) := by
  intro e start first ts more fuel hts hfuel
  rw [entryKinds] at hts
  simp only [List.cons_append, List.append_assoc] at hts
  obtain ⟨k, rest, rfl, hk, hrest⟩ := List.map_eq_cons_iff.1 hts
  obtain ⟨name, rest, rfl, hname, hrest⟩ := List.map_eq_cons_iff.1 hrest
  obtain ⟨colon, rest, rfl, hcolon, hrest⟩ := List.map_eq_cons_iff.1 hrest
  obtain ⟨us, vs, rfl, hus, hvs⟩ := List.map_eq_append_iff.1 hrest
  simp only [List.length_cons, List.length_append] at hfuel
  -- three levels are taken to come down to the value
  obtain ⟨fuel, rfl⟩ : ∃ n, fuel = n + 3 := ⟨fuel - 3, by omega⟩
  -- behind the value comes another key or the end of the mapping
  have hends : EndsValue (vs ++ more) := by
    cases entries with
    | nil =>
      obtain ⟨t, vs, rfl, ht, -⟩ := List.map_eq_cons_iff.1 hvs
      exact ⟨t, vs ++ more, rfl, .inr ht⟩
    | cons entry entries =>
      rw [entryKinds] at hvs
      obtain ⟨t, vs, rfl, ht, -⟩ := List.map_eq_cons_iff.1 hvs
      exact ⟨t, vs ++ more, rfl, .inl ht⟩
  obtain ⟨node, hnode, hmatches⟩ := hvalue e us (vs ++ more) fuel hus hends (by omega)
  obtain ⟨nodes, hnodes, hall⟩ := hentries e start false vs more (fuel + 2) hvs (by omega)
  obtain ⟨kind, kinds, hkinds, hnotMem⟩ := value.exists_kinds_cons
  rw [hkinds] at hus
  obtain ⟨t, us, rfl, rfl, -⟩ := List.map_eq_cons_iff.1 hus
  -- neither the key nor the value is missing
  have hkeyNode : readOptional e true true [.key, .value, .blockEnd] (some k.stop) (fuel + 2)
      ⟨name :: colon :: (t :: us ++ (vs ++ more)), []⟩ =
      (.scalar name.start none none .plain key, .ok ⟨colon :: (t :: us ++ (vs ++ more)), []⟩) := by
    rw [readOptional_of_notMem (by simp [hname]), readNode_scalar hname]
  have hvalueNode : readValue e true true [.key, .value, .blockEnd] (fuel + 2)
      ⟨colon :: (t :: us ++ (vs ++ more)), []⟩ = (node, .ok ⟨vs ++ more, []⟩) := by
    rw [readValue_of_value hcolon, List.cons_append, readOptional_of_notMem hnotMem,
      ← List.cons_append, hnode]
  refine ⟨_, ?_, .cons key name.start hmatches hall⟩
  simp only [List.cons_append, List.append_assoc] at hkeyNode hvalueNode ⊢
  rw [readEntries_of_key hk, hkeyNode, consEntry, hvalueNode]
  dsimp only
  rw [hnodes]
  rfl

end

mutual

theorem Legible.isParsed : {b : Block} → b.Legible → b.IsParsed
  | _, .scalar _ => isParsed_scalar _ _
  | _, .sequence .nil => isParsed_sequence_nil
  | _, .sequence (.cons hfirst hitems) =>
    isParsed_sequence_cons (LegibleItems.areParsed (.cons hfirst hitems))
  | _, .mapping hentries => isParsed_mapping hentries.areParsed

theorem LegibleItems.areParsed : {items : List Block} → LegibleItems items → ItemsAreParsed items
  | _, .nil => itemsAreParsed_nil
  | _, .cons (.mapping hentries) hitems => itemsAreParsed_cons hentries.areParsed hitems.areParsed

theorem LegibleEntries.areParsed : {entries : List (String × Block)} → LegibleEntries entries →
    EntriesAreParsed entries
  | _, .nil => entriesAreParsed_nil
  | _, .cons _ hvalue hentries => entriesAreParsed_cons hvalue.isParsed hentries.areParsed

end

/-! ## Whole documents -/

/-- A document that was written is read whole, as a node like its entries. -/
theorem ofText_document {key : String} {value : Block} {entries : List (String × Block)}
    (h : LegibleEntries ((key, value) :: entries)) :
    ∃ root, Document.ofText (document ((key, value) :: entries)) = { root } ∧
      (mapping ((key, value) :: entries)).Matches root := by
  obtain ⟨ts, hts, hkinds⟩ := tokens_document h
  have hsplit : ts.map (·.kind) = (mapping ((key, value) :: entries)).kinds ++ [.streamEnd] := by
    simp [hkinds, kinds]
  obtain ⟨us, vs, rfl, hus, hvs⟩ := List.map_eq_append_iff.1 hsplit
  obtain ⟨last, vs, rfl, hlast, hvs⟩ := List.map_eq_cons_iff.1 hvs
  obtain rfl := List.map_eq_nil_iff.1 hvs
  -- the document may be as deep as it has tokens
  have hfuel : 4 * us.length ≤ 4 * (us ++ [last]).length + 4 := by
    rw [List.length_append]
    omega
  obtain ⟨root, hroot, hmatches⟩ := readNode_entries (LegibleEntries.areParsed h)
    ⟨.forbidden 0, defaultHandles⟩ false [last] hus hfuel
  obtain ⟨t, us, rfl, ht, -⟩ : ∃ t rest, us = t :: rest ∧ t.kind = .blockMappingStart ∧ _ := by
    rw [kinds] at hus
    exact List.map_eq_cons_iff.1 hus
  refine ⟨root, ?_, hmatches⟩
  -- nothing stands before the root, and nothing but the end of the text after it
  have hdirective : t.isDirective = false := by simp [Token.isDirective, ht]
  rw [List.cons_append] at hts hroot
  have hstart : readStart (.forbidden 0) (t :: (us ++ [last])) =
      .ok (defaultHandles, t :: (us ++ [last])) := by
    simp [readStart, hdirective, ht, pure, Except.pure]
  have hread : readRoot ⟨.forbidden 0, defaultHandles⟩ false (t :: (us ++ [last])) =
      (root, .ok ⟨[last], []⟩) := hroot
  rw [Document.ofText, hts, Document.ofTokens]
  simp [ht, hstart, hread, holdMore, hlast]

end Block

end InstallManifest.Yaml
