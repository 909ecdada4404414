import InstallManifest.Proofs.Yaml.Numbers
import InstallManifest.Proofs.Yaml.WrittenNodes
import InstallManifest.Yaml.Decode

/-!
# Values of written blocks

A reader decodes a block to a value if it makes that value of every node like the block. For each
kind of reader there is one lemma on the blocks that it decodes; the readers of records are put
together from them, one entry after another.
-/

namespace InstallManifest.Yaml

/-- A text that means itself is not left out, and not taken for nothing. -/
theorem not_null_of_meansItself {s : String} (h : meansItself s = true) :
    (s.isEmpty || isNull s) = false := by
  refine Bool.eq_false_iff.2 fun hnull => ?_
  -- what is taken for nothing does not mean itself
  rw [meansItself, Meaning.ofPlain, if_pos hnull] at h
  cases h

/-- Of the texts that have a style of their own, those written plain mean themselves. -/
theorem meansItself_of_styleOf_eq_plain {s : String} (h : styleOf s = .plain) :
    meansItself s = true := by
  unfold styleOf at h
  dsimp only at h
  split at h
  · split at h <;> cases h
  split at h
  · next hplain => exact (Bool.and_eq_true _ _ ▸ hplain).1
  · unfold quotingStyle at h
    split at h <;> cases h

namespace Decode

variable {α β σ : Type}

/-! ## Decodings that succeed -/

/-- Whether a decoding gives a value, whatever the document and the count of references so far. -/
def Yields (decode : Decode α) (a : α) : Prop := ∀ d count, decode d count = .ok (a, count)

namespace Yields

variable {decode : Decode α} {a : α}

theorem pure (a : α) : Yields (Pure.pure a) a := fun _ _ => rfl

theorem bind {f : α → Decode β} {b : β} (h : Yields decode a) (hf : Yields (f a) b) :
    Yields (decode >>= f) b := by
  intro d count
  change (decode d count >>= fun result => f result.1 d result.2) = _
  rw [h d count, ok_bind, hf d count]

theorem map (f : α → β) (h : Yields decode a) : Yields (f <$> decode) (f a) :=
  h.bind (f := fun a => Pure.pure (f a)) (.pure (f a))

/-- The place of a decoding matters to its faults only. -/
theorem within (h : Yields decode a) (path : Path) (mark : Mark) :
    Yields (within path mark decode) a := by
  intro d count
  rw [Decode.within, h d count]

theorem once (h : Yields decode a) (name : String) : Yields (once name none decode) (some a) :=
  h.map some

/-- A key that was given is not missing. -/
theorem required (name : String) (a : α) : Yields (required name (some a)) a := .pure a

end Yields

/-! ## Blocks of scalars and sequences -/

/-- Whether a reader makes a value of every node like a block. -/
def Decodes (reader : Reader α) (b : Block) (a : α) : Prop :=
  ∀ node, b.Matches node → ∀ path, Yields (reader path node) a

section

variable {reader : Reader α} {a : α} {style : ScalarStyle} {text : String}

/-- Any scalar is a text, whatever its style. -/
theorem decodes_textOf (expected : String) (style : ScalarStyle) (text : String) :
    Decodes (textOf expected) (.scalar style text) text := by
  rintro _ ⟨_, _, mark⟩ path
  exact .pure text

theorem decodes_char (style : ScalarStyle) (c : Char) :
    Decodes char (.scalar style (String.singleton c)) c := by
  rintro _ ⟨_, _, mark⟩ path
  refine Yields.bind (a := .scalar mark none none style (String.singleton c)) (.pure _) ?_
  dsimp only
  rw [String.toList_singleton]
  exact .pure c

/-- A plain scalar that spells a value is that value. -/
theorem decodes_spelt {tagName expected : String} {value? : String → Option α}
    (h : value? text = some a) : Decodes (spelt tagName expected value?) (.bare text) a := by
  rintro _ ⟨_, _, mark⟩ path
  refine Yields.bind (a := .scalar mark none none .plain text) (.pure _) ?_
  dsimp only
  rw [decide_eq_true rfl, Bool.true_or, if_pos rfl, h]
  exact .pure a

/-- A value is not taken for a missing one unless it is plain and spelt as nothing. -/
theorem Decodes.optional (h : Decodes reader (.scalar style text) a)
    (hplain : style = .plain → (text.isEmpty || isNull text) = false) :
    Decodes (Decode.optional reader) (.scalar style text) (some a) := by
  rintro _ ⟨_, _, mark⟩ path
  refine Yields.bind (a := .scalar mark none none style text) (.pure _) ?_
  dsimp only
  have hvalue := (h _ (.scalar style text mark) path).map some
  by_cases hstyle : style = .plain
  · rw [if_neg (not_not_intro hstyle), hplain hstyle]
    exact hvalue
  · rw [if_pos hstyle]
    exact hvalue

/-- A text that was written in the style that suits it is never taken for a missing one. -/
theorem Decodes.optional_text {text : String} (h : Decodes reader (.text text) a) :
    Decodes (Decode.optional reader) (.text text) (some a) :=
  h.optional fun hplain => not_null_of_meansItself (meansItself_of_styleOf_eq_plain hplain)

theorem decodes_variant {known : List String} {ofName? : String → Option α}
    (h : ofName? text = some a) : Decodes (variant known ofName?) (.scalar style text) a := by
  rintro _ ⟨_, _, mark⟩ path
  refine Yields.bind (a := .scalar mark none none style text) (.pure _) ?_
  refine Yields.within ?_ path mark
  dsimp only
  rw [h]
  exact .pure a

/-- The items of a sequence are decoded in their order, each by the same reader. -/
theorem yields_items {blocks : List Block} {as : List α}
    (h : List.Forall₂ (Decodes reader) blocks as) {nodes : List Node}
    (hnodes : Block.MatchesItems blocks nodes) (path : Path) (index : Nat) :
    Yields (items reader path index nodes) as := by
  induction h generalizing nodes index with
  | nil =>
    cases hnodes
    exact .pure []
  | cons hvalue _ ih =>
    cases hnodes with
    | cons hfirst hrest => exact (hvalue _ hfirst _).bind ((ih hrest (index + 1)).bind (.pure _))

/-- A sequence is decoded item by item. -/
theorem decodes_list {blocks : List Block} {as : List α}
    (h : List.Forall₂ (Decodes reader) blocks as) :
    Decodes (list reader) (.sequence blocks) as := by
  rintro _ ⟨⟩ path
  next nodes mark hnodes => exact (yields_items h hnodes path 0).within path mark

end

theorem decodes_boolean (b : Bool) : Decodes boolean (.bare (toString b)) b :=
  decodes_spelt (by cases b <;> decide)

/-- A number of at most 64 bits is read from its decimal digits. -/
theorem decodes_natural {n : Nat} (h : n < Nat.pow 2 64) :
    Decodes natural (.bare (toString n)) n := by
  refine decodes_spelt ?_
  rw [Nat.toString_eq_ofList_toDigits, String.toList_ofList]
  exact unsigned?_toDigits h

/-! ## Records -/

section

variable {step : σ → String → Path → Node → Decode σ} {s s' s'' : σ}
  {entries : List (String × Block)}

/-- What has been collected before some entries and after them, where a step reads the value of each
wherever it stands. -/
inductive Collects (step : σ → String → Path → Node → Decode σ) :
    σ → List (String × Block) → σ → Prop
  | nil (s : σ) : Collects step s [] s
  | cons {s s' s'' : σ} {key : String} {value : Block} {entries : List (String × Block)}
    (first : ∀ node, value.Matches node → ∀ path, Yields (step s key path node) s')
    (rest : Collects step s' entries s'') : Collects step s ((key, value) :: entries) s''

/-- What comes after some entries begins with what they have collected. -/
theorem Collects.append {before after : List (String × Block)} (hbefore : Collects step s before s')
    (hafter : Collects step s' after s'') : Collects step s (before ++ after) s'' := by
  induction hbefore with
  | nil s => exact hafter
  | cons hfirst _ ih => exact .cons hfirst (ih hafter)

/-- The value of a key that was not given before. -/
theorem Decodes.field {reader : Reader α} {b : Block} {a : α} (h : Decodes reader b a)
    (name : String) {store : Option α → σ} (node : Node) (hnode : b.Matches node) (path : Path) :
    Yields (Decode.once name none (reader path node) >>= fun a => pure (store a))
      (store (some a)) :=
  ((h node hnode path).once name).bind (.pure _)

/-- An entry that may be missing. -/
theorem Collects.optional (next : Option α → σ) {field : α → String × Block}
    (h : ∀ a node, (field a).2.Matches node → ∀ path,
      Yields (step (next none) (field a).1 path node) (next (some a))) (a? : Option α) :
    Collects step (next none) (a?.map field).toList (next a?) := by
  cases a? with
  | none => exact .nil _
  | some a => exact .cons (h a) (.nil _)

/-- Entries that collect something are decoded to it. -/
theorem Collects.yields (h : Collects step s entries s') {nodes : List (Node × Node)}
    (hnodes : Block.MatchesEntries entries nodes) (path : Path) :
    Yields (Decode.entries step path s nodes) s' := by
  induction h generalizing nodes with
  | nil s =>
    cases hnodes
    exact .pure s
  | @cons _ _ _ key _ _ hvalue _ ih =>
    cases hnodes with
    | cons _ _ hfirst hrest =>
      exact Yields.bind (a := key) (.pure key) ((hvalue _ hfirst _).bind (ih hrest))

/-- A record is what is made of all that its entries have collected. -/
theorem decodes_record {expected : String} {finish : σ → Decode α} {a : α}
    (hentries : Collects step s entries s') (hfinish : Yields (finish s') a) :
    Decodes (record expected s step finish) (.mapping entries) a := by
  rintro _ ⟨⟩ path
  next nodes mark hnodes => exact ((hentries.yields hnodes path).bind hfinish).within path mark

end

end Decode

/-- What was written as a document is decoded by a reader of its blocks. -/
theorem decode_document {α : Type} {reader : Decode.Reader α} {a : α}
    {entries : List (String × Block)} (hne : entries ≠ []) (hlegible : Block.LegibleEntries entries)
    (hdecodes : Decode.Decodes reader (.mapping entries) a) :
    decode reader (Block.document entries) = .ok a := by
  obtain ⟨⟨key, value⟩, entries, rfl⟩ := List.exists_cons_of_ne_nil hne
  obtain ⟨root, hroot, hmatches⟩ := Block.ofText_document hlegible
  rw [decode, hroot]
  dsimp only
  rw [hdecodes root hmatches .root { root } 0]
  rfl

end InstallManifest.Yaml
