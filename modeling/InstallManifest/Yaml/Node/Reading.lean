import InstallManifest.Yaml.Node

/-!
# Tokens as nodes

The nodes of a document are read by recursive descent. Where a value may be left out an empty
scalar stands for it. A fault leaves what has been read before it in the tree: each reader gives its
part of the tree together with either what comes after it or the fault, and a sequence or mapping
that broke off ends with a cut.
-/

namespace InstallManifest.Yaml

open Utf8 (Bytes)

/-- What stays the same within a document. -/
structure Surroundings where
  /-- The fault behind the last token. -/
  stop : Fault
  /-- The meaning of tag handles. -/
  handles : List (String × Bytes)

/-- What is still to be read, and the anchors so far. -/
structure Remainder where
  tokens : List Token
  /-- The names of anchors, each once, with the number that it has now. -/
  anchors : List (String × Nat) := []

/-- A part of the tree, and what comes after it or why nothing does. -/
abbrev Part (α : Type) := α × Except Fault Remainder

namespace Remainder

/-- The remainder without its first token. -/
def tail (r : Remainder) : Remainder := { r with tokens := r.tokens.tail }

/-- Gives the anchor of a node a number: how many names there are so far. -/
def declare (r : Remainder) (anchor : Option String) : Option Nat × Remainder :=
  match anchor with
  | none => (none, r)
  | some name =>
    let id := r.anchors.length
    (some id, { r with anchors := (name, id) :: r.anchors.filter (·.1 ≠ name) })

/-- An empty scalar for something left out. -/
def blank (r : Remainder) (mark : Mark) : Part Node :=
  (.scalar mark none none .plain "", .ok r)

end Remainder

/-- A part that breaks off at once. -/
def broken (fault : Fault) : Part Node := (.cut, .error fault)

/-- A fault at a token within something that began at `start`. -/
def faultAt (t : Token) (problem : Problem) (context : Context) (start : Mark) : Fault :=
  .malformed problem t.start (some (context, start))

/-! ## Properties of a node -/

/-- The anchor and the tag before a node. -/
structure Properties where
  start : Mark
  anchor : Option String := none
  tag : Option Bytes := none

namespace Surroundings

variable (e : Surroundings)

/-- The next token. -/
def next (r : Remainder) : Except Fault Token :=
  match r.tokens with
  | [] => .error e.stop
  | t :: _ => .ok t

/-- The whole name of a tag whose token begins at `mark`. -/
def tagName (start mark : Mark) (handle : Option String) (suffix : Bytes) : Except Fault Bytes :=
  match handle with
  | none => .ok suffix
  | some handle =>
    match e.handles.lookup handle with
    | some meaning => .ok (meaning ++ suffix)
    | none => .error (.malformed .handleUnknown mark (some (.node, start)))

/-- Reads an anchor and a tag, in either order. -/
def readProperties (r : Remainder) : Except Fault (Properties × Remainder) := do
  let first ← e.next r
  let start := first.start
  match first.kind with
  | .anchor name =>
    let r := r.tail
    let second ← e.next r
    match second.kind with
    | .tag handle suffix =>
      let r := r.tail
      discard (e.next r)
      return (⟨start, some name, some (← e.tagName start second.start handle suffix)⟩, r)
    | _ => return (⟨start, some name, none⟩, r)
  | .tag handle suffix =>
    let r := r.tail
    let second ← e.next r
    match second.kind with
    | .anchor name =>
      let r := r.tail
      discard (e.next r)
      return (⟨start, some name, some (← e.tagName start first.start handle suffix)⟩, r)
    | _ => return (⟨start, none, some (← e.tagName start first.start handle suffix)⟩, r)
  | _ => return (⟨start, none, none⟩, r)

end Surroundings

/-! ## Collections -/

/-- The ways to write a sequence. -/
inductive SequenceForm where
  | block
  /-- A block at the column of the key above it, without tokens for its start and end. -/
  | unindented
  | flow
  deriving DecidableEq

/-- The ways to write a mapping. -/
inductive MappingForm where
  | block
  | flow
  deriving DecidableEq

/-- Makes one part of the tree from another. -/
def Part.map (f : α → β) (p : Part α) : Part β := (f p.1, p.2)

/-- Puts an item in front of those after it; if it broke off, so does the sequence. -/
def consItem (item : Part Node) (items : Remainder → Part (List Node)) : Part (List Node) :=
  match item with
  | (node, .error fault) => ([node, .cut], .error fault)
  | (node, .ok r) => Part.map (node :: ·) (items r)

/-- Puts a key and its value in front of the entries after them. -/
def consEntry (key : Part Node) (value : Remainder → Part Node)
    (entries : Remainder → Part (List (Node × Node))) : Part (List (Node × Node)) :=
  match key with
  | (key, .error fault) => ([(key, .cut)], .error fault)
  | (key, .ok r) =>
    match value r with
    | (value, .error fault) => ([(key, value), (.cut, .cut)], .error fault)
    | (value, .ok r) => Part.map ((key, value) :: ·) (entries r)

mutual

/-- Reads a node. It may be a block where `block` says so, and a sequence without indentation of
its own where `unindented` does. -/
def readNode (e : Surroundings) (block unindented : Bool) : (fuel : Nat) → Remainder → Part Node
  | 0, _ => broken e.stop
  | fuel + 1, r =>
    match r.tokens with
    | ⟨.reference name, start, _⟩ :: _ =>
      match r.anchors.lookup name with
      | none => broken (.unknownAnchor start)
      | some id => (.reference start id, .ok r.tail)
    | _ =>
      match e.readProperties r with
      | .error fault => broken fault
      | .ok (p, r) =>
        match r.tokens with
        | [] => broken e.stop
        | t :: _ =>
          let (id, declared) := r.declare p.anchor
          let sequence (form : SequenceForm) (r : Remainder) : Part Node :=
            Part.map (.sequence p.start id p.tag) (readItems e form t.start true fuel r)
          let mapping (form : MappingForm) (r : Remainder) : Part Node :=
            Part.map (.mapping p.start id p.tag) (readEntries e form t.start true fuel r)
          -- a node with an anchor or a tag may be left out
          let bare : Part Node :=
            if p.anchor.isSome || p.tag.isSome then
              (.scalar p.start id p.tag .plain "", .ok declared)
            else
              broken (faultAt t .contentExpected (if block then .blockNode else .flowNode) p.start)
          match t.kind with
          | .scalar text style => (.scalar p.start id p.tag style text, .ok declared.tail)
          | .flowSequenceStart => sequence .flow declared.tail
          | .flowMappingStart => mapping .flow declared.tail
          | .blockSequenceStart => if block then sequence .block declared.tail else bare
          | .blockMappingStart => if block then mapping .block declared.tail else bare
          | .blockEntry => if unindented then sequence .unindented declared else bare
          | _ => bare

/-- Reads a node, unless one of the given tokens comes next; then it is left out, and an empty
scalar stands at `mark`, or else at that token. -/
def readOptional (e : Surroundings) (block unindented : Bool) (absent : List TokenKind)
    (mark : Option Mark) : (fuel : Nat) → Remainder → Part Node
  | 0, _ => broken e.stop
  | fuel + 1, r =>
    match r.tokens with
    | [] => broken e.stop
    | t :: _ =>
      if t.kind ∈ absent then r.blank (mark.getD t.start) else readNode e block unindented fuel r

/-- Reads the items of a sequence that began at `start`, from the first on or from a later one. -/
def readItems (e : Surroundings) (form : SequenceForm) (start : Mark) (first : Bool) :
    (fuel : Nat) → Remainder → Part (List Node)
  | 0, _ => ([.cut], .error e.stop)
  | fuel + 1, r =>
    match r.tokens with
    | [] => ([.cut], .error e.stop)
    | t :: _ =>
      match form with
      | .block =>
        if t.kind = .blockEntry then
          consItem (readOptional e true false [.blockEntry, .blockEnd] t.stop fuel r.tail)
            (readItems e form start false fuel)
        else if t.kind = .blockEnd then ([], .ok r.tail)
        else ([.cut], .error (faultAt t .entryExpected .blockSequence start))
      | .unindented =>
        if t.kind = .blockEntry then
          consItem
            (readOptional e true false [.blockEntry, .key, .value, .blockEnd] t.stop fuel r.tail)
            (readItems e form start false fuel)
        else ([], .ok r)
      | .flow =>
        if t.kind = .flowSequenceEnd then ([], .ok r.tail)
        else if first then readFlowItem e start fuel r
        else if t.kind = .flowEntry then readFlowItem e start fuel r.tail
        else ([.cut], .error (faultAt t .sequenceCommaExpected .flowSequence start))

/-- Reads an item between brackets and all after it. An item may be a single entry of a mapping. -/
def readFlowItem (e : Surroundings) (start : Mark) : (fuel : Nat) → Remainder → Part (List Node)
  | 0, _ => ([.cut], .error e.stop)
  | fuel + 1, r =>
    match r.tokens with
    | [] => ([.cut], .error e.stop)
    | t :: _ =>
      if t.kind = .flowSequenceEnd then ([], .ok r.tail)
      else if t.kind = .key then
        consItem (Part.map (.mapping t.start none none) (readPair e fuel r.tail))
          (readItems e .flow start false fuel)
      else
        consItem (readNode e false false fuel r) (readItems e .flow start false fuel)

/-- Reads a single entry of a mapping between brackets, after the indicator of its key. What comes
in place of the key is passed over. -/
def readPair (e : Surroundings) : (fuel : Nat) → Remainder → Part (List (Node × Node))
  | 0, _ => ([(.cut, .cut)], .error e.stop)
  | fuel + 1, r =>
    match r.tokens with
    | [] => ([(.cut, .cut)], .error e.stop)
    | t :: _ =>
      let key :=
        -- the token after an indicator without a key is lost
        if t.kind ∈ [.value, .flowEntry, .flowSequenceEnd] then r.tail.blank t.stop
        else readNode e false false fuel r
      consEntry key (readValue e false false [.flowEntry, .flowSequenceEnd] fuel) fun r =>
        match r.tokens with
        | [] => ([(.cut, .cut)], .error e.stop)
        | _ :: _ => ([], .ok r)

/-- Reads the value of a key, if it has one. -/
def readValue (e : Surroundings) (block unindented : Bool) (absent : List TokenKind) :
    (fuel : Nat) → Remainder → Part Node
  | 0, _ => broken e.stop
  | fuel + 1, r =>
    match r.tokens with
    | [] => broken e.stop
    | t :: _ =>
      if t.kind = .value then
        readOptional e block unindented absent (if block then some t.stop else none) fuel r.tail
      else r.blank t.start

/-- Reads the entries of a mapping that began at `start`, from the first on or from a later one. -/
def readEntries (e : Surroundings) (form : MappingForm) (start : Mark) (first : Bool) :
    (fuel : Nat) → Remainder → Part (List (Node × Node))
  | 0, _ => ([(.cut, .cut)], .error e.stop)
  | fuel + 1, r =>
    match r.tokens with
    | [] => ([(.cut, .cut)], .error e.stop)
    | t :: _ =>
      match form with
      | .block =>
        if t.kind = .key then
          consEntry (readOptional e true true [.key, .value, .blockEnd] t.stop fuel r.tail)
            (readValue e true true [.key, .value, .blockEnd] fuel)
            (readEntries e form start false fuel)
        else if t.kind = .blockEnd then ([], .ok r.tail)
        else ([(.cut, .cut)], .error (faultAt t .keyExpected .blockMapping start))
      | .flow =>
        if t.kind = .flowMappingEnd then ([], .ok r.tail)
        else if first then readFlowEntry e start fuel r
        else if t.kind = .flowEntry then readFlowEntry e start fuel r.tail
        else ([(.cut, .cut)], .error (faultAt t .mappingCommaExpected .flowMapping start))

/-- Reads an entry between braces and all after it. A key without an indicator has no value. -/
def readFlowEntry (e : Surroundings) (start : Mark) :
    (fuel : Nat) → Remainder → Part (List (Node × Node))
  | 0, _ => ([(.cut, .cut)], .error e.stop)
  | fuel + 1, r =>
    match r.tokens with
    | [] => ([(.cut, .cut)], .error e.stop)
    | t :: _ =>
      if t.kind = .flowMappingEnd then ([], .ok r.tail)
      else if t.kind = .key then
        consEntry
          (readOptional e false false [.value, .flowEntry, .flowMappingEnd] none fuel r.tail)
          (readValue e false false [.flowEntry, .flowMappingEnd] fuel)
          (readEntries e .flow start false fuel)
      else
        let value (r : Remainder) : Part Node :=
          match r.tokens with
          | [] => broken e.stop
          | t :: _ => r.blank t.start
        consEntry (readNode e false false fuel r) value (readEntries e .flow start false fuel)

end

/-! ## Documents -/

/-- Handles that mean something without a directive. -/
def defaultHandles : List (String × Bytes) :=
  [("!", Utf8.encode "!"), ("!!", Utf8.encode "tag:yaml.org,2002:")]

/-- The directives before a document. -/
structure Directives where
  hasVersion : Bool := false
  handles : List (String × Bytes) := []

/-- Adds a directive to those before it; anything else leaves them as they are. -/
def Directives.add (d : Directives) (t : Token) : Except Fault Directives :=
  match t.kind with
  | .versionDirective major minor =>
    if d.hasVersion then .error (.malformed .versionTwice t.start none)
    else if major = 1 && (minor = 1 || minor = 2) then .ok { d with hasVersion := true }
    else .error (.malformed .versionUnsupported t.start none)
  | .tagDirective handle uri =>
    if (d.handles.lookup handle).isSome then .error (.malformed .handleTwice t.start none)
    else .ok { d with handles := d.handles ++ [(handle, uri)] }
  | _ => .ok d

/-- Whether a token is a directive. -/
def Token.isDirective (t : Token) : Bool :=
  match t.kind with
  | .versionDirective _ _ => true
  | .tagDirective _ _ => true
  | _ => false

/-- Reads the start of a document: its directives, and the marker after them if there is one. A
document without either begins with its root. -/
def readStart (stop : Fault) (tokens : List Token) :
    Except Fault (List (String × Bytes) × List Token) := do
  let directives ← (tokens.takeWhile Token.isDirective).foldlM Directives.add {}
  let handles := directives.handles ++ defaultHandles
  match tokens.dropWhile Token.isDirective with
  | [] => .error stop
  | t :: rest =>
    if t.kind = .documentStart then return (handles, rest)
    else if tokens.head?.any Token.isDirective then
      .error (.malformed .documentStartExpected t.start none)
    else return (handles, t :: rest)

/-- Reads the root of a document, which may be left out after a marker. -/
def readRoot (e : Surroundings) (explicit : Bool) (tokens : List Token) : Part Node :=
  let r : Remainder := { tokens }
  match tokens with
  | [] => broken e.stop
  | t :: _ =>
    if explicit && (t.isDirective || t.kind ∈ [.documentStart, .documentEnd, .streamEnd]) then
      r.blank t.start
    else readNode e true false (4 * tokens.length + 4) r

/-- Whether tokens hold something besides markers that end a document. -/
def holdMore (tokens : List Token) : Bool :=
  match tokens.dropWhile (·.kind = .documentEnd) with
  | [] => true
  | t :: _ => t.kind ≠ .streamEnd

namespace Document

/-- The first document of a stream of tokens. A stream that breaks off after it counts as one that
holds more. -/
def ofTokens (s : TokenStream) : Document :=
  let stop := s.fault.getD (.forbidden 0)
  if s.tokens.head?.any (·.kind = .streamEnd) then { root := .void }
  else
    match readStart stop s.tokens with
    | .error fault => { root := .cut, fault }
    | .ok (handles, rest) =>
      -- a marker is there if more than directives were taken
      match readRoot ⟨stop, handles⟩ (rest.length < s.tokens.length) rest with
      | (root, .error fault) => { root, fault }
      | (root, .ok r) =>
        if r.tokens.isEmpty then { root, fault := stop } else { root, more := holdMore r.tokens }

/-- The first document of a text. -/
def ofText (text : String) : Document := ofTokens (tokens text)

end Document

end InstallManifest.Yaml
