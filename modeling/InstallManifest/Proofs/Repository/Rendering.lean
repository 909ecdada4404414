import InstallManifest.Proofs.Markup.Characters
import InstallManifest.Proofs.Outcome
import InstallManifest.Repository.Writing

/-!
# Which repositories can be written

Whether a repository can be written depends on the values of the attributes that a manifest of it
shows, and on nothing else of it. They are listed here as a reader of the manifest would come upon
them; the first one that no document can hold is to blame. Values that are not shown are never
judged.
-/

namespace InstallManifest

open Markup

/-! ## The values in document order -/

/-- An attribute that is left out if there is nothing to tell. -/
def shownIfAny (name : String) : Option String → List Assignment
  | some value => [⟨name, value⟩]
  | none => []

def Property.shown (p : Property) : List Assignment := [⟨"Name", p.name⟩, ⟨"Value", p.value⟩]

def FileEntry.shown (f : FileEntry) : List Assignment :=
  ⟨"Source", f.source⟩ :: shownIfAny "Target" f.target

/-- The attributes of a file set, and then those of its files. -/
def FileSet.shown (emitSourcePackage : Bool) (s : FileSet) : List Assignment :=
  shownIfAny "Name" s.name ++ [⟨"Id", s.id.toText⟩] ++
    (if emitSourcePackage then shownIfAny "SourcePackage" s.sourcePackage else []) ++
    s.files.flatMap FileEntry.shown

/-- All attributes that a manifest shows, in document order. -/
def Repository.shown (emitSourcePackage : Bool) (r : Repository) : List Assignment :=
  r.properties.flatMap Property.shown ++ r.fileSets.flatMap (FileSet.shown emitSourcePackage)

/-- A repository with other packages for its file sets to come from. -/
def Repository.withPackages (package : FileSet → Option String) (r : Repository) : Repository :=
  { r with fileSets := r.fileSets.map fun s => { s with sourcePackage := package s } }

/-! ## They are what is written -/

/-- An element shows its own attributes and then those in its content. -/
theorem attributes_element (name : String) (as : List Assignment) (content : List Piece) :
    (element name as content).flatMap Piece.attributes
      = as ++ content.flatMap Piece.attributes := by
  unfold element
  -- without content there is one tag, which has the attributes all the same
  split_ifs with h
  · simp [List.isEmpty_iff.1 h, Piece.attributes]
  · simp [Piece.attributes]

theorem toList_map_eq_shownIfAny (name : String) (value? : Option String) :
    (value?.map (⟨name, ·⟩ : String → Assignment)).toList = shownIfAny name value? := by
  cases value? <;> rfl

theorem FileEntry.attributes_piece (f : FileEntry) : f.piece.attributes = f.shown := by
  rw [FileEntry.piece, Piece.attributes, toList_map_eq_shownIfAny, FileEntry.shown]

/-- The tags of a file set have the attributes that it shows, with those of its files among them. -/
theorem FileSet.attributes_pieces (emitSourcePackage : Bool) (s : FileSet) :
    (s.pieces emitSourcePackage).flatMap Piece.attributes = s.shown emitSourcePackage := by
  have hfiles : (s.files.map FileEntry.piece).flatMap Piece.attributes
      = s.files.flatMap FileEntry.shown := by
    rw [List.flatMap_map]
    exact List.flatMap_congr fun f _ => f.attributes_piece
  rw [FileSet.pieces, attributes_element, hfiles, FileSet.assignments, toList_map_eq_shownIfAny,
    toList_map_eq_shownIfAny, FileSet.shown]
  simp

namespace Repository

/-- What the writer checks is what the manifest shows. -/
theorem assignments_eq_shown (emitSourcePackage : Bool) (r : Repository) :
    r.assignments emitSourcePackage = r.shown emitSourcePackage := by
  have hproperties : (r.properties.map Property.piece).flatMap Piece.attributes
      = r.properties.flatMap Property.shown := by
    rw [List.flatMap_map]
    rfl
  -- the file sets one by one, each with the files in it
  have hfileSets : (r.fileSets.flatMap (FileSet.pieces emitSourcePackage)).flatMap Piece.attributes
      = r.fileSets.flatMap (FileSet.shown emitSourcePackage) := by
    rw [List.flatMap_assoc]
    exact List.flatMap_congr fun s _ => s.attributes_pieces emitSourcePackage
  rw [assignments, pieces, shown]
  simp [attributes_element, hproperties, hfileSets, Piece.attributes]

/-- The tags do not tell a package unless asked for. -/
theorem pieces_withPackages (package : FileSet → Option String) (r : Repository) :
    (r.withPackages package).pieces false = r.pieces false := by
  have hsets : (r.withPackages package).fileSets.flatMap (FileSet.pieces false)
      = r.fileSets.flatMap (FileSet.pieces false) := by
    rw [withPackages, List.flatMap_map]
    rfl
  rw [pieces, pieces, hsets]
  rfl

/-! ## Whether and why a repository cannot be written -/

/-- An indentation that is no white space is refused whatever is to be written. -/
theorem render_of_cannot_indent (r : Repository) {o : RenderOptions}
    (hpretty : o.prettyPrint = true) (hchar : RenderOptions.canIndent o.indentChar = false) :
    r.render o = .error (.indentation o.indentChar) := by
  rw [render, if_pos (by rw [hpretty, hchar]; rfl)]

/-- With a layout that is possible, only the values count. -/
theorem render_of_layout (r : Repository) {o : RenderOptions}
    (h : o.prettyPrint = true → RenderOptions.canIndent o.indentChar = true) :
    r.render o =
      match (r.shown o.emitSourcePackage).find? (!·.isLegal) with
      | some a => .error (.illegalCharacter a.name a.value)
      | none => .ok (if o.prettyPrint
          then Markup.indentedDocument o.indentUnit (r.pieces o.emitSourcePackage)
          else Markup.compactDocument (r.pieces o.emitSourcePackage)) := by
  -- the layout is not what fails
  have hindent : ¬ (o.prettyPrint && !RenderOptions.canIndent o.indentChar) = true := by
    cases hpretty : o.prettyPrint with
    | false => simp
    | true => simp [h hpretty]
  have hrender : r.render o = _ := if_neg hindent
  rw [assignments_eq_shown] at hrender
  exact hrender

theorem find?_shown_eq_none_iff {emitSourcePackage : Bool} {r : Repository} :
    (r.shown emitSourcePackage).find? (!·.isLegal) = none ↔
      ∀ a ∈ r.shown emitSourcePackage, a.IsXmlText := by
  simp [List.find?_eq_none, Assignment.isLegal_iff]

/-- With a layout that is possible, a repository is written exactly if all its values are legal. -/
theorem render_ok_iff (r : Repository) {o : RenderOptions}
    (h : o.prettyPrint = true → RenderOptions.canIndent o.indentChar = true) :
    (∃ xml, r.render o = .ok xml) ↔ ∀ a ∈ r.shown o.emitSourcePackage, a.IsXmlText := by
  rw [r.render_of_layout h, ← find?_shown_eq_none_iff]
  cases (r.shown o.emitSourcePackage).find? (!·.isLegal) with
  | none => simp
  | some a => simp

/-- What it takes to write a repository, and the text that comes of it. -/
theorem render_eq_ok_iff {r : Repository} {o : RenderOptions} {xml : String} :
    r.render o = .ok xml ↔
      (o.prettyPrint = true → RenderOptions.canIndent o.indentChar = true) ∧
        (∀ a ∈ r.shown o.emitSourcePackage, a.IsXmlText) ∧
        xml = if o.prettyPrint
          then Markup.indentedDocument o.indentUnit (r.pieces o.emitSourcePackage)
          else Markup.compactDocument (r.pieces o.emitSourcePackage) := by
  -- the layout is looked at first, and the values only behind it
  by_cases h : o.prettyPrint = true → RenderOptions.canIndent o.indentChar = true
  · rw [r.render_of_layout h, ← find?_shown_eq_none_iff]
    cases (r.shown o.emitSourcePackage).find? (!·.isLegal) with
    | none =>
      constructor
      · intro hxml
        exact ⟨h, rfl, (Except.ok.inj hxml).symm⟩
      · rintro ⟨-, -, rfl⟩
        rfl
    | some a => simp
  · obtain ⟨hpretty, hchar⟩ := Classical.not_imp.1 h
    rw [r.render_of_cannot_indent hpretty (Bool.not_eq_true _ ▸ hchar)]
    simp [h]

/-- The first value that is illegal is to blame, whatever comes after it. -/
theorem render_of_first_illegal (r : Repository) {o : RenderOptions}
    (h : o.prettyPrint = true → RenderOptions.canIndent o.indentChar = true)
    {before after : List Assignment} {a : Assignment}
    (hshown : r.shown o.emitSourcePackage = before ++ a :: after)
    (hbefore : ∀ b ∈ before, b.IsXmlText) (ha : ¬ a.IsXmlText) :
    r.render o = .error (.illegalCharacter a.name a.value) := by
  -- of the values that are told, it is the first that is not legal
  have hfind : (r.shown o.emitSourcePackage).find? (!·.isLegal) = some a := by
    rw [List.find?_eq_some_iff_append]
    refine ⟨?_, before, after, hshown, fun b hb => ?_⟩
    · rw [← Assignment.isLegal_iff, Bool.not_eq_true] at ha
      rw [ha]
      rfl
    · rw [Assignment.isLegal_iff.2 (hbefore b hb)]
      rfl
  rw [r.render_of_layout h, hfind]

/-- Whether and why a repository cannot be written is no matter of its layout. -/
theorem render_layouts_ok_or_error (r : Repository) {o : RenderOptions}
    (h : RenderOptions.canIndent o.indentChar = true) :
    (∃ cause, r.render { o with prettyPrint := false } = .error cause ∧
      r.render { o with prettyPrint := true } = .error cause) ∨
    ∃ compact pretty, r.render { o with prettyPrint := false } = .ok compact ∧
      r.render { o with prettyPrint := true } = .ok pretty := by
  have hcompact := r.render_of_layout (o := { o with prettyPrint := false }) fun _ => h
  have hpretty := r.render_of_layout (o := { o with prettyPrint := true }) fun _ => h
  rw [hcompact, hpretty]
  cases (r.shown o.emitSourcePackage).find? (!·.isLegal) with
  | some a => exact .inl ⟨_, rfl, rfl⟩
  | none => exact .inr ⟨_, _, rfl, rfl⟩

/-- Packages that are not emitted make no difference. -/
theorem render_withPackages (package : FileSet → Option String) (r : Repository) {o : RenderOptions}
    (h : o.emitSourcePackage = false) : (r.withPackages package).render o = r.render o := by
  rw [render, render, assignments, assignments, h, pieces_withPackages]

/-- Whether a repository can be written, and what is to blame if not. An indentation that is no
white space is refused before anything else. Otherwise the values that the manifest shows decide:
it is written if all of them are legal, and the first one that is not is to blame. A package that
is not shown changes nothing. -/
theorem render_outcome (r : Repository) (o : RenderOptions) :
    (o.prettyPrint = true → o.indentChar ∉ [' ', '\t', '\n', '\r', '\x0c'] →
      r.render o = .error (.indentation o.indentChar)) ∧
    ((o.prettyPrint = true → o.indentChar ∈ [' ', '\t', '\n', '\r', '\x0c']) →
      ((∃ xml, r.render o = .ok xml) ↔ ∀ a ∈ r.shown o.emitSourcePackage, a.IsXmlText) ∧
      ∀ before a after, r.shown o.emitSourcePackage = before ++ a :: after →
        (∀ b ∈ before, b.IsXmlText) → ¬ a.IsXmlText →
        r.render o = .error (.illegalCharacter a.name a.value)) ∧
    (o.emitSourcePackage = false → ∀ package : FileSet → Option String,
      (r.withPackages package).render o = r.render o) := by
  -- the white space that may indent, told one by one
  have hcan : RenderOptions.canIndent o.indentChar = true ↔
      o.indentChar ∈ [' ', '\t', '\n', '\r', '\x0c'] := by
    simp [RenderOptions.canIndent, or_assoc]
  refine ⟨fun hpretty hchar => ?_, fun hlayout => ?_, fun hemit package => ?_⟩
  · rw [← hcan, Bool.not_eq_true] at hchar
    exact r.render_of_cannot_indent hpretty hchar
  · have h : o.prettyPrint = true → RenderOptions.canIndent o.indentChar = true :=
      fun hpretty => hcan.2 (hlayout hpretty)
    exact ⟨r.render_ok_iff h, fun _ _ _ hshown => r.render_of_first_illegal h hshown⟩
  · exact r.render_withPackages package hemit

/-- Of two illegal values the first is to blame; the package before them is not shown. -/
theorem render_blames_first_target :
    let r : Repository := ⟨[⟨"p", "v"⟩],
      [⟨some "n", .raw "i", some "\x07", [⟨"f", some "\x01"⟩, ⟨"\x02", none⟩]⟩]⟩
    r.render {} = .error (.illegalCharacter "Target" "\x01") := by
  intro r
  have hshown : r.shown false = [⟨"Name", "p"⟩, ⟨"Value", "v"⟩, ⟨"Name", "n"⟩, ⟨"Id", "i"⟩,
      ⟨"Source", "f"⟩] ++ ⟨"Target", "\x01"⟩ :: [⟨"Source", "\x02"⟩] := rfl
  exact ((r.render_outcome {}).2.1 fun _ => by decide).2 _ _ _ hshown (by decide) (by decide)

end Repository

end InstallManifest
