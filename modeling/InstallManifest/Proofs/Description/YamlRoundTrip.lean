import InstallManifest.Description.Storage
import InstallManifest.Proofs.Utf8.Encoding
import InstallManifest.Proofs.Yaml.Decoding

/-!
# Descriptions that are written and read

A description can be written if the paths of its directories are texts, and what is written for it
is read as that description: each text comes back from the style that was chosen for it, a field
that is left out has the value that reading gives it, and no field is read for another.
-/

namespace InstallManifest

open Yaml Yaml.Decode
open Yaml.Block (Legible LegibleEntries legible_text legible_quoted legible_natural
  legible_sequence)

/-! ## Fields -/

theorem legible_booleanBlock (b : Bool) : (booleanBlock b).Legible := by
  cases b
  · exact .scalar ⟨by decide, fitsPlain_of_eq_true (by decide)⟩
  · exact .scalar ⟨by decide, fitsPlain_of_eq_true (by decide)⟩

/-- A text that may be missing is an entry or none. -/
theorem legibleEntries_textField? {name : String} (hname : IsKey name.toList)
    (text : Option String) : LegibleEntries (textField? name text) := by
  cases text with
  | none => exact .nil
  | some text => exact .cons hname (legible_text text) .nil

/-- A text is read back from the style that suits it. -/
theorem decodes_text (expected text : String) : Decodes (textOf expected) (.text text) text :=
  decodes_textOf expected (styleOf text) text

/-- A text that may be missing is read back as one that is there, even if it is empty or spells
nothing. -/
theorem decodes_optional_text (text : String) :
    Decodes (optional (textOf "a string")) (.text text) (some text) :=
  (decodes_text "a string" text).optional_text

/-- A missing value is read for a field that is left out. -/
theorem getD_map_some {α : Type} (a? : Option α) : (a?.map some).getD none = a? := by
  cases a? <;> rfl

/-! ## Records in a list -/

/-- A block that is written for a record: a mapping that can be read back, as the value of the
record. -/
structure IsWritten {α : Type} (reader : Reader α) (b : Block) (a : α) : Prop where
  legible : ∃ entries, b = .mapping entries ∧ (Block.mapping entries).Legible
  decodes : Decodes reader b a

namespace IsWritten

variable {α : Type} {reader : Reader α} {blocks : List Block} {values : List α}

theorem legible_list (h : List.Forall₂ (IsWritten reader) blocks values) :
    (Block.sequence blocks).Legible := by
  refine legible_sequence ?_
  induction h with
  | nil => exact nofun
  | cons hfirst _ ih => exact List.forall_mem_cons.2 ⟨hfirst.legible, ih⟩

/-- A list of records is decoded record by record. -/
theorem decodes_list (h : List.Forall₂ (IsWritten reader) blocks values) :
    Decodes (list reader) (.sequence blocks) values :=
  Decode.decodes_list (h.imp fun _ _ hvalue => hvalue.decodes)

end IsWritten

/-! ## Directories and files -/

namespace DirectorySource

/-- Whether the path of a directory is a text. -/
def IsText (d : DirectorySource) : Prop := ∃ text, d.path = Utf8.encode text

/-- A directory whose path is a text is written and read back, its path as the bytes that it was. -/
theorem exists_toBlock? {d : DirectorySource} (h : d.IsText) :
    ∃ b, d.toBlock? = some b ∧ IsWritten reader b d := by
  obtain ⟨path, hpath⟩ := h
  refine ⟨.mapping [("path", .text path), ("prefix", .text d.lead)], ?_, ⟨_, rfl, ?_⟩, ?_⟩
  · rw [toBlock?, hpath, Utf8.decode?_encode]
    rfl
  · exact .mapping
      (.cons (by decide) (legible_text _) (.cons (by decide) (legible_text _) .nil))
  · have hfields : Collects Fields.step {} [("path", .text path), ("prefix", .text d.lead)]
        { path := some path, lead := some d.lead } :=
      .cons ((decodes_text _ path).field "path")
        (.cons ((decodes_text _ d.lead).field "prefix")
          (.nil _))
    refine decodes_record hfields ((Yields.required "path" path).bind ?_)
    rw [← hpath]
    exact .pure _

end DirectorySource

namespace FileEntry

/-- A file is written so that it can be read back. -/
theorem legible_toBlock (f : FileEntry) : f.toBlock.Legible :=
  .mapping (.cons (by decide) (legible_text _) (legibleEntries_textField? (by decide) _))

/-- A file is read back with its target, if it has one. -/
theorem decodes_toBlock (f : FileEntry) : Decodes reader f.toBlock f := by
  have htarget : Collects Fields.step { source := some f.source } (textField? "target" f.target)
      { source := some f.source, target := f.target.map some } :=
    .optional (fun target => ({ source := some f.source, target := target.map some } : Fields))
      (fun target => (decodes_optional_text target).field "target") f.target
  have hfields : Collects Fields.step {}
      (("source", .text f.source) :: textField? "target" f.target)
      { source := some f.source, target := f.target.map some } :=
    .cons ((decodes_text _ f.source).field "source") htarget
  refine decodes_record hfields ?_
  rw [Fields.finish]
  dsimp only
  rw [getD_map_some]
  exact (Yields.required "source" f.source).bind (.pure f)

/-- All files of a list are written and read back. -/
theorem forall₂_toBlock (files : List FileEntry) :
    List.Forall₂ (IsWritten reader) (files.map (·.toBlock)) files := by
  rw [List.forall₂_map_left_iff, List.forall₂_same]
  exact fun f _ => ⟨⟨_, rfl, f.legible_toBlock⟩, f.decodes_toBlock⟩

end FileEntry

/-! ## File sets -/

namespace FileSetDescription

/-- A file set whose directories are named by texts is written and read back. -/
theorem exists_toBlock? {s : FileSetDescription} (h : ∀ dir ∈ s.directories, dir.IsText) :
    ∃ b, s.toBlock? = some b ∧ IsWritten reader b s := by
  obtain ⟨name, id, sourcePackage, directories, files, sort⟩ := s
  obtain ⟨blocks, hblocks, hdirectories⟩ :=
    exists_mapM fun dir hdir => DirectorySource.exists_toBlock? (h dir hdir)
  have hfiles := FileEntry.forall₂_toBlock files
  refine ⟨_, by rw [toBlock?, hblocks, Option.map_some], ⟨_, rfl, ?_⟩, ?_⟩
  · refine LegibleEntries.legible_mapping ?_ (by simp)
    exact (((legibleEntries_textField? (by decide) name).append
      (legibleEntries_textField? (by decide) id)).append
      (legibleEntries_textField? (by decide) sourcePackage)).append
      (.cons (by decide) (IsWritten.legible_list hdirectories)
      (.cons (by decide) (IsWritten.legible_list hfiles)
      (.cons (by decide) (legible_booleanBlock sort) .nil)))
  -- the fields that may be left out come first, each kept while those after it are read
  have hname : Collects Fields.step {} (textField? "name" name) { name := name.map some } :=
    .optional (fun name => ({ name := name.map some } : Fields))
      (fun name => (decodes_optional_text name).field "name") name
  have hid : Collects Fields.step { name := name.map some } (textField? "id" id)
      { name := name.map some, id := id.map some } :=
    .optional (fun id => ({ name := name.map some, id := id.map some } : Fields))
      (fun id => (decodes_optional_text id).field "id") id
  have hpackage : Collects Fields.step { name := name.map some, id := id.map some }
      (textField? "source_package" sourcePackage)
      { name := name.map some, id := id.map some, sourcePackage := sourcePackage.map some } :=
    .optional
      (fun sourcePackage =>
        (⟨name.map some, id.map some, sourcePackage.map some, none, none, none⟩ : Fields))
      (fun sourcePackage => (decodes_optional_text sourcePackage).field "source_package")
      sourcePackage
  have hrest : Collects Fields.step
      { name := name.map some, id := id.map some, sourcePackage := sourcePackage.map some }
      [("directories", .sequence blocks), ("files", .sequence (files.map (·.toBlock))),
        ("sort", booleanBlock sort)]
      ⟨name.map some, id.map some, sourcePackage.map some, directories, files, sort⟩ :=
    .cons ((IsWritten.decodes_list hdirectories).field "directories")
      (.cons ((IsWritten.decodes_list hfiles).field "files")
      (.cons ((decodes_boolean sort).field "sort")
      (.nil _)))
  refine decodes_record (((hname.append hid).append hpackage).append hrest) ?_
  simp only [Fields.finish, getD_map_some]
  exact .pure _

end FileSetDescription

/-! ## Layouts and package types -/

namespace RenderOptions

/-- A layout is written so that it can be read back, its indentation character always in quotes. -/
theorem legible_toBlock (o : RenderOptions) : o.toBlock.Legible :=
  .mapping (.cons (by decide) (legible_booleanBlock _) (.cons (by decide) (legible_quoted _)
    (.cons (by decide) (legible_natural _) (.cons (by decide) (legible_booleanBlock _) .nil))))

/-- A layout is read back, with an indentation of any size that can be told. -/
theorem decodes_toBlock (o : RenderOptions) : Decodes reader o.toBlock o := by
  obtain ⟨prettyPrint, indentChar, indentSize, emitSourcePackage⟩ := o
  have hfields : Collects Fields.step {}
      [("pretty_print", booleanBlock prettyPrint),
        ("indent_char", .quoted (String.singleton indentChar)),
        -- the size is at most 64 bits wide by its type
        ("indent_size", .bare (toString indentSize.toNat)),
        ("emit_source_package", booleanBlock emitSourcePackage)]
      ⟨prettyPrint, indentChar, indentSize.toNat, emitSourcePackage⟩ :=
    .cons ((decodes_boolean prettyPrint).field "pretty_print")
      (.cons ((decodes_char _ indentChar).field "indent_char")
      (.cons ((decodes_natural indentSize.toNat_lt).field "indent_size")
      (.cons ((decodes_boolean emitSourcePackage).field "emit_source_package")
      (.nil _))))
  refine decodes_record hfields ?_
  simp only [Fields.finish, Option.map_some, UInt64.ofNat_toNat, Option.getD_some]
  exact .pure _

end RenderOptions

/-- A package type is read back from its name. -/
theorem PackageType.decodes_name (t : PackageType) : Decodes reader (.text t.name) t :=
  decodes_variant (by cases t <;> rfl)

/-! ## Descriptions -/

namespace Description

/-- The entries of the text of a description, given those of its file sets. -/
def entries (d : Description) (fileSets : List Block) : List (String × Block) :=
  (d.packageType.map fun t => ("package_type", Block.text t.name)).toList ++
    [("file_sets", .sequence fileSets), ("render", d.render.toBlock)]

/-- A description is written as a document if its file sets can be written. -/
theorem toYaml?_eq_document {d : Description} {fileSets : List Block}
    (h : d.fileSets.mapM FileSetDescription.toBlock? = some fileSets) :
    d.toYaml? = some (Block.document (d.entries fileSets)) := by
  rw [toYaml?, h, Option.map_some, textField?, Option.map_map]
  rfl

section

variable {d : Description} {blocks : List Block}
  (hfileSets : List.Forall₂ (IsWritten FileSetDescription.reader) blocks d.fileSets)

include hfileSets

/-- The entries of a description can be read back if its file sets can. -/
theorem legible_entries : LegibleEntries (d.entries blocks) := by
  refine LegibleEntries.append ?_ (.cons (by decide) (IsWritten.legible_list hfileSets)
    (.cons (by decide) d.render.legible_toBlock .nil))
  cases d.packageType with
  | none => exact .nil
  | some t => exact .cons (by decide) (legible_text t.name) .nil

/-- The entries of a description are decoded to it. -/
theorem decodes_entries : Decodes reader (.mapping (d.entries blocks)) d := by
  obtain ⟨packageType, fileSets, render⟩ := d
  have htype : Collects Fields.step {}
      (packageType.map fun t => ("package_type", Block.text t.name)).toList
      { packageType := packageType.map some } :=
    .optional (fun packageType => ({ packageType := packageType.map some } : Fields))
      (fun t => t.decodes_name.optional_text.field "package_type") packageType
  have hrest : Collects Fields.step { packageType := packageType.map some }
      [("file_sets", .sequence blocks), ("render", render.toBlock)]
      ⟨packageType.map some, fileSets, render⟩ :=
    .cons ((IsWritten.decodes_list hfileSets).field "file_sets")
      (.cons (render.decodes_toBlock.field "render") (.nil _))
  refine decodes_record (htype.append hrest) ?_
  simp only [Fields.finish, getD_map_some]
  exact .pure _

end

/-- A description whose directories are named by texts can be written, and reading what is written
gives that description, with each of its texts, whatever they are. -/
theorem ofText_toYaml (d : Description)
    (h : ∀ s ∈ d.fileSets, ∀ dir ∈ s.directories, dir.IsText) :
    ∃ text, d.toYaml? = some text ∧ ofText text = .ok d := by
  -- each file set can be written, as all paths in it are texts
  obtain ⟨blocks, hblocks, hfileSets⟩ :=
    exists_mapM fun s hs => FileSetDescription.exists_toBlock? (h s hs)
  have hread : decode reader (Block.document (d.entries blocks)) = .ok d :=
    decode_document (by simp [entries]) (legible_entries hfileSets) (decodes_entries hfileSets)
  refine ⟨_, toYaml?_eq_document hblocks, ?_⟩
  rw [ofText, ofYaml, hread]
  rfl

/-- Texts that look like something else, hold line breaks or control characters, or are empty. -/
theorem ofText_toYaml_awkward :
    let path := Utf8.encode " a\n\n  b "
    let d : Description := {
      packageType := some .packed
      fileSets := [
        { name := some "null", id := some "", sourcePackage := some "1e3",
          directories := [⟨path, "- # : "⟩, ⟨Utf8.encode "\n", "\u2028\t"⟩],
          files := [⟨"True", some "~"⟩, ⟨"c\n", some "\x00\u0085\ufeff"⟩, ⟨"0x1f", none⟩],
          sort := true },
        {}]
      render := { indentChar := '\n', indentSize := 18446744073709551615 } }
    (∀ s ∈ d.fileSets, ∀ dir ∈ s.directories, dir.IsText) ∧
      ∃ text, d.toYaml? = some text ∧ ofText text = .ok d := by
  intro path d
  have htext : ∀ s ∈ d.fileSets, ∀ dir ∈ s.directories, dir.IsText := by
    simp [d, path, DirectorySource.IsText]
  exact ⟨htext, ofText_toYaml d htext⟩

end Description

end InstallManifest
