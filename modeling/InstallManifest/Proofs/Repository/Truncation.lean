import InstallManifest.Proofs.Reading.Growth
import InstallManifest.Proofs.Repository.RoundTrip
import Mathlib.Data.List.Infix

/-!
# A manifest that breaks off

What a reader makes of the beginning of a written manifest. If it breaks off inside a tag it is
refused, and so it is before the root has begun. Between two tags of the root, however, nothing is
missed: the reader takes what is there for all there is. The properties and file sets that it
returns are the first ones of the manifest, and a file set that has begun but not ended is not
among them.
-/

namespace InstallManifest

open Markup

/-- The beginning of a joined list ends in its first part or in its second. -/
theorem cut_append {α : Type} {cut as bs : List α} (h : cut <+: as ++ bs) :
    cut <+: as ∨ ∃ cut', cut = as ++ cut' ∧ cut' <+: bs := by
  rcases List.prefix_or_prefix_of_prefix h (List.prefix_append as bs) with hle | ⟨cut', rfl⟩
  · exact .inl hle
  · exact .inr ⟨cut', rfl, (List.prefix_append_right_inj as).1 h⟩

/-! ## Tags that break off -/

namespace Markup

theorem count_of_filler {gap : List Char} (h : ∀ c ∈ gap, isFiller c = true) :
    gap.count '<' = 0 ∧ gap.count '>' = 0 :=
  ⟨List.count_eq_zero.2 fun hc => Bool.noConfusion (h _ hc),
    List.count_eq_zero.2 fun hc => Bool.noConfusion (h _ hc)⟩

/-- A tag that breaks off before its end is refused, also right behind a slash. -/
theorem TagSource.next_cut (t : TagSource) {cut : List Char} (hcut : cut <+: t.content ++ ['/']) :
    Token.next '<' cut = .error .tagNotClosed := by
  have hhead : ∀ c ∈ cut.head?, c ≠ '!' ∧ c ≠ '?' ∧ c ≠ '/' := by
    intro c hc
    obtain ⟨after, hafter⟩ := hcut
    have hne : cut ≠ [] := by
      rintro rfl
      cases hc
    -- what is left of the tag begins as the tag does
    have hsame := congrArg List.head? hafter
    rw [List.head?_append_of_ne_nil _ hne,
      List.head?_append_of_ne_nil _ t.content_ne_nil] at hsame
    exact t.content_head? c (hsame ▸ hc)
  have htext : TagText (t.content ++ ['/']) := t.tagText_content.append (.of_plain (by simp))
  rw [Token.next, if_pos rfl, markup_of_tag hhead, splitTag_eq_none_of_prefix hcut htext.1]

namespace Piece

variable {p : Piece}

theorem count_body (h : p.WellFormed) : p.body.count '<' = 0 ∧ p.body.count '>' = 0 :=
  ⟨List.count_eq_zero.2 fun hc => (ne_of_mem_body h _ hc).1 rfl,
    List.count_eq_zero.2 fun hc => (ne_of_mem_body h _ hc).2 rfl⟩

/-- A tag that breaks off has no end. -/
theorem next_cut (h : p.WellFormed) {cut : List Char} (hcut : cut <+: p.body) :
    Token.next '<' cut = .error .tagNotClosed := by
  cases p with
  | opening name as =>
    have hnamed : WellNamed name as := h
    refine hnamed.tag.source.next_cut (hcut.trans ?_)
    rw [hnamed.source_content]
    exact List.prefix_append ..
  | empty name as =>
    have hnamed : WellNamed name as := h
    refine hnamed.tag.source.next_cut ?_
    rw [hnamed.source_content]
    exact hcut
  | closing name =>
    have hname : IsName name.toList := h
    -- the slash may be cut off too
    rcases List.prefix_cons_iff.1 hcut with rfl | ⟨cut', rfl, hcut'⟩
    · rfl
    · rw [Token.next, if_pos rfl, markup, splitTag_eq_none_of_prefix hcut' hname.tagText.1]

end Piece

end Markup

/-! ## Documents that break off -/

namespace Reading

/-- What comes of the tags that end before a cut. The cut falls inside one more tag exactly if a
`<` stands before it that has no `>`. -/
def readUpTo (s : Reading) (ps : List Piece) (cut : List Char) : Except ReadFault Reading :=
  ((ps.take (cut.count '>')).map Piece.token).foldlM step s >>= fun s' =>
    if cut.count '<' = cut.count '>' then .ok s' else .error (.token .tagNotClosed)

section

variable {p : Piece} {ps : List Piece} {gap cut : List Char}

/-- A cut in the filler before the first tag leaves nothing. -/
theorem readUpTo_filler (s : Reading) (ps : List Piece) (hgap : ∀ c ∈ gap, isFiller c = true) :
    s.readUpTo ps gap = .ok s := by
  obtain ⟨hlt, hgt⟩ := count_of_filler hgap
  rw [readUpTo, hlt, hgt]
  rfl

/-- A cut inside a tag leaves a tag without an end. -/
theorem readUpTo_inside (s : Reading) (ps : List Piece) (hgap : ∀ c ∈ gap, isFiller c = true)
    (hp : p.WellFormed) (hcut : cut <+: p.body) :
    s.readUpTo ps (gap ++ '<' :: cut) = .error (.token .tagNotClosed) := by
  obtain ⟨hgaplt, hgapgt⟩ := count_of_filler hgap
  obtain ⟨hbodylt, hbodygt⟩ := Piece.count_body hp
  have hcutlt : cut.count '<' = 0 := Nat.le_zero.1 (hbodylt ▸ hcut.sublist.count_le '<')
  have hcutgt : cut.count '>' = 0 := Nat.le_zero.1 (hbodygt ▸ hcut.sublist.count_le '>')
  have hlt : (gap ++ '<' :: cut).count '<' = 1 := by
    rw [List.count_append, hgaplt, List.count_cons_self, hcutlt]
  have hgt : (gap ++ '<' :: cut).count '>' = 0 := by
    rw [List.count_append, hgapgt, List.count_cons_of_ne (by decide), hcutgt]
  rw [readUpTo, hlt, hgt]
  rfl

/-- A cut behind a tag leaves that tag and a cut of what follows. -/
theorem readUpTo_tag (s : Reading) (ps : List Piece) (hgap : ∀ c ∈ gap, isFiller c = true)
    (hp : p.WellFormed) (cut : List Char) :
    s.readUpTo (p :: ps) (gap ++ (p.toChars ++ cut))
      = s.step p.token >>= fun s' => s'.readUpTo ps cut := by
  obtain ⟨hgaplt, hgapgt⟩ := count_of_filler hgap
  obtain ⟨hbodylt, hbodygt⟩ := Piece.count_body hp
  -- the tag has one bracket of each kind
  have hlt : (gap ++ (p.toChars ++ cut)).count '<' = cut.count '<' + 1 := by
    simp [p.toChars_eq, List.count_append, hgaplt, hbodylt]
  have hgt : (gap ++ (p.toChars ++ cut)).count '>' = cut.count '>' + 1 := by
    simp [p.toChars_eq, List.count_append, hgapgt, hbodygt]
  rw [readUpTo, hlt, hgt, List.take_succ_cons, List.map_cons, List.foldlM_cons, bind_assoc]
  simp only [Nat.add_right_cancel_iff, readUpTo]

end

/-- A laid out text is read up to a cut, by induction on the layout: the cut falls into the filler
before a tag, into the tag, or behind it. -/
theorem run_cut {ps : List Piece} {text cut : List Char} (htext : IsLayout ps text)
    (hps : ∀ p ∈ ps, p.WellFormed) (hcut : cut <+: text) (s : Reading) :
    s.run cut = s.readUpTo ps cut := by
  induction htext generalizing s cut with
  | nil hgap =>
    have hcutgap : ∀ c ∈ cut, isFiller c = true := fun c hc => hgap c (hcut.subset hc)
    rw [run_filler s hcutgap, readUpTo_filler s [] hcutgap]
  | @cons p ps gap text hgap htext ih =>
    obtain ⟨hp, hps'⟩ := List.forall_mem_cons.1 hps
    -- two of the cases below: the cut is in the body of the tag, or right before its `>`
    have hinside {cut' : List Char} (hcut' : cut' <+: p.body) :
        s.run (gap ++ '<' :: cut') = s.readUpTo (p :: ps) (gap ++ '<' :: cut') := by
      rw [run_filler_append s _ hgap, run_cons_of_error s (Piece.next_cut hp hcut'),
        readUpTo_inside s _ hgap hp hcut']
    rw [p.toChars_eq, List.cons_append, List.append_assoc, List.singleton_append] at hcut
    rcases cut_append hcut with hin | ⟨fromTag, rfl, hfromTag⟩
    · have hcutgap : ∀ c ∈ cut, isFiller c = true := fun c hc => hgap c (hin.subset hc)
      rw [run_filler s hcutgap, readUpTo_filler s _ hcutgap]
    rcases List.prefix_cons_iff.1 hfromTag with rfl | ⟨fromBody, rfl, hfromBody⟩
    · rw [List.append_nil, run_filler s hgap, readUpTo_filler s _ hgap]
    rcases cut_append hfromBody with hin | ⟨fromEnd, rfl, hfromEnd⟩
    · exact hinside hin
    rcases List.prefix_cons_iff.1 hfromEnd with rfl | ⟨cut', rfl, hcut'⟩
    · rw [List.append_nil]
      exact hinside List.prefix_rfl
    -- the cut is behind the tag
    have htag : gap ++ '<' :: (p.body ++ '>' :: cut') = gap ++ (p.toChars ++ cut') := by
      simp [p.toChars_eq]
    rw [htag, run_filler_append s _ hgap, run_piece hp, readUpTo_tag s ps hgap hp]
    congr
    funext s'
    exact ih hps' hcut' s'

/-- A declaration that breaks off is refused, and the cut falls between two brackets. -/
theorem run_declaration_cut {cut : List Char} (hcut : cut <+: declaration.toList) :
    cut = [] ∨ cut = declaration.toList ∨
      (cut.count '<' ≠ cut.count '>' ∧ ∃ cause, run {} cut = .error (.token cause)) := by
  -- the declaration is one text, so all its beginnings can be looked at
  have hall : ∀ cut ∈ declaration.toList.inits, cut = [] ∨ cut = declaration.toList ∨
      (cut.count '<' ≠ cut.count '>' ∧ (Token.scan cut).1 = [] ∧
        (Token.scan cut).2.isSome) := by
    decide +kernel
  rcases hall cut ((List.mem_inits _ _).2 hcut) with hnil | hwhole | ⟨hcount, hnone, hfault⟩
  · exact .inl hnil
  · exact .inr (.inl hwhole)
  · obtain ⟨cause, hcause⟩ := Option.isSome_iff_exists.1 hfault
    exact .inr (.inr ⟨hcount, cause, by rw [run, hnone, hcause]; rfl⟩)

end Reading

namespace Repository

variable {r : Repository} {o : RenderOptions} {xml cut : String}

/-- The tags of a manifest that end before a cut. The declaration has a `>` of its own. -/
def tagsBefore (r : Repository) (emitSourcePackage : Bool) (cut : String) : List Token :=
  ((r.pieces emitSourcePackage).take (cut.toList.count '>' - 1)).map Piece.token

/-- The state after some of the tags: it has what they tell, and the first of them is the root. -/
theorem foldlM_tagsBefore (r : Repository) (emitSourcePackage : Bool) (cut : String) :
    ∃ s, (r.tagsBefore emitSourcePackage cut).foldlM Reading.step {} = .ok s ∧
      s.repository =
        { properties :=
            r.properties.take ((r.tagsBefore emitSourcePackage cut).countP Token.isProperty)
          fileSets := (r.reread emitSourcePackage).fileSets.take
            ((r.tagsBefore emitSourcePackage cut).countP Token.endsFileSet) } ∧
      (s.sawRoot = true ↔ 2 ≤ cut.toList.count '>') := by
  have hall := Reading.foldlM_pieces emitSourcePackage r
  rw [← List.take_append_drop (cut.toList.count '>' - 1) (r.pieces emitSourcePackage),
    List.map_append, List.foldlM_append, bind_eq_ok_iff] at hall
  obtain ⟨s, hbefore, hafter⟩ := hall
  -- what was collected before the cut is a beginning of all that is collected in the end
  obtain ⟨hs, hgrown⟩ := Reading.foldlM_step_ok .initial hbefore
  obtain ⟨-, hgrows⟩ := Reading.foldlM_step_ok hs hafter
  have hproperties : s.repository.properties = r.properties.take
      ((r.tagsBefore emitSourcePackage cut).countP Token.isProperty) := by
    have htake := List.prefix_iff_eq_take.1 hgrows.properties_prefix
    rwa [hgrown.length_properties, List.length_nil, Nat.zero_add] at htake
  have hfileSets : s.repository.fileSets = (r.reread emitSourcePackage).fileSets.take
      ((r.tagsBefore emitSourcePackage cut).countP Token.endsFileSet) := by
    have htake := List.prefix_iff_eq_take.1 hgrows.fileSets_prefix
    rwa [hgrown.length_fileSets, List.length_nil, Nat.zero_add] at htake
  refine ⟨s, hbefore, by rw [← hproperties, ← hfileSets], ?_⟩
  cases hk : cut.toList.count '>' - 1 with
  | zero =>
    rw [hk] at hbefore
    cases hbefore
    constructor
    · intro hroot
      cases hroot
    · omega
  | succ k =>
    -- the first tag is the root, and no later one takes it back
    have hroot := Reading.step_root {}
    obtain ⟨hcoherent, -⟩ := Reading.step_ok .initial hroot
    rw [hk, pieces, List.cons_append, List.cons_append, List.take_succ_cons, List.map_cons,
      List.foldlM_cons, hroot, ok_bind] at hbefore
    obtain ⟨-, hrest⟩ := Reading.foldlM_step_ok hcoherent hbefore
    exact ⟨fun _ => by omega, fun _ => hrest.sawRoot rfl⟩

/-- What is read of a manifest up to a cut. -/
theorem run_manifest_cut (h : r.render o = .ok xml) (hcut : cut.toList <+: xml.toList) :
    if cut.toList.count '<' = cut.toList.count '>' then
      Reading.run {} cut.toList = (r.tagsBefore o.emitSourcePackage cut).foldlM Reading.step {}
    else ∃ cause, Reading.run {} cut.toList = .error (.token cause) := by
  obtain ⟨text, hlayout, hxml⟩ := render_ok h
  -- a cut right behind the declaration is a cut behind it, with nothing in between
  have hafter {rest : List Char} (hrest : rest <+: text)
      (hcut : cut.toList = declaration.toList ++ rest) :
      if cut.toList.count '<' = cut.toList.count '>' then
        Reading.run {} cut.toList = (r.tagsBefore o.emitSourcePackage cut).foldlM Reading.step {}
      else ∃ cause, Reading.run {} cut.toList = .error (.token cause) := by
    have hlt : declaration.toList.count '<' = 1 := by decide +kernel
    have hgt : declaration.toList.count '>' = 1 := by decide +kernel
    have htags : r.tagsBefore o.emitSourcePackage cut
        = ((r.pieces o.emitSourcePackage).take (rest.count '>')).map Piece.token := by
      rw [tagsBefore, hcut, List.count_append, hgt, Nat.add_sub_cancel_left]
    obtain ⟨s, hs, -⟩ := foldlM_tagsBefore r o.emitSourcePackage cut
    -- behind the declaration the layout is read up to the cut
    have hrun : Reading.run {} cut.toList
        = if rest.count '<' = rest.count '>' then .ok s else .error (.token .tagNotClosed) := by
      rw [hcut, Reading.run_declaration,
        Reading.run_cut hlayout (r.pieces_wellFormed o.emitSourcePackage) hrest,
        Reading.readUpTo, ← htags, hs, ok_bind]
    rw [hrun, hs, hcut, List.count_append, List.count_append, hlt, hgt]
    simp only [Nat.add_left_cancel_iff]
    split_ifs
    · rfl
    · exact ⟨_, rfl⟩
  rw [hxml] at hcut
  rcases cut_append hcut with hin | ⟨rest, hrest, hprefix⟩
  · rcases Reading.run_declaration_cut hin with hempty | hwhole | ⟨hcount, hfault⟩
    · rw [tagsBefore, hempty, Reading.run_nil]
      rfl
    · exact hafter List.nil_prefix (by rw [hwhole, List.append_nil])
    · rw [if_neg hcount]
      exact hfault
  · exact hafter hprefix hrest

/-- What becomes of a manifest that breaks off. It is refused exactly if it breaks off inside a tag
or before the root has begun. Otherwise it is read as a smaller repository: of the properties and
the file sets only those are there whose last tag came before the cut. -/
theorem ofManifest_cut (h : r.render o = .ok xml) (hcut : cut.toList <+: xml.toList) :
    ((∃ cause, ofManifest cut = .error cause) ↔
      cut.toList.count '<' ≠ cut.toList.count '>' ∨ cut.toList.count '>' < 2) ∧
    (cut.toList.count '<' = cut.toList.count '>' → 2 ≤ cut.toList.count '>' →
      ofManifest cut = .ok
        { properties :=
            r.properties.take ((r.tagsBefore o.emitSourcePackage cut).countP Token.isProperty)
          fileSets := (r.reread o.emitSourcePackage).fileSets.take
            ((r.tagsBefore o.emitSourcePackage cut).countP Token.endsFileSet) }) := by
  have hrun := run_manifest_cut h hcut
  obtain ⟨s, hs, hrepository, hroot⟩ := foldlM_tagsBefore r o.emitSourcePackage cut
  by_cases hcount : cut.toList.count '<' = cut.toList.count '>'
  · rw [if_pos hcount, hs] at hrun
    have hread : ofManifest cut = if s.sawRoot then .ok s.repository else .error .noRoot := by
      rw [ofManifest_eq, hrun, ok_bind, Reading.finish]
    rw [← hrepository, hread]
    -- the first `>` is that of the declaration, the second that of the root
    by_cases htwo : 2 ≤ cut.toList.count '>'
    · rw [if_pos (hroot.2 htwo)]
      refine ⟨⟨?_, ?_⟩, fun _ _ => rfl⟩
      · rintro ⟨cause, hcause⟩
        cases hcause
      · intro hor
        exact absurd hor (by omega)
    · rw [if_neg (fun hsaw => htwo (hroot.1 hsaw))]
      exact ⟨⟨fun _ => .inr (by omega), fun _ => ⟨_, rfl⟩⟩, fun _ h2 => absurd h2 htwo⟩
  · rw [if_neg hcount] at hrun
    obtain ⟨cause, hcause⟩ := hrun
    have hread : ofManifest cut = .error (.token cause) := by
      rw [ofManifest_eq, hcause, error_bind]
    exact ⟨⟨fun _ => .inl hcount, fun _ => ⟨_, hread⟩⟩, fun h2 => absurd h2 hcount⟩

/-- Two file sets, of which the second has begun but not ended at the cut. -/
theorem ofManifest_cut_in_second_fileSet :
    let r : Repository := ⟨[⟨"p", ">"⟩],
      [⟨none, .raw "a", none, []⟩, ⟨none, .raw "b", none, [⟨"y", none⟩]⟩]⟩
    ofManifest (compactDocument ((r.pieces false).take 8))
      = .ok ⟨r.properties, r.fileSets.take 1⟩ := by
  intro r
  have h : r.render .compact = .ok (compactDocument (r.pieces false)) :=
    render_compact (by decide +kernel)
  have hcut : (compactDocument ((r.pieces false).take 8)).toList <+:
      (compactDocument (r.pieces false)).toList := by
    simp only [compactDocument, String.toList_ofList]
    decide +kernel
  have hcount : (compactDocument ((r.pieces false).take 8)).toList.count '<' = 9 ∧
      (compactDocument ((r.pieces false).take 8)).toList.count '>' = 9 := by
    simp only [compactDocument, String.toList_ofList]
    decide +kernel
  have hread := (ofManifest_cut h hcut).2 (by omega) (by omega)
  rw [tagsBefore, hcount.2] at hread
  refine hread.trans ?_
  decide +kernel

/-- A file set is dropped although its tag and its only file were read. -/
theorem ofManifest_cut_drops_fileSet :
    let r : Repository := ⟨[], [⟨none, .raw "a", none, [⟨"x", none⟩]⟩]⟩
    let cut : String := compactDocument ((r.pieces false).take 5)
    ∃ xml, r.render .compact = .ok xml ∧
      xml.toList = cut.toList ++ "</FileSet></FileSets></FileRepository>".toList ∧
      ofManifest cut = .ok {} := by
  intro r cut
  have h : r.render .compact = .ok (compactDocument (r.pieces false)) :=
    render_compact (by decide +kernel)
  refine ⟨_, h, ?_, ?_⟩
  · simp only [cut, compactDocument, String.toList_ofList]
    decide +kernel
  · simp only [cut, ofManifest_eq, compactDocument, String.toList_ofList]
    decide +kernel

end Repository

end InstallManifest
