import InstallManifest.Proofs.Markup.Aside
import InstallManifest.Proofs.Markup.TagSource
import InstallManifest.Repository.Reading

/-!
# Reading on in a text

`Reading.run` reads a text from a given state on, so that a manifest can be followed piece by
piece: the run of a text that is cut at the end of a token is the run of its first part and then of
its second, and what is no tag leaves the state alone.
-/

namespace InstallManifest

open Markup

namespace Reading

/-- Reads a text up to its first fault, from a state on. -/
def run (s : Reading) (cs : List Char) : Except ReadFault Reading :=
  (Token.scan cs).1.foldlM step s >>= fun s' =>
    match (Token.scan cs).2 with
    | some cause => .error (.token cause)
    | none => .ok s'

/-- What the state at the end of a text says about the whole manifest. -/
def finish (s : Reading) : Except ReadFault Repository :=
  if s.sawRoot then .ok s.repository else .error .noRoot

@[simp] theorem run_nil (s : Reading) : s.run [] = .ok s := by
  simp [run, Token.scan, pure, Except.pure, bind, Except.bind]

/-- The first token of a text, then the rest of it. -/
theorem run_cons {c : Char} {cs after : List Char} {t : Token} (s : Reading)
    (h : Token.next c cs = .ok (t, after)) :
    s.run (c :: cs) = s.step t >>= fun s' => s'.run after := by
  simp only [run, Token.scan_cons h, List.foldlM_cons, bind_assoc]

theorem run_cons_of_error {c : Char} {cs : List Char} {cause : TokenFault} (s : Reading)
    (h : Token.next c cs = .error cause) : s.run (c :: cs) = .error (.token cause) := by
  simp [run, Token.scan_cons_of_error h, pure, Except.pure, bind, Except.bind]

/-! ## What is no tag -/

/-- A character of character data is passed over, alone or in a run of its like. -/
theorem run_text_cons {c : Char} (s : Reading) (cs : List Char) (hc : endsText c = false) :
    s.run (c :: cs) = s.run cs := by
  rw [run_cons s (Token.next_of_text cs hc)]
  show s.run (cs.dropWhile (!endsText ·)) = s.run cs
  cases cs with
  | nil => rfl
  | cons d ds =>
    -- either the run of character data ends here, or the next one is passed over as well
    cases hd : endsText d with
    | true => rw [List.dropWhile_cons_of_neg (by simp [hd])]
    | false =>
      rw [List.dropWhile_cons_of_pos (by simp [hd]), run_cons s (Token.next_of_text ds hd)]
      rfl

theorem run_text (s : Reading) {text : List Char} (rest : List Char)
    (h : ∀ c ∈ text, endsText c = false) : s.run (text ++ rest) = s.run rest := by
  induction text with
  | nil => rfl
  | cons c cs ih =>
    obtain ⟨hc, hcs⟩ := List.forall_mem_cons.1 h
    rw [List.cons_append, run_text_cons s _ hc, ih hcs]

/-- A byte order mark is character data like any other. -/
theorem run_dropMark (s : Reading) (cs : List Char) : s.run (dropMark cs) = s.run cs := by
  cases cs with
  | nil => rfl
  | cons c cs =>
    by_cases hc : c = '\uFEFF'
    · rw [dropMark, if_pos hc, run_text_cons s cs (by rw [hc]; decide)]
    · rw [dropMark, if_neg hc]

theorem run_aside {c : Char} {cs after : List Char} (s : Reading)
    (h : Token.next c cs = .ok (.aside, after)) : s.run (c :: cs) = s.run after := by
  rw [run_cons s h]
  rfl

/-- Anything that may stand between tags is passed over, whatever comes after it. -/
theorem run_aside_append (s : Reading) (a : Aside) (rest : List Char) :
    s.run (a.toChars ++ rest) = s.run rest := by
  cases a with
  | text chars plain => exact run_text s rest plain
  | reference body plain =>
    have htext : (Aside.reference body plain).toChars ++ rest = '&' :: (body ++ ';' :: rest) := by
      simp [Aside.toChars]
    rw [htext]
    exact run_aside s (next_reference plain rest)
  | comment body not_ended => exact run_aside s (next_comment not_ended rest)
  | cdata body not_ended => exact run_aside s (next_cdata not_ended rest)
  | instruction body not_ended has_target =>
    exact run_aside s (next_instruction not_ended has_target rest)

/-! ## Tags -/

theorem run_opening (s : Reading) (t : TagSource) (rest : List Char) :
    s.run ('<' :: (t.content ++ '>' :: rest)) = s.onOpening t.tag >>= fun s' => s'.run rest :=
  run_cons s (t.next_opening rest)

theorem run_empty (s : Reading) (t : TagSource) (rest : List Char) :
    s.run ('<' :: (t.content ++ '/' :: '>' :: rest)) = s.onEmpty t.tag >>= fun s' => s'.run rest :=
  run_cons s (t.next_empty rest)

theorem run_closing (s : Reading) {name gap : List Char} (h : IsName name)
    (hgap : allBlank gap = true) (rest : List Char) :
    s.run ('<' :: ('/' :: (name ++ gap) ++ '>' :: rest))
      = s.onClosing name >>= fun s' => s'.run rest :=
  run_cons s (next_closing h hgap rest)

/-! ## Cutting a text in two -/

/-- A text that goes on after a complete part is read part by part. -/
theorem run_append (s : Reading) {cs : List Char} (rest : List Char) (h : IsComplete cs) :
    s.run (cs ++ rest) = s.run cs >>= fun s' => s'.run rest := by
  -- on the length, as a token may take many characters at once
  induction hn : cs.length using Nat.strongRecOn generalizing s cs with
  | _ n ih =>
    subst hn
    cases cs with
    | nil => rw [run_nil]; rfl
    | cons c cs =>
      cases hnext : Token.next c cs with
      | error cause => exact absurd h (IsComplete.not_of_error hnext)
      | ok x =>
        obtain ⟨t, after⟩ := x
        -- character data may go on behind the cut, so it is taken one character at a time
        cases hc : endsText c with
        | false =>
          rw [List.cons_append, run_text_cons s _ hc, run_text_cons s _ hc]
          exact ih cs.length (Nat.lt_succ_self _) s ((IsComplete.text_cons_iff cs hc).1 h) rfl
        | true =>
          have hafter := (IsComplete.cons_iff hnext).1 h
          -- any other token ends at its own mark
          have hlen : after.length < (c :: cs).length :=
            Nat.lt_succ_of_le (Token.next_length hnext)
          rw [List.cons_append, run_cons s (Token.next_append rest hc hnext), run_cons s hnext,
            bind_assoc]
          congr
          funext s'
          exact ih after.length hlen s' hafter rfl

end Reading

namespace Repository

/-- A manifest is read from the initial state on. -/
theorem ofManifest_eq (document : String) :
    ofManifest document = Reading.run {} document.toList >>= Reading.finish := by
  rw [← Reading.run_dropMark, ofManifest, Reading.run]
  unfold tokens Reading.finish
  generalize Token.scan (dropMark document.toList) = scanned
  obtain ⟨ts, fault⟩ := scanned
  -- the root is asked for only if neither a token nor the end has a fault
  cases hs : ts.foldlM Reading.step {} with
  | error cause => simp [hs, bind, Except.bind]
  | ok s => cases fault <;> simp [hs, bind, Except.bind]

/-- A manifest is accepted if every token of it is, nothing is left over and some element was a
root. -/
theorem ofManifest_eq_ok_iff {document : String} {r : Repository} :
    ofManifest document = .ok r ↔
      ∃ s, (tokens document).1.foldlM Reading.step {} = .ok s ∧ (tokens document).2 = none ∧
        s.sawRoot = true ∧ s.repository = r := by
  unfold ofManifest
  obtain ⟨ts, fault⟩ := tokens document
  cases hs : ts.foldlM Reading.step {} with
  | error cause => simp [hs]
  | ok s =>
    cases fault with
    | some cause => simp [hs]
    | none => by_cases hroot : s.sawRoot = true <;> simp [hs, hroot]

/-- What follows a complete part is read from the state that the part leaves. -/
theorem ofManifest_append {before : List Char} (hbefore : IsComplete before) (rest : List Char) :
    ofManifest (.ofList (before ++ rest))
      = (Reading.run {} before >>= fun s => s.run rest) >>= Reading.finish := by
  rw [ofManifest_eq, String.toList_ofList, Reading.run_append {} rest hbefore]

end Repository

end InstallManifest
