import Mathlib.Data.List.Forall2

/-!
# Outcomes

What is known of a sequence of steps that may fail: it succeeds if all of them do, and otherwise the
first that failed is to blame.
-/

namespace InstallManifest

variable {ε α β : Type}

instance decidableEqExcept [DecidableEq ε] [DecidableEq α] : DecidableEq (Except ε α)
  | .ok a, .ok b => decidable_of_iff (a = b) (by simp)
  | .error cause, .error cause' => decidable_of_iff (cause = cause') (by simp)
  | .ok _, .error _ => isFalse (by simp)
  | .error _, .ok _ => isFalse (by simp)

@[simp] theorem ok_bind (a : α) (f : α → Except ε β) : (Except.ok a >>= f) = f a := rfl

@[simp] theorem error_bind (e : ε) (f : α → Except ε β) : (Except.error e >>= f) = .error e := rfl

/-- Two steps succeed exactly if the first one does and the second one does after it. -/
theorem bind_eq_ok_iff {x : Except ε α} {f : α → Except ε β} {b : β} :
    x >>= f = .ok b ↔ ∃ a, x = .ok a ∧ f a = .ok b := by
  cases x <;> simp

theorem map_eq_ok_iff {x : Except ε α} {f : α → β} {b : β} :
    x.map f = .ok b ↔ ∃ a, x = .ok a ∧ f a = b := by
  cases x <;> simp [Except.map]

theorem map_eq_error_iff {x : Except ε α} {f : α → β} {cause : ε} :
    x.map f = .error cause ↔ x = .error cause := by
  cases x <;> simp [Except.map]

/-- Causes apart, steps that may fail are steps that may have no value. -/
@[simp] theorem toOption_bind (x : Except ε α) (f : α → Except ε β) :
    (x >>= f).toOption = x.toOption.bind fun a => (f a).toOption := by
  cases x <;> rfl

/-- When only success counts, an outcome is a value or none. -/
theorem toOption_cases {x : Except ε α} {a? : Option α} (h : x.toOption = a?) :
    (∃ a, x = .ok a ∧ a? = some a) ∨ ∃ cause, x = .error cause ∧ a? = none := by
  subst h
  cases x with
  | ok a => exact .inl ⟨a, rfl, rfl⟩
  | error cause => exact .inr ⟨cause, rfl, rfl⟩

/-- What every step preserves is preserved by all of them together. -/
theorem foldlM_invariant {step : α → β → Except ε α} {I : α → Prop} {xs : List β}
    (hstep : ∀ x ∈ xs, ∀ a a', I a → step a x = .ok a' → I a') {a a' : α} (ha : I a)
    (h : xs.foldlM step a = .ok a') : I a' := by
  induction xs generalizing a with
  | nil =>
    cases h
    exact ha
  | cons x xs ih =>
    obtain ⟨hx, hxs⟩ := List.forall_mem_cons.1 hstep
    rw [List.foldlM_cons, bind_eq_ok_iff] at h
    obtain ⟨a₁, hfirst, hrest⟩ := h
    exact ih hxs (hx a a₁ ha hfirst) hrest

/-- Of steps that all succeed, each one succeeds where it is taken. -/
theorem exists_step_of_foldlM {step : α → β → Except ε α} {xs : List β} {a a' : α}
    (h : xs.foldlM step a = .ok a') {x : β} (hx : x ∈ xs) : ∃ a₁ a₂, step a₁ x = .ok a₂ := by
  induction xs generalizing a with
  | nil => cases hx
  | cons y ys ih =>
    rw [List.foldlM_cons, bind_eq_ok_iff] at h
    obtain ⟨a₁, hfirst, hrest⟩ := h
    rcases List.mem_cons.1 hx with rfl | hx
    · exact ⟨a, a₁, hfirst⟩
    · exact ih hrest hx

/-! ## Lists whose members all have a value -/

/-- If each member of a list has a value, related to it in some way, the list has values that are
all related in that way. -/
theorem exists_mapM {f : α → Option β} {R : β → α → Prop} {xs : List α}
    (h : ∀ x ∈ xs, ∃ y, f x = some y ∧ R y x) :
    ∃ ys, xs.mapM f = some ys ∧ List.Forall₂ R ys xs := by
  induction xs with
  | nil => exact ⟨[], rfl, .nil⟩
  | cons x xs ih =>
    obtain ⟨⟨y, hy, hR⟩, hxs⟩ := List.forall_mem_cons.1 h
    obtain ⟨ys, hys, hRs⟩ := ih hxs
    exact ⟨y :: ys, by rw [List.mapM_cons, hy, hys]; rfl, .cons hR hRs⟩

/-- The same where each member can be got back from its value. -/
theorem exists_mapM_map {f : α → Option β} {g : β → α} {xs : List α}
    (h : ∀ x ∈ xs, ∃ y, f x = some y ∧ g y = x) : ∃ ys, xs.mapM f = some ys ∧ ys.map g = xs := by
  obtain ⟨ys, hys, hback⟩ := exists_mapM h
  refine ⟨ys, hys, ?_⟩
  rw [← List.forall₂_eq_eq_eq, List.forall₂_map_left_iff]
  exact hback

/-! ## Steps that fail for causes of their own -/

/-- A value, unless there is a cause not to have it. -/
def okUnless (cause? : Option ε) (a : α) : Except ε α :=
  match cause? with
  | some cause => .error cause
  | none => .ok a

@[simp] theorem okUnless_none (a : α) : okUnless (none : Option ε) a = .ok a := rfl

@[simp] theorem okUnless_some (cause : ε) (a : α) : okUnless (some cause) a = .error cause := rfl

/-- A value comes out exactly if there is no cause against it. -/
theorem okUnless_eq_ok_iff {cause? : Option ε} {a b : α} :
    okUnless cause? a = .ok b ↔ cause? = none ∧ a = b := by
  cases cause? <;> simp

/-- Of steps that fail whatever was done before them, the first that fails is to blame. -/
theorem foldlM_okUnless (cause? : β → Option ε) (next : α → β → α) (xs : List β) (a : α) :
    xs.foldlM (fun a x => okUnless (cause? x) (next a x)) a
      = okUnless (xs.findSome? cause?) (xs.foldl next a) := by
  induction xs generalizing a with
  | nil => rfl
  | cons x xs ih =>
    rw [List.foldlM_cons, List.findSome?_cons, List.foldl_cons]
    -- with a cause nothing after it counts, and without one the rest decides
    cases cause? x with
    | some cause => rfl
    | none => exact ih (next a x)

/-- Looking through lists one after the other is looking through all they hold. -/
theorem findSome?_flatMap {γ : Type} (f : α → List β) (g : β → Option γ) (xs : List α) :
    (xs.flatMap f).findSome? g = xs.findSome? fun x => (f x).findSome? g := by
  induction xs with
  | nil => rfl
  | cons x xs ih =>
    rw [List.flatMap_cons, List.findSome?_append, List.findSome?_cons, ih]
    cases (f x).findSome? g <;> rfl

end InstallManifest
