import InstallManifest.Markup.Token

/-!
# Where elements stand

Every tag that is not a closing one begins an element or is a whole one. The tags before it tell
where the element stands: inside those that were begun and have not ended, whether or not they end
later on. So an element that is not outermost stands in one that is.
-/

namespace InstallManifest.Markup

/-- The tag of a token that begins an element or is a whole one. -/
def Token.tag? : Token → Option Tag
  | opening t => some t
  | empty t => some t
  | closing _ => none
  | aside => none

/-- The tags of the elements of a document, up to its first fault. -/
def tags (document : String) : List Tag := (tokens document).1.filterMap Token.tag?

theorem mem_tags {document : String} {token : Token} (h : token ∈ (tokens document).1) :
    ∀ t ∈ token.tag?, t ∈ tags document :=
  fun _ ht => List.mem_filterMap.2 ⟨token, h, ht⟩

/-- The name of an element, and the names of those around it, innermost first. -/
structure Site where
  name : List Char
  around : List (List Char)
  deriving DecidableEq

/-- The elements that tokens begin, given the names of those that are open before them. Whatever a
closing tag says, the innermost element ends. -/
def sitesIn : (openNames : List (List Char)) → List Token → List Site
  | _, [] => []
  | openNames, .opening t :: ts => ⟨t.name, openNames⟩ :: sitesIn (t.name :: openNames) ts
  | openNames, .empty t :: ts => ⟨t.name, openNames⟩ :: sitesIn openNames ts
  | openNames, .closing _ :: ts => sitesIn openNames.tail ts
  | openNames, .aside :: ts => sitesIn openNames ts

/-- The elements of a document in order. -/
def sites (document : String) : List Site := sitesIn [] (tokens document).1

/-- The elements that stand in no other one. -/
def outermost (document : String) : List Site := (sites document).filter (·.around = [])

theorem map_name_sitesIn (openNames : List (List Char)) (ts : List Token) :
    (sitesIn openNames ts).map (·.name) = (ts.filterMap Token.tag?).map (·.name) := by
  fun_induction sitesIn openNames ts with
  | case1 openNames => rfl
  | case2 openNames t ts ih => exact congrArg (t.name :: ·) ih
  | case3 openNames t ts ih => exact congrArg (t.name :: ·) ih
  | case4 openNames name ts ih => exact ih
  | case5 openNames ts ih => exact ih

/-- The elements of a document have the names of its tags. -/
theorem map_name_sites (document : String) :
    (sites document).map (·.name) = (tags document).map (·.name) :=
  map_name_sitesIn [] (tokens document).1

/-- The outermost element around an element was open from the start, or is one of the outermost
elements that are begun. -/
theorem exists_outermost_of_mem_sitesIn {openNames : List (List Char)} {ts : List Token} {s : Site}
    {name : List Char} (hs : s ∈ sitesIn openNames ts) (hlast : s.around.getLast? = some name) :
    openNames.getLast? = some name ∨
      ∃ root ∈ sitesIn openNames ts, root.around = [] ∧ root.name = name := by
  -- an element that is found among later ones is found among all of them
  have hlater {opened rest : List Site} (hsub : rest ⊆ opened) :
      (∃ root ∈ rest, root.around = [] ∧ root.name = name) →
        ∃ root ∈ opened, root.around = [] ∧ root.name = name :=
    fun ⟨root, hroot, h⟩ => ⟨root, hsub hroot, h⟩
  fun_induction sitesIn openNames ts with
  | case1 openNames => cases hs
  | case2 openNames t ts ih =>
    rcases List.mem_cons.1 hs with rfl | hs
    · exact .inl hlast
    -- the element that is begun here may be the outermost one itself
    · rcases ih hs with hopen | hroot
      · cases openNames with
        | nil =>
          cases hopen
          exact .inr ⟨⟨t.name, []⟩, List.mem_cons_self, rfl, rfl⟩
        | cons outer openNames => exact .inl hopen
      · exact .inr (hlater (List.subset_cons_self _ _) hroot)
  | case3 openNames t ts ih =>
    rcases List.mem_cons.1 hs with rfl | hs
    · exact .inl hlast
    · exact (ih hs).imp_right (hlater (List.subset_cons_self _ _))
  | case4 openNames closed ts ih =>
    -- the element that ends is not the outermost one, unless nothing is left open
    refine (ih hs).imp_left fun hopen => ?_
    cases openNames with
    | nil => exact hopen
    | cons inner openNames =>
      cases openNames with
      | nil => cases hopen
      | cons outer openNames => exact hopen
  | case5 openNames ts ih => exact ih hs

/-- Around every element that is not outermost stands one that is. -/
theorem exists_outermost_of_mem_sites {document : String} {s : Site} (hs : s ∈ sites document)
    (h : s.around ≠ []) :
    ∃ root ∈ outermost document, s.around.getLast? = some root.name := by
  have hlast := List.getLast?_eq_some_getLast h
  -- at the beginning nothing is open
  rcases exists_outermost_of_mem_sitesIn hs hlast with hopen | ⟨root, hroot, houter, hname⟩
  · cases hopen
  · refine ⟨root, List.mem_filter.2 ⟨hroot, decide_eq_true houter⟩, ?_⟩
    rw [hlast, hname]

end InstallManifest.Markup
