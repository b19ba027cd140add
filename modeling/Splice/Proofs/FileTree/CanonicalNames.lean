import Splice.Proofs.FileTree.Approach
import Splice.Proofs.FileTree.Names
import Splice.Proofs.Path.Written

namespace Splice.Route

/-- All names of the route are proper. -/
def Plain (r : Route) : Prop := ∀ s ∈ r.names, Path.isPart s = true

variable {r : Route} {name : String}

theorem Plain.above (h : r.Plain) : r.above.Plain := by
  obtain ⟨up, names⟩ := r
  unfold Route.above
  split
  · exact fun _ hs => absurd hs List.not_mem_nil
  · exact fun s hs => h s (List.dropLast_subset _ hs)

theorem Plain.below (h : r.Plain) (hname : Path.isPart name = true) : (r.below name).Plain := by
  intro s hs
  rcases List.mem_append.mp hs with hs | hs
  · exact h s hs
  · rw [List.mem_singleton.mp hs]
    exact hname

theorem plain_root : Route.root.Plain := fun _ hs => absurd hs List.not_mem_nil

theorem plain_start (p : Path) : (Route.start p).Plain := by
  unfold Route.start
  split <;> exact fun _ hs => absurd hs List.not_mem_nil

end Splice.Route

namespace Splice.FileTree

open Splice.Path

variable {t : FileTree} {names : List String} {here : Route} {seen : Seen} {r : Progress}
  {follow : Seen → Route → List String → Except Fault Progress}

theorem isPart_of_isName {s : String} (h : Node.isName s = true) : isPart s = true := by
  simp only [Node.isName, Bool.and_eq_true, decide_eq_true_eq, Bool.not_eq_true'] at h
  obtain ⟨⟨⟨⟨⟨hempty, hdot⟩, -⟩, hslash⟩, -⟩, -⟩ := h
  exact isPart_iff.mpr ⟨hempty, hdot, by simpa using hslash⟩

/-- Names to walk along: proper ones, and single dots. -/
def Walkable (names : List String) : Prop := ∀ s ∈ names, isPart s = true ∨ s = "."

theorem Walkable.tail {name : String} (h : Walkable (name :: names)) : Walkable names :=
  (List.forall_mem_cons.mp h).2

theorem Walkable.head {name : String} (h : Walkable (name :: names)) (hname : Sought name) :
    isPart name = true :=
  (List.forall_mem_cons.mp h).1.resolve_right hname.dot

theorem walkable_targetNames (target : String) : Walkable (targetNames target) := by
  have hpieces : Walkable
      (((Text.cut '/' target.toList).filter (· ≠ [])).map String.ofList) := by
    intro s hs
    obtain ⟨piece, hpiece, rfl⟩ := List.mem_map.mp hs
    obtain ⟨hmem, hne⟩ := List.mem_filter.mp hpiece
    by_cases hdot : String.ofList piece = "."
    · exact .inr hdot
    · refine .inl (isPart_iff.mpr ⟨fun h => ?_, hdot, ?_⟩)
      · have hempty : piece = [] := by simpa using congrArg String.toList h
        exact absurd hempty (by simpa using hne)
      · rw [String.toList_ofList]
        exact Text.not_mem_of_mem_cut hmem
  unfold targetNames
  split
  · intro s hs
    rcases List.mem_append.mp hs with hs | hs
    · exact hpieces s hs
    · exact .inr (List.mem_singleton.mp hs)
  · exact hpieces

/-- The routes that stand for links have proper names. -/
def Seen.Plain (seen : Seen) : Prop := ∀ e ∈ seen, ∀ known, e.2 = some known → known.Plain

theorem Seen.Plain.lookup (h : Seen.Plain seen) {there known : Route}
    (hknown : seen.lookup there = some (some known)) : known.Plain := by
  induction seen with
  | nil => cases hknown
  | cons e seen ih =>
      obtain ⟨he, hseen⟩ := List.forall_mem_cons.mp h
      rw [List.lookup_cons] at hknown
      split at hknown
      · exact he known (Option.some.inj hknown)
      · exact ih hseen hknown

structure Progress.Plain (r : Progress) : Prop where
  route : r.route.Plain
  stuck : ∀ left, r.stuck = some left → Walkable left
  seen : Seen.Plain r.seen

theorem Progress.Plain.stuck_append (h : r.Plain) {left rest : List String}
    (hleft : r.stuck = some left) (hrest : Walkable rest) :
    Progress.Plain { r with stuck := some (left ++ rest) } where
  route := h.route
  stuck both hboth s hs := by
    rw [← Option.some.inj hboth] at hs
    exact (List.mem_append.mp hs).elim (h.stuck left hleft s) (hrest s)
  seen := h.seen

theorem Progress.Plain.seen_cons (h : r.Plain) (there : Route) :
    Seen.Plain ((there, some r.route) :: r.seen) := by
  refine List.forall_mem_cons.mpr ⟨fun known hknown => ?_, h.seen⟩
  rw [← Option.some.inj hknown]
  exact h.route

/-- What keeps to proper names when it is given such. -/
def KeepsPlain (follow : Seen → Route → List String → Except Fault Progress) : Prop :=
  ∀ seen here names r, Seen.Plain seen → here.Plain → Walkable names →
    follow seen here names = .ok r → r.Plain

theorem KeepsPlain.target (h : KeepsPlain follow) (hseen : Seen.Plain seen) (hhere : here.Plain)
    {there : Route} {target : String} (hr : follow ((there, none) :: seen)
      (if fromRoot target then Route.root else here) (targetNames target) = .ok r) : r.Plain := by
  refine h _ _ _ r (List.forall_mem_cons.mpr ⟨by rintro _ ⟨⟩, hseen⟩) ?_
    (walkable_targetNames target) hr
  split
  · exact Route.plain_root
  · exact hhere

theorem Advances.plain (hfollow : KeepsPlain follow) {outcome : Except Fault Progress}
    (h : Advances t follow seen here names outcome) (hseen : Seen.Plain seen) (hhere : here.Plain)
    (hnames : Walkable names) : ∀ r, outcome = .ok r → r.Plain := by
  induction h with
  | done =>
      rintro _ ⟨⟩
      exact ⟨hhere, by rintro _ ⟨⟩, hseen⟩
  | stay _ ih => exact ih hseen hhere hnames.tail
  | up _ ih => exact ih hseen hhere.above hnames.tail
  | nul => rintro _ ⟨⟩
  | down sought _ _ ih => exact ih hseen (hhere.below (hnames.head sought)) hnames.tail
  | known _ _ met _ ih => exact ih hseen (hseen.lookup met) hnames.tail
  | back sought =>
      rintro _ ⟨⟩
      refine ⟨hhere.below (hnames.head sought), fun left hleft => ?_, hseen⟩
      rw [← Option.some.inj hleft]
      exact hnames.tail
  | failed => rintro _ ⟨⟩
  | stuck _ _ _ followed behind =>
      rintro _ ⟨⟩
      exact (hfollow.target hseen hhere followed).stuck_append behind hnames.tail
  | through _ _ _ followed _ _ ih =>
      have hr := hfollow.target hseen hhere followed
      exact ih (hr.seen_cons _) hr.route hnames.tail

theorem keepsPlain_advance (hfollow : KeepsPlain follow) : KeepsPlain (t.advance follow) :=
  fun seen here names r hseen hhere hnames =>
    (advances t follow seen here names).plain hfollow hseen hhere hnames r

theorem keepsPlain_approach (n : Nat) : KeepsPlain (t.approach n) := by
  induction n with
  | zero =>
      intro seen here names r hseen hhere hnames h
      cases h
      refine ⟨hhere, fun left hleft => ?_, hseen⟩
      rw [← Option.some.inj hleft]
      exact hnames
  | succ n ih => exact keepsPlain_advance ih

theorem isPart_of_mem_normalize {here : Location} (hhere : ∀ s ∈ here, isPart s = true)
    (hnames : Walkable names) : ∀ s ∈ normalize here names, isPart s = true := by
  induction names generalizing here with
  | nil => exact hhere
  | cons name rest ih =>
      obtain ⟨hname, hrest⟩ := List.forall_mem_cons.mp hnames
      rw [normalize]
      split
      · exact ih hhere hrest
      · rename_i hdot
        split
        · exact ih (fun s hs => hhere s (List.dropLast_subset _ hs)) hrest
        · refine ih (fun s hs => ?_) hrest
          rcases List.mem_append.mp hs with hs | hs
          · exact hhere s hs
          · rw [List.mem_singleton.mp hs]
            exact hname.resolve_right hdot

theorem isPart_of_mem_place {current : Location} (hcurrent : ∀ s ∈ current, isPart s = true)
    {r : Route} (h : r.Plain) : ∀ s ∈ r.place current, isPart s = true := by
  unfold Route.place
  split
  · exact h
  · intro s hs
    rcases List.mem_append.mp hs with hs | hs
    · exact hcurrent s (List.mem_of_mem_take hs)
    · exact h s hs

/-- The canonical path of a path as it is written is written with proper names, too. -/
theorem plain_resolve (hcurrent : ∀ s ∈ t.current, Node.isName s = true) {p q : Path}
    (hp : p.Plain) (h : t.resolve p = .ok q) : q.anchor = .root ∧ q.Plain := by
  obtain ⟨l, hl, rfl⟩ := canonical_of_resolve h
  refine ⟨rfl, ?_⟩
  unfold canonical at hl
  cases hr : t.approach (t.routes + 1) [] (.start p) p.parts with
  | error e => rw [hr] at hl; cases hl
  | ok r =>
      rw [hr] at hl
      cases hl
      have hplain := keepsPlain_approach _ _ _ _ _ (fun _ he => absurd he List.not_mem_nil)
        (Route.plain_start p) (fun s hs => .inl (hp s hs)) hr
      refine isPart_of_mem_normalize (isPart_of_mem_place
        (fun s hs => isPart_of_isName (hcurrent s hs)) hplain.route) ?_
      cases hstuck : r.stuck with
      | none => exact fun _ hs => absurd hs List.not_mem_nil
      | some left => exact hplain.stuck left hstuck

end Splice.FileTree
