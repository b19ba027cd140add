import Splice.FileTree.Canonical
import Splice.Proofs.Outcome.Results

namespace Splice.FileTree

/-- A name that is looked up where the walk is. -/
structure Sought (name : String) : Prop where
  dot : name ≠ "."
  dots : name ≠ ".."
  nul : name.toList.contains '\x00' = false

/-- How a walk towards a canonical place goes on: name by name, to a progress or a failure. A link is
followed if it is new, taken for the route that stands for it if it is known, and the end of the walk if
it is being followed. -/
inductive Advances (t : FileTree) (follow : Seen → Route → List String → Except Fault Progress) :
    Seen → Route → List String → Except Fault Progress → Prop
  | done (seen : Seen) (here : Route) : Advances t follow seen here [] (.ok ⟨here, none, seen⟩)
  | stay {seen here rest outcome} (onward : Advances t follow seen here rest outcome) :
      Advances t follow seen here ("." :: rest) outcome
  | up {seen here rest outcome} (onward : Advances t follow seen here.above rest outcome) :
      Advances t follow seen here (".." :: rest) outcome
  | nul {seen here name rest} (dot : name ≠ ".") (dots : name ≠ "..")
      (nul : name.toList.contains '\x00' = true) :
      Advances t follow seen here (name :: rest) (.error .embeddedNul)
  | down {seen here name rest outcome} (sought : Sought name)
      (unlinked : ∀ target, t.node? ((here.below name).place t.current) ≠ some (.link target))
      (onward : Advances t follow seen (here.below name) rest outcome) :
      Advances t follow seen here (name :: rest) outcome
  | known {seen here name rest target known outcome} (sought : Sought name)
      (link : t.node? ((here.below name).place t.current) = some (.link target))
      (met : seen.lookup (here.below name) = some (some known))
      (onward : Advances t follow seen known rest outcome) :
      Advances t follow seen here (name :: rest) outcome
  | back {seen here name rest target} (sought : Sought name)
      (link : t.node? ((here.below name).place t.current) = some (.link target))
      (met : seen.lookup (here.below name) = some none) :
      Advances t follow seen here (name :: rest) (.ok ⟨here.below name, some rest, seen⟩)
  | failed {seen here name rest target e} (sought : Sought name)
      (link : t.node? ((here.below name).place t.current) = some (.link target))
      (met : seen.lookup (here.below name) = none)
      (followed : follow ((here.below name, none) :: seen)
        (if fromRoot target then .root else here) (targetNames target) = .error e) :
      Advances t follow seen here (name :: rest) (.error e)
  | stuck {seen here name rest target r left} (sought : Sought name)
      (link : t.node? ((here.below name).place t.current) = some (.link target))
      (met : seen.lookup (here.below name) = none)
      (followed : follow ((here.below name, none) :: seen)
        (if fromRoot target then .root else here) (targetNames target) = .ok r)
      (behind : r.stuck = some left) :
      Advances t follow seen here (name :: rest) (.ok { r with stuck := some (left ++ rest) })
  | through {seen here name rest target r outcome} (sought : Sought name)
      (link : t.node? ((here.below name).place t.current) = some (.link target))
      (met : seen.lookup (here.below name) = none)
      (followed : follow ((here.below name, none) :: seen)
        (if fromRoot target then .root else here) (targetNames target) = .ok r)
      (free : r.stuck = none)
      (onward : Advances t follow ((here.below name, some r.route) :: r.seen) r.route rest outcome) :
      Advances t follow seen here (name :: rest) outcome

variable {t : FileTree} {p : Path} {follow : Seen → Route → List String → Except Fault Progress}
  {seen : Seen} {here : Route} {names : List String} {outcome : Except Fault Progress}

theorem Sought.advance_link {name target : String} {rest : List String} (h : Sought name)
    (link : t.node? ((here.below name).place t.current) = some (.link target)) :
    t.advance follow seen here (name :: rest) = match seen.lookup (here.below name) with
      | some (some known) => t.advance follow seen known rest
      | some none => .ok ⟨here.below name, some rest, seen⟩
      | none => (follow ((here.below name, none) :: seen)
          (if fromRoot target then .root else here) (targetNames target)).bind fun r =>
            match r.stuck with
            | some left => .ok { r with stuck := some (left ++ rest) }
            | none =>
              (t.advance follow ((here.below name, some r.route) :: r.seen) r.route rest) := by
  rw [advance, if_neg h.dot, if_neg h.dots, h.nul, if_neg Bool.false_ne_true]
  dsimp only
  rw [link]
  rfl

theorem Sought.advance_down {name : String} {rest : List String} (h : Sought name)
    (unlinked : ∀ target, t.node? ((here.below name).place t.current) ≠ some (.link target)) :
    t.advance follow seen here (name :: rest) =
      t.advance follow seen (here.below name) rest := by
  rw [advance, if_neg h.dot, if_neg h.dots, h.nul, if_neg Bool.false_ne_true]
  dsimp only
  split
  · exact absurd ‹_› (unlinked _)
  · rfl

theorem advances (t : FileTree) (follow : Seen → Route → List String → Except Fault Progress)
    (seen : Seen) (here : Route) (names : List String) :
    Advances t follow seen here names (t.advance follow seen here names) := by
  induction names generalizing seen here with
  | nil => exact .done seen here
  | cons name rest ih =>
      by_cases hdot : name = "."
      · subst hdot
        exact .stay (ih seen here)
      by_cases hdots : name = ".."
      · subst hdots
        exact .up (ih seen here.above)
      cases hnul : name.toList.contains '\x00' with
      | true =>
          rw [advance, if_neg hdot, if_neg hdots, if_pos hnul]
          exact .nul hdot hdots hnul
      | false =>
          have hsought : Sought name := ⟨hdot, hdots, hnul⟩
          by_cases hlink : ∃ target, t.node? ((here.below name).place t.current) = some (.link target)
          · obtain ⟨target, htarget⟩ := hlink
            rw [hsought.advance_link htarget]
            -- The link was followed before, is being followed, or is new.
            split
            · rename_i known hmet
              exact .known hsought htarget hmet (ih seen known)
            · rename_i hmet
              exact .back hsought htarget hmet
            · rename_i hmet
              cases hfollowed : follow ((here.below name, none) :: seen)
                  (if fromRoot target then .root else here) (targetNames target) with
              | error e => exact .failed hsought htarget hmet hfollowed
              | ok r =>
                  rw [Except.bind]
                  cases hstuck : r.stuck with
                  | some left => exact .stuck hsought htarget hmet hfollowed hstuck
                  | none => exact .through hsought htarget hmet hfollowed hstuck (ih _ r.route)
          · rw [not_exists] at hlink
            rw [hsought.advance_down hlink]
            exact .down hsought hlink (ih seen _)

theorem Advances.eq (h : Advances t follow seen here names outcome) :
    t.advance follow seen here names = outcome := by
  induction h with
  | done => rfl
  | stay _ ih => exact ih
  | up _ ih => exact ih
  | nul dot dots nul => rw [advance, if_neg dot, if_neg dots, if_pos nul]
  | down sought unlinked _ ih => rw [sought.advance_down unlinked, ih]
  | known sought link met _ ih => rw [sought.advance_link link, met, ← ih]
  | back sought link met => rw [sought.advance_link link, met]
  | failed sought link met followed =>
      rw [sought.advance_link link, met]
      dsimp only
      rw [followed, Except.bind]
  | stuck sought link met followed behind =>
      rw [sought.advance_link link, met]
      dsimp only
      rw [followed, Except.bind, behind]
  | through sought link met followed free _ ih =>
      rw [sought.advance_link link, met]
      dsimp only
      rw [followed, Except.bind, free, ← ih]

/-- The only failure of a walk is over a name with a null character. -/
theorem Advances.embeddedNul
    (hfollow : ∀ seen here names e, follow seen here names = .error e → e = .embeddedNul)
    (h : Advances t follow seen here names outcome) : ∀ e, outcome = .error e → e = .embeddedNul := by
  induction h with
  | done | back | stuck => rintro e ⟨⟩
  | nul => rintro e ⟨⟩; rfl
  | failed _ _ _ followed => rintro e ⟨⟩; exact hfollow _ _ _ _ followed
  | stay _ ih | up _ ih | down _ _ _ ih | known _ _ _ _ ih | through _ _ _ _ _ _ ih => exact ih

theorem approach_error {n : Nat} {e : Fault} (h : t.approach n seen here names = .error e) :
    e = .embeddedNul := by
  induction n generalizing seen here names e with
  | zero => cases h
  | succ n ih => exact (advances t _ seen here names).embeddedNul (fun _ _ _ _ => ih) e h

theorem canonical_error {e : Fault} (h : t.canonical p = .error e) : e = .embeddedNul := by
  unfold canonical at h
  cases hr : t.approach (t.routes + 1) [] (.start p) p.parts with
  | ok r => rw [hr] at h; cases h
  | error d => rw [hr] at h; cases h; exact approach_error hr

theorem canonical_of_resolve {p q : Path} (h : t.resolve p = .ok q) :
    ∃ l, t.canonical p = .ok l ∧ q = pathTo l := by
  obtain ⟨l, hl, h⟩ := Results.bind_ok_iff.mp h
  dsimp only at h
  split at h
  · cases h
  · exact ⟨l, hl, (Except.ok.inj h).symm⟩

end Splice.FileTree
