import Splice.Proofs.FileTree.Places

namespace Splice.FileTree

variable {t : FileTree} {p : Path}

/-- A name that every system call takes. -/
def isPlain (s : String) : Bool := !s.toList.contains '\x00' && s.utf8ByteSize ≤ longestName

theorem isPlain_iff {s : String} : isPlain s = true ↔
    s.toList.contains '\x00' = false ∧ s.utf8ByteSize ≤ longestName := by
  rw [isPlain, Bool.and_eq_true, Bool.not_eq_true', decide_eq_true_iff]

theorem isPlain_of_isName {s : String} (h : Node.isName s = true) : isPlain s = true := by
  refine isPlain_iff.mpr ⟨Node.no_nul_of_isName h, ?_⟩
  simp only [Node.isName, Bool.and_eq_true, decide_eq_true_eq] at h
  exact h.2

/-- Links put only plain names in their place. -/
def PlainLinks (t : FileTree) : Prop :=
  ∀ l target, t.node? l = some (.link target) → ∀ name ∈ targetNames target, isPlain name = true

theorem size_of_step_tooLong {root : Node} {links : Nat} {here : Location} {name : String}
    (h : step root links here name = .error .nameTooLong) : longestName < name.utf8ByteSize := by
  unfold step stepIn at h
  repeat' split at h
  all_goals first
    | assumption
    | cases h

theorem PlainLinks.step (hlinks : PlainLinks t) {links : Nat} {here : Location} {name : String}
    {s : Step} (h : step t.root links here name = .ok s) : ∀ n ∈ s.names, isPlain n = true := by
  obtain ⟨es, hes, hs⟩ := step_ok_iff.mp h
  cases hs with
  | stay | up | down => exact fun _ hn => absurd hn List.not_mem_nil
  | follow links name target _ _ _ hlook =>
      exact hlinks (here ++ [name]) target ((Node.at?_child hes name).trans hlook)

theorem PlainLinks.walkLeft_ne_tooLong (hlinks : PlainLinks t) {links : Nat} {here : Location}
    {names : List String} (hnames : ∀ name ∈ names, isPlain name = true) :
    walkLeft t.root links here names ≠ .error .nameTooLong := by
  fun_induction walkLeft t.root links here names with
  | case1 =>
      intro h
      cases h
  | case2 links here name rest e he =>
      intro h
      cases h
      have hshort := (isPlain_iff.mp (hnames name List.mem_cons_self)).2
      exact absurd (size_of_step_tooLong he) (Nat.not_lt.mpr hshort)
  | case3 links here name rest s hs ih =>
      apply ih
      intro n hn
      rcases List.mem_append.mp hn with hn | hn
      · exact hlinks.step hs n hn
      · exact hnames n (List.mem_cons_of_mem _ hn)

theorem PlainLinks.find_ne_tooLong (hlinks : PlainLinks t) (hshort : tooLong p = false)
    (hnames : ∀ name ∈ p.parts, isPlain name = true) (place : String) :
    t.find p ≠ .error (.refused .nameTooLong place) := by
  intro h
  cases hnul : hasNul p with
  | true => rw [find, hnul, if_pos rfl] at h; cases h
  | false =>
      rw [find_eq hnul hshort, walk_eq] at h
      cases hw : walkLeft t.root mostLinks (t.start p) p.parts with
      | ok r => rw [hw] at h; cases h
      | error why =>
          rw [hw] at h
          cases h
          exact hlinks.walkLeft_ne_tooLong hnames hw

theorem PlainLinks.advances_ok (hlinks : PlainLinks t)
    {follow : Seen → Route → List String → Except Fault Progress}
    (hfollow : ∀ seen here names, (∀ name ∈ names, isPlain name = true) →
      ∃ r, follow seen here names = .ok r)
    {seen : Seen} {here : Route} {names : List String} {outcome : Except Fault Progress}
    (h : Advances t follow seen here names outcome) (hnames : ∀ name ∈ names, isPlain name = true) :
    ∃ r, outcome = .ok r := by
  induction h with
  | done | back | stuck => exact ⟨_, rfl⟩
  | stay _ ih | up _ ih | down _ _ _ ih | known _ _ _ _ ih | through _ _ _ _ _ _ ih =>
      exact ih (List.forall_mem_cons.mp hnames).2
  | nul _ _ nul =>
      rw [(isPlain_iff.mp (List.forall_mem_cons.mp hnames).1).1] at nul
      cases nul
  | failed _ link _ followed =>
      obtain ⟨r, hr⟩ := hfollow _ _ _ (hlinks _ _ link)
      cases hr.symm.trans followed

theorem PlainLinks.approach_ok (hlinks : PlainLinks t) (n : Nat) {names : List String}
    (hnames : ∀ name ∈ names, isPlain name = true) (seen : Seen) (here : Route) :
    ∃ r, t.approach n seen here names = .ok r := by
  induction n generalizing names seen here with
  | zero => exact ⟨_, rfl⟩
  | succ n ih =>
      exact hlinks.advances_ok (fun seen here _ hs => ih hs seen here)
        (advances t _ seen here names) hnames

theorem PlainLinks.canonical_ok (hlinks : PlainLinks t)
    (hnames : ∀ name ∈ p.parts, isPlain name = true) : ∃ l, t.canonical p = .ok l := by
  obtain ⟨r, hr⟩ := hlinks.approach_ok (t.routes + 1) hnames [] (.start p)
  rw [canonical, hr]
  exact ⟨_, rfl⟩

end Splice.FileTree
