import Mathlib.Data.List.Basic
import Splice.Log.Setup
import Splice.Proofs.FileTree.Places
import Splice.Proofs.Outcome.Results

namespace Splice.Node

variable {n n' m k k' : Node} {es : List (String × Node)} {name : String}

/-- What was there is there still, and no link is new. Only directories may have become larger. -/
structure Grown (n n' : Node) : Prop where
  kept : ∀ l m, n.at? l = some m → (∀ es, m ≠ .directory es) → n'.at? l = some m
  directories : ∀ l es, n.at? l = some (.directory es) → ∃ es', n'.at? l = some (.directory es')
  linked : ∀ l target, n'.at? l = some (.link target) → n.at? l = some (.link target)
  links_eq : n'.links = n.links

theorem Grown.refl (n : Node) : n.Grown n :=
  ⟨fun _ _ h _ => h, fun _ es h => ⟨es, h⟩, fun _ _ h => h, rfl⟩

theorem Grown.trans (h : n.Grown n') (h' : n'.Grown m) : n.Grown m where
  kept l k hk hfile := h'.kept l k (h.kept l k hk hfile) hfile
  directories l es hes := by
    obtain ⟨es', hes'⟩ := h.directories l es hes
    exact h'.directories l es' hes'
  linked l target hl := h.linked l target (h'.linked l target hl)
  links_eq := h'.links_eq.trans h.links_eq

theorem lookup_putEntry (es : List (String × Node)) (name other : String) (m : Node) :
    (putEntry es name m).lookup other = if other = name then some m else es.lookup other := by
  induction es with
  | nil =>
      rw [putEntry, List.lookup_cons]
      split
      · rename_i heq
        rw [if_pos (beq_iff_eq.mp heq)]
      · rename_i hne
        rw [if_neg (beq_eq_false_iff_ne.mp hne)]
  | cons e es ih =>
      rw [putEntry]
      by_cases he : e.1 = name
      · rw [if_pos he, List.lookup_cons, List.lookup_cons, he]
        split
        · rename_i heq
          rw [if_pos (beq_iff_eq.mp heq)]
        · rename_i hne
          rw [if_neg (beq_eq_false_iff_ne.mp hne)]
      · rw [if_neg he, List.lookup_cons, List.lookup_cons, ih]
        split
        · rename_i heq
          rw [if_neg (fun h => he ((beq_iff_eq.mp heq).symm.trans h))]
        · rfl

theorem linksOf_putEntry_new (h : es.lookup name = none) (m : Node) :
    linksOf (putEntry es name m) = linksOf es + m.links := by
  induction es with
  | nil => simp [putEntry, linksOf]
  | cons e es ih =>
      rw [List.lookup_cons] at h
      split at h
      · cases h
      · rename_i hne
        have he : e.1 ≠ name := Ne.symm (beq_eq_false_iff_ne.mp hne)
        rw [putEntry, if_neg he, linksOf, linksOf, ih h, Nat.add_assoc]

theorem linksOf_putEntry_same (h : es.lookup name = some k) (hlinks : k'.links = k.links) :
    linksOf (putEntry es name k') = linksOf es := by
  induction es with
  | nil => cases h
  | cons e es ih =>
      rw [List.lookup_cons] at h
      split at h
      · rename_i heq
        cases h
        rw [putEntry, if_pos (beq_iff_eq.mp heq).symm, linksOf, linksOf, hlinks]
      · rename_i hne
        have he : e.1 ≠ name := Ne.symm (beq_eq_false_iff_ne.mp hne)
        rw [putEntry, if_neg he, linksOf, linksOf, ih h]

theorem at?_directory (es : List (String × Node)) (name : String) (rest : Location) :
    (directory es).at? (name :: rest) = (es.lookup name).bind fun m => m.at? rest := rfl

theorem at?_putEntry (es : List (String × Node)) (name other : String) (m : Node)
    (rest : Location) : (directory (putEntry es name m)).at? (other :: rest) =
      if other = name then m.at? rest else (directory es).at? (other :: rest) := by
  rw [at?_directory, lookup_putEntry]
  split <;> rfl

/-- A directory grows with the entry that it is given, in the place of one that has grown to it or of
none. -/
theorem Grown.placed (hgrown : ∀ k, es.lookup name = some k → k.Grown m)
    (hnew : es.lookup name = none → ∀ l target, m.at? l ≠ some (.link target))
    (hlinks : linksOf (putEntry es name m) = linksOf es) :
    Grown (.directory es) (.directory (putEntry es name m)) where
  kept l k hl hfile := by
    cases l with
    | nil => exact absurd (Option.some.inj hl).symm (hfile es)
    | cons other rest =>
        rw [at?_putEntry]
        split
        · rename_i heq
          rw [at?_directory, heq] at hl
          obtain ⟨k', hk', hl⟩ := Option.bind_eq_some_iff.mp hl
          exact (hgrown k' hk').kept rest k hl hfile
        · exact hl
  directories l es' hl := by
    cases l with
    | nil => exact ⟨_, rfl⟩
    | cons other rest =>
        rw [at?_putEntry]
        split
        · rename_i heq
          rw [at?_directory, heq] at hl
          obtain ⟨k', hk', hl⟩ := Option.bind_eq_some_iff.mp hl
          exact (hgrown k' hk').directories rest es' hl
        · exact ⟨es', hl⟩
  linked l target hl := by
    cases l with
    | nil => cases hl
    | cons other rest =>
        rw [at?_putEntry] at hl
        split at hl
        · rename_i heq
          rw [at?_directory, heq]
          cases hk : es.lookup name with
          | none => exact absurd hl (hnew hk rest target)
          | some k => exact (hgrown k hk).linked rest target hl
        · exact hl
  links_eq := hlinks

theorem Grown.entry (h : es.lookup name = some k) (hk : k.Grown k') :
    Grown (.directory es) (.directory (putEntry es name k')) := by
  refine .placed (fun other hother => ?_) (fun hnone => ?_) (linksOf_putEntry_same h hk.links_eq)
  · obtain rfl := Option.some.inj (h.symm.trans hother)
    exact hk
  · cases h.symm.trans hnone

theorem Grown.created (h : es.lookup name = none) (hm : m.links = 0) :
    Grown (.directory es) (.directory (putEntry es name m)) := by
  refine .placed (fun other hother => ?_) (fun _ l target hl => ?_) ?_
  · cases h.symm.trans hother
  · cases links_eq_zero_of_at? hm hl
  · rw [linksOf_putEntry_new h, hm, Nat.add_zero]

theorem Grown.put {l : Location} (h : n.at? l = some (.directory es))
    (hname : es.lookup name = none) (hm : m.links = 0) : n.Grown (n.put m (l ++ [name])) := by
  induction l generalizing n with
  | nil =>
      cases h
      show Grown _ (.directory (putEntry es name (((es.lookup name).getD (.directory [])).put m [])))
      rw [put]
      exact .created hname hm
  | cons first rest ih =>
      cases n with
      | file | link => cases h
      | directory es' =>
          obtain ⟨k, hk, h⟩ := Option.bind_eq_some_iff.mp h
          show Grown _ (.directory (putEntry es' first
            (((es'.lookup first).getD (.directory [])).put m (rest ++ [name]))))
          rw [hk]
          exact .entry hk (ih h)

end Splice.Node

namespace Splice.FileTree

open Results

variable {t t' u : FileTree} {p q : Path} {l : Location}

/-- A tree to which files and directories may have been added, but nothing else has happened. -/
structure Grown (t t' : FileTree) : Prop where
  root : t.root.Grown t'.root
  current_eq : t'.current = t.current
  unlistable_eq : t'.unlistable = t.unlistable
  unreadable_eq : t'.unreadable = t.unreadable

namespace Grown

theorem refl (t : FileTree) : Grown t t := ⟨.refl t.root, rfl, rfl, rfl⟩

theorem trans (h : Grown t t') (h' : Grown t' u) : Grown t u :=
  ⟨h.root.trans h'.root, h'.current_eq.trans h.current_eq, h'.unlistable_eq.trans h.unlistable_eq,
    h'.unreadable_eq.trans h.unreadable_eq⟩

/-! ### Finding -/

theorem kept (h : Grown t t') {n : Node} (hn : t.node? l = some n)
    (hfile : ∀ es, n ≠ .directory es) : t'.node? l = some n := h.root.kept l n hn hfile

theorem directory (h : Grown t t') {es : List (String × Node)}
    (hes : t.node? l = some (.directory es)) : ∃ es', t'.node? l = some (.directory es') :=
  h.root.directories l es hes

theorem link_iff (h : Grown t t') (l : Location) (target : String) :
    t'.node? l = some (.link target) ↔ t.node? l = some (.link target) :=
  ⟨h.root.linked l target, fun hl => h.kept hl (by rintro _ ⟨⟩)⟩

theorem node (h : Grown t t') {n : Node} (hn : t.node? l = some n)
    (hlink : ∀ target, n ≠ .link target) :
    ∃ n', t'.node? l = some n' ∧ ∀ target, n' ≠ .link target := by
  cases n with
  | file bytes => exact ⟨_, h.kept hn (by rintro _ ⟨⟩), by rintro _ ⟨⟩⟩
  | link target => exact absurd rfl (hlink target)
  | directory es =>
      obtain ⟨es', hes'⟩ := h.directory hn
      exact ⟨_, hes', by rintro _ ⟨⟩⟩

theorem step_ok (h : Grown t t') {links : Nat} {here : Location} {name : String} {s : Step}
    (hs : step t.root links here name = .ok s) : step t'.root links here name = .ok s := by
  obtain ⟨es, hes, hs⟩ := step_ok_iff.mp hs
  obtain ⟨es', hes'⟩ := h.directory hes
  refine step_ok_iff.mpr ⟨es', hes', ?_⟩
  cases hs with
  | stay => exact .stay links
  | up => exact .up links
  | down links name n hdot hdots hshort hlook hlink =>
      rw [← Node.at?_child hes] at hlook
      obtain ⟨n', hn', hlink'⟩ := h.node hlook hlink
      exact .down links name n' hdot hdots hshort ((Node.at?_child hes' name).symm.trans hn') hlink'
  | follow links name target hdot hdots hshort hlook =>
      rw [← Node.at?_child hes] at hlook
      have hlook' := (h.link_iff _ target).mpr hlook
      exact .follow links name target hdot hdots hshort
        ((Node.at?_child hes' name).symm.trans hlook')

theorem walkLeft_ok (h : Grown t t') {links : Nat} {here : Location} {names : List String}
    {r : Location × Nat} (hr : walkLeft t.root links here names = .ok r) :
    walkLeft t'.root links here names = .ok r := by
  fun_induction walkLeft t.root links here names with
  | case1 => rw [walkLeft_nil]; exact hr
  | case2 => cases hr
  | case3 links here name rest s hs ih =>
      rw [walkLeft_cons_ok (h.step_ok hs)]
      exact ih hr

theorem find_ok (h : Grown t t') (hl : t.find p = .ok l) : t'.find p = .ok l := by
  obtain ⟨left, hnul, hlong, hwalk⟩ := find_ok_iff.mp hl
  refine find_ok_iff.mpr ⟨left, hnul, hlong, ?_⟩
  rw [start, h.current_eq]
  exact h.walkLeft_ok hwalk

/-! ### Canonical places -/

theorem advances (h : Grown t t') {follow : Seen → Route → List String → Except Fault Progress}
    {seen : Seen} {here : Route} {names : List String} {outcome : Except Fault Progress}
    (hgoes : Advances t follow seen here names outcome) :
    Advances t' follow seen here names outcome := by
  -- Only whether a link stands at a place matters.
  have hlink (r : Route) (target : String) : t'.node? (r.place t'.current) = some (.link target) ↔
      t.node? (r.place t.current) = some (.link target) := by
    rw [h.current_eq]
    exact h.link_iff _ target
  induction hgoes with
  | done seen here => exact .done seen here
  | stay _ ih => exact .stay ih
  | up _ ih => exact .up ih
  | nul dot dots nul => exact .nul dot dots nul
  | down sought unlinked _ ih =>
      exact .down sought (fun target hl => unlinked target ((hlink _ target).mp hl)) ih
  | known sought link met _ ih => exact .known sought ((hlink _ _).mpr link) met ih
  | back sought link met => exact .back sought ((hlink _ _).mpr link) met
  | failed sought link met followed => exact .failed sought ((hlink _ _).mpr link) met followed
  | stuck sought link met followed behind =>
      exact .stuck sought ((hlink _ _).mpr link) met followed behind
  | through sought link met followed free _ ih =>
      exact .through sought ((hlink _ _).mpr link) met followed free ih

theorem approach_eq (h : Grown t t') (n : Nat) : t'.approach n = t.approach n := by
  induction n with
  | zero => rfl
  | succ n ih =>
      funext seen here names
      rw [approach, approach, ih]
      exact (h.advances (FileTree.advances t _ seen here names)).eq

theorem canonical_eq (h : Grown t t') (p : Path) : t'.canonical p = t.canonical p := by
  have hroutes : t'.routes = t.routes := by rw [routes, routes, h.root.links_eq, h.current_eq]
  rw [canonical, canonical, h.approach_eq, hroutes, h.current_eq]

theorem resolve_unique (h : Grown t t') {q' : Path} (hq : t.resolve p = .ok q)
    (hq' : t'.resolve p = .ok q') : q' = q := by
  obtain ⟨l, hl, rfl⟩ := canonical_of_resolve hq
  obtain ⟨l', hl', rfl⟩ := canonical_of_resolve hq'
  rw [h.canonical_eq, hl] at hl'
  rw [Except.ok.inj hl']

theorem resolve_ok (h : Grown t t') (hq : t.resolve p = .ok q) (hl : t.find q = .ok l) :
    t'.resolve p = .ok q := by
  obtain ⟨place, hplace, hq⟩ := bind_ok_iff.mp hq
  dsimp only at hq
  split at hq
  · cases hq
  · cases hq
    exact resolve_eq ((h.canonical_eq p).trans hplace) (h.find_ok hl)

theorem read_ok (h : Grown t t') {text : String} (hread : t.read p = .ok text) :
    t'.read p = .ok text := by
  obtain ⟨l, bs, cs, hl, hbs, hreadable, hcs, rfl⟩ := FileTree.read_ok hread
  rw [← h.unreadable_eq] at hreadable
  exact read_eq (h.find_ok hl) (h.kept hbs (by rintro _ ⟨⟩)) hreadable hcs

end Grown

/-! ### Making room -/

theorem isVacant_iff : t.isVacant l = true ↔ ∃ above name es, l = above ++ [name] ∧
    t.node? above = some (.directory es) ∧ es.lookup name = none := by
  unfold isVacant
  constructor
  · intro h
    split at h
    · rename_i name es hlast hes
      exact ⟨l.dropLast, name, es, (List.dropLast_append_getLast? name hlast).symm, hes,
        Option.isNone_iff_eq_none.mp h⟩
    · cases h
  · rintro ⟨above, name, es, rfl, hes, hname⟩
    rw [List.getLast?_concat, List.dropLast_concat, hes]
    exact Option.isNone_iff_eq_none.mpr hname

theorem grown_put {n : Node} (h : t.isVacant l = true) (hn : n.links = 0) :
    Grown t (t.put l n) := by
  obtain ⟨above, name, es, rfl, hes, hname⟩ := isVacant_iff.mp h
  exact ⟨.put hes hname hn, rfl, rfl, rfl⟩

theorem isVacant_vacancy {links : Nat} {here : Location} {names : List String}
    (h : vacancy t.root links here names = some l) : t.isVacant l = true := by
  fun_induction vacancy t.root links here names with
  | case1 | case5 | case6 | case9 => cases h
  | case2 | case3 | case8 =>
      rename_i ih
      exact ih h
  | case4 =>
      rename_i hes _ _ hname
      cases h
      exact isVacant_iff.mpr ⟨_, _, _, rfl, hes, hname⟩
  | case7 =>
      rename_i ih
      exact ih (by simpa using h)

theorem grown_makeBelow {anchor : Anchor} {names : List String}
    (h : t.makeBelow anchor names = .ok t') : Grown t t' := by
  induction names generalizing t' with
  | nil => cases h; exact .refl t
  | cons name above ih =>
      rw [makeBelow] at h
      split at h
      · split at h
        · cases h; exact .refl t
        · cases h
      · obtain ⟨u, hu, h⟩ := bind_ok_iff.mp h
        have hgrown := ih hu
        split at h
        · obtain ⟨place, -, h⟩ := bind_ok_iff.mp h
          dsimp only at h
          split at h
          · rename_i hvacant
            cases h
            exact hgrown.trans (grown_put hvacant rfl)
          · cases h
        · cases h
        · cases h
          exact hgrown
      · cases h

theorem grown_leftBelow (t : FileTree) (anchor : Anchor) (names : List String) :
    Grown t (t.leftBelow anchor names) := by
  induction names with
  | nil => exact .refl t
  | cons name above ih =>
      rw [leftBelow]
      split
      · rename_i hmade
        exact grown_makeBelow hmade
      · split
        · exact ih
        · exact .refl t

theorem grown_openToAppend (h : t.openToAppend p = .ok t') : Grown t t' := by
  unfold openToAppend at h
  split at h
  · split at h
    · cases h
    · cases h
      exact .refl t
  · split at h
    · rename_i hvacancy
      cases h
      exact grown_put (isVacant_vacancy hvacancy) rfl
    · cases h
  · cases h

end Splice.FileTree

namespace Splice.Log

theorem Target.grown_prepare {t t' : FileTree} {target : Target} (h : target.prepare t = .ok t') :
    t.Grown t' := by
  cases target with
  | errors => cases h; exact .refl t
  | file p =>
      obtain ⟨u, hu, h⟩ := Results.bind_ok_iff.mp h
      exact (FileTree.grown_makeBelow hu).trans (FileTree.grown_openToAppend h)

theorem Target.grown_left (t : FileTree) (target : Target) : t.Grown (target.left t) := by
  cases target with
  | errors => exact .refl t
  | file p =>
      rw [left]
      split
      · rename_i hprepare
        exact grown_prepare hprepare
      · exact FileTree.grown_leftBelow t p.parent.anchor p.parent.parts.reverse

/-- Whatever becomes of a call, nothing that was there before goes. -/
theorem Setup.grown_left (t : FileTree) (p : Option Path) : t.Grown (left t p) := by
  rw [left]
  split
  · exact .refl t
  · exact Target.grown_left t _

theorem Setup.grown_configure {s s' : Setup} {t t' : FileTree} {name : String} {p : Option Path}
    (h : s.configure t name p = (s', .ok t')) : t.Grown t' := by
  unfold configure at h
  split at h
  · cases h
  · unfold direct at h
    split at h
    · cases h
      exact .refl t
    · split at h
      · rename_i hprepare
        cases h
        exact Target.grown_prepare hprepare
      · cases h

end Splice.Log
