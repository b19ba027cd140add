import Mathlib.Data.Set.Finite.Lattice
import Mathlib.Logic.Relation
import Splice.Proofs.FileTree.Places
import Splice.Proofs.Include.Units

namespace Splice.Include

open FileTree Outcome Relation

variable {t : FileTree} {p q : Path}

/-- The walk goes through a directory with these names. -/
def Lists (t : FileTree) (p : Path) (names : List String) : Prop :=
  t.isDirectory p = .ok true ∧ t.list p = .ok names

def Child (t : FileTree) (p q : Path) : Prop :=
  ∃ names, Lists t p names ∧ ∃ name ∈ names, q = p.child name

theorem lists_or_leaf (t : FileTree) (p : Path) :
    (∃ names, Lists t p names) ∨ ∀ names, ¬Lists t p names := by
  rw [← not_exists]
  exact Classical.em _

theorem forEach_eq_of_ne {names : List String} {f g : String → Outcome Unit} {e : Fault}
    (hfg : ∀ name ∈ names, (f name).result ≠ .error e → g name = f name)
    (h : (forEach names f).result ≠ .error e) : forEach names g = forEach names f := by
  induction names with
  | nil => rfl
  | cons name rest ih =>
      obtain ⟨hname, hrest⟩ := List.forall_mem_cons.mp hfg
      exact bind_eq_of_ne hname (fun _ _ ha => ih hrest ha) h

theorem forEach_error {names : List String} {f : String → Outcome Unit} {e : Fault}
    (h : (forEach names f).result = .error e) : ∃ name ∈ names, (f name).result = .error e := by
  induction names with
  | nil => cases h
  | cons name rest ih =>
      rcases result_bind_error_iff.mp h with h | ⟨_, _, h⟩
      · exact ⟨name, List.mem_cons_self, h⟩
      · obtain ⟨name', hname, h⟩ := ih h
        exact ⟨name', List.mem_cons_of_mem _ hname, h⟩

theorem forEach_ok {names : List String} {f : String → Outcome Unit}
    (h : (forEach names f).result = .ok ()) {name : String} (hname : name ∈ names) :
    (f name).result = .ok () := by
  induction names with
  | nil => cases hname
  | cons first rest ih =>
      obtain ⟨⟨⟩, hfirst, hrest⟩ := result_bind_ok_iff.mp h
      rcases List.mem_cons.mp hname with rfl | hname
      · exact hfirst
      · exact ih hrest hname

theorem mem_inOrder {names : List String} {name : String} :
    name ∈ inOrder names ↔ name ∈ names := List.mem_mergeSort

/-- What the walk does where it does not go on. -/
def visit (t : FileTree) (p : Path) : Outcome Unit := collectWithin t 1 p

theorem collectWithin_lists {names : List String} (h : Lists t p names) (n : Nat) :
    collectWithin t (n + 1) p =
      forEach (inOrder names) fun name => collectWithin t n (p.child name) :=
  collectWithin_listed h.1 h.2 n

theorem collectWithin_leaf (h : ∀ names, ¬Lists t p names) (n : Nat) :
    collectWithin t (n + 1) p = visit t p := by
  unfold visit
  cases hd : t.isDirectory p with
  | error e => rw [collectWithin_fault hd, collectWithin_fault hd]
  | ok isDir =>
      cases isDir with
      | false => rw [collectWithin_file hd, collectWithin_file hd]
      | true =>
          cases hl : t.list p with
          | error e => rw [collectWithin_skipped hd hl, collectWithin_skipped hd hl]
          | ok names => exact absurd ⟨hd, hl⟩ (h names)

theorem visit_error (h : ∀ names, ¬Lists t p names) {e : Fault}
    (he : (visit t p).result = .error e) :
    t.isDirectory p = .error e ∨ t.isDirectory p = .ok false ∧ readLines t p = .error e := by
  unfold visit at he
  cases hd : t.isDirectory p with
  | error d => rw [collectWithin_fault hd] at he; cases he; exact .inl rfl
  | ok isDir =>
      cases isDir with
      | false =>
          rw [collectWithin_file hd] at he
          cases hlines : readLines t p with
          | ok lines => rw [lift_bind_ok hlines] at he; cases he
          | error d => rw [lift_bind_error hlines] at he; cases he; exact .inr ⟨rfl, rfl⟩
      | true =>
          cases hl : t.list p with
          | error d => rw [collectWithin_skipped hd hl] at he; cases he
          | ok names => exact absurd ⟨hd, hl⟩ (h names)

/-- A walk fails over the number of directories in one another, over a path that the system does not
go along, or over a file. -/
theorem collectWithin_error {n : Nat} {e : Fault} (h : (collectWithin t n p).result = .error e) :
    e = .tooDeep ∨ ∃ q, t.isDirectory q = .error e ∨
      t.isDirectory q = .ok false ∧ readLines t q = .error e := by
  induction n generalizing p with
  | zero => cases h; exact .inl rfl
  | succ n ih =>
      rcases lists_or_leaf t p with ⟨names, hnames⟩ | hleaf
      · rw [collectWithin_lists hnames] at h
        obtain ⟨name, _, h⟩ := forEach_error h
        exact ih h
      · rw [collectWithin_leaf hleaf] at h
        exact .inr ⟨p, visit_error hleaf h⟩

theorem visit_ne_tooDeep (h : ∀ names, ¬Lists t p names) :
    (visit t p).result ≠ .error .tooDeep := by
  intro hdeep
  rcases visit_error h hdeep with hd | ⟨_, hlines⟩
  · cases (leadsTo_error hd).1
  · rcases readLines_error hlines with ⟨_, he⟩ | ⟨why, _, _, he⟩
    · cases he
    · cases he

/-- A walk that does not run out of depth is the same with any greater one. -/
theorem collectWithin_eq_of_le {n m : Nat} (hnm : n ≤ m)
    (h : (collectWithin t n p).result ≠ .error .tooDeep) :
    collectWithin t m p = collectWithin t n p := by
  induction n generalizing m p with
  | zero => exact absurd rfl h
  | succ n ih =>
      cases m with
      | zero => omega
      | succ m =>
          rcases lists_or_leaf t p with ⟨names, hnames⟩ | hleaf
          · rw [collectWithin_lists hnames] at h ⊢
            rw [collectWithin_lists hnames]
            exact forEach_eq_of_ne (fun name _ hne => ih (by omega) hne) h
          · rw [collectWithin_leaf hleaf, collectWithin_leaf hleaf]

theorem Lists.leads {names : List String} (h : Lists t p names) :
    ∃ l left es, Leads t p l left ∧ t.node? l = some (.directory es) ∧
      t.unlistable.contains l = false ∧ names = es.map Prod.fst := by
  obtain ⟨l, es, hl, hes, hlistable, hnames⟩ := lists_iff.mp h
  obtain ⟨left, hleads⟩ := find_ok_iff.mp hl
  exact ⟨l, left, es, hleads, hes, hlistable, hnames⟩

theorem Lists.isName (hroot : t.root.wellNamed = true) {names : List String}
    (h : Lists t p names) {name : String} (hname : name ∈ names) : Node.isName name = true := by
  obtain ⟨l, left, es, _, hes, _, rfl⟩ := h.leads
  exact Node.isName_of_mem (Node.wellNamed_of_at? (m := .directory es) hroot hes) hname

/-- As many nested directories as `n` are enough for the walk from `p`. -/
def Fits (t : FileTree) (p : Path) (n : Nat) : Prop :=
  ∀ l left es, Leads t p l left → t.node? l = some (.directory es) → descent t l left < n

theorem Fits.child (hroot : t.root.wellNamed = true) {names : List String}
    (hlists : Lists t p names) {n : Nat} (h : Fits t p (n + 1)) {name : String}
    (hname : name ∈ names) : Fits t (p.child name) n ∧ 0 < n := by
  obtain ⟨l, left, es, hleads, hes, _⟩ := hlists.leads
  have hlt := h l left es hleads hes
  have hdepth : l.length < t.root.depth := Node.length_lt_depth hes
  refine ⟨fun l' left' es' hleads' hes' => ?_, ?_⟩
  · have hchild := descent_child (hlists.isName hroot hname) hleads hleads' hes'
    omega
  · unfold descent at hlt
    omega

theorem collectWithin_ne_tooDeep (hroot : t.root.wellNamed = true) {n : Nat} (hpos : 0 < n)
    (h : Fits t p n) : (collectWithin t n p).result ≠ .error .tooDeep := by
  induction n generalizing p with
  | zero => omega
  | succ n ih =>
      rcases lists_or_leaf t p with ⟨names, hnames⟩ | hleaf
      · rw [collectWithin_lists hnames]
        intro hdeep
        -- Only a child can run out of depth, and every child fits into one directory less.
        obtain ⟨name, hname, hdeep⟩ := forEach_error hdeep
        obtain ⟨hfits, hpos⟩ := h.child hroot hnames (mem_inOrder.mp hname)
        exact ih hpos hfits hdeep
      · rw [collectWithin_leaf hleaf]
        exact visit_ne_tooDeep hleaf

theorem fits_depthBound (t : FileTree) (p : Path) : Fits t p (depthBound t) := by
  intro l left es hleads _
  have hleft : left ≤ mostLinks := walkLeft_le hleads.2.2
  have hmul : left * (t.root.depth + 1) ≤ mostLinks * (t.root.depth + 1) :=
    Nat.mul_le_mul_right _ hleft
  unfold depthBound descent
  rw [Nat.add_mul]
  omega

theorem depthBound_pos (t : FileTree) : 0 < depthBound t := by
  unfold depthBound
  exact Nat.mul_pos (Nat.succ_pos _) (Nat.succ_pos _)

theorem collect_file (hd : t.isDirectory p = .ok false) {lines : List String}
    (hlines : readLines t p = .ok lines) : collect t p = ⟨[.unit ⟨some p, lines⟩], .ok ()⟩ := by
  obtain ⟨n, hn⟩ := Nat.exists_eq_add_of_lt (depthBound_pos t)
  rw [collect, hn, collectWithin_file hd, lift_bind_ok hlines]
  rfl

theorem collect_ne_tooDeep (hroot : t.root.wellNamed = true) (p : Path) :
    (collect t p).result ≠ .error .tooDeep :=
  collectWithin_ne_tooDeep hroot (depthBound_pos t) (fits_depthBound t p)

theorem eq_of_reached_leaf (hleaf : ∀ names, ¬Lists t p names)
    (h : ReflTransGen (Child t) p q) : q = p := by
  rcases h.cases_head with rfl | ⟨c, ⟨names, hnames, _⟩, _⟩
  · rfl
  · exact absurd hnames (hleaf names)

theorem finite_reached (hroot : t.root.wellNamed = true) {n : Nat} (h : Fits t p n) :
    {q | ReflTransGen (Child t) p q}.Finite := by
  induction n generalizing p with
  | zero =>
      apply (Set.finite_singleton p).subset
      intro q hq
      refine eq_of_reached_leaf (fun names hnames => ?_) hq
      obtain ⟨l, left, es, hleads, hes, _⟩ := hnames.leads
      exact absurd (h l left es hleads hes) (Nat.not_lt_zero _)
  | succ n ih =>
      rcases lists_or_leaf t p with ⟨names, hnames⟩ | hleaf
      · have hbelow : (⋃ name ∈ {name | name ∈ names},
            {q | ReflTransGen (Child t) (p.child name) q}).Finite := by
          apply Set.Finite.biUnion names.finite_toSet
          intro name hname
          exact ih (h.child hroot hnames hname).1
        apply ((Set.finite_singleton p).union hbelow).subset
        intro q hq
        rcases hq.cases_head with rfl | ⟨c, ⟨names', hnames', name, hname, rfl⟩, hc⟩
        · exact .inl rfl
        · obtain rfl : names = names' := Except.ok.inj (hnames.2.symm.trans hnames'.2)
          exact .inr (Set.mem_biUnion hname hc)
      · apply (Set.finite_singleton p).subset
        exact fun q hq => eq_of_reached_leaf hleaf hq

end Splice.Include
