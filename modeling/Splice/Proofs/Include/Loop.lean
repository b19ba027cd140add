import Mathlib.Data.String.Basic
import Splice.Proofs.Include.Descent

namespace Splice.Include

open FileTree Outcome Relation

variable {t : FileTree} {p q : Path}

/-- The paths at which the walk does not go on, in the order in which it comes to them. -/
def leavesWithin (t : FileTree) : Nat → Path → List Path
  | 0, _ => []
  | depth + 1, p => match t.isDirectory p, t.list p with
    | .ok true, .ok names => (inOrder names).flatMap fun name => leavesWithin t depth (p.child name)
    | _, _ => [p]

def leaves (t : FileTree) (p : Path) : List Path := leavesWithin t (depthBound t) p

theorem leavesWithin_lists {names : List String} (h : Lists t p names) (n : Nat) :
    leavesWithin t (n + 1) p =
      (inOrder names).flatMap fun name => leavesWithin t n (p.child name) := by
  rw [leavesWithin, h.1, h.2]

theorem leavesWithin_leaf (h : ∀ names, ¬Lists t p names) (n : Nat) :
    leavesWithin t (n + 1) p = [p] := by
  rw [leavesWithin]
  split
  · rename_i names hd hl
    exact absurd ⟨hd, hl⟩ (h names)
  · rfl

theorem forEach_forM (names : List String) (f : String → List Path) (g : Path → Outcome Unit) :
    forEach names (fun name => forM (f name) g) = forM (names.flatMap f) g := by
  induction names with
  | nil => rfl
  | cons name rest ih =>
      rw [forEach, ih, List.flatMap_cons, List.forM_append]

theorem forEach_congr {names : List String} {f g : String → Outcome Unit}
    (h : ∀ name ∈ names, f name = g name) : forEach names f = forEach names g := by
  induction names with
  | nil => rfl
  | cons name rest ih =>
      obtain ⟨hname, hrest⟩ := List.forall_mem_cons.mp h
      rw [forEach, forEach, hname, ih hrest]

theorem collectWithin_eq_forM (hroot : t.root.wellNamed = true) {n : Nat} (hpos : 0 < n)
    (h : Fits t p n) : collectWithin t n p = forM (leavesWithin t n p) (visit t) := by
  induction n generalizing p with
  | zero => omega
  | succ n ih =>
      rcases lists_or_leaf t p with ⟨names, hnames⟩ | hleaf
      · rw [collectWithin_lists hnames, leavesWithin_lists hnames, ← forEach_forM]
        apply forEach_congr
        intro name hname
        obtain ⟨hfits, hpos⟩ := h.child hroot hnames (mem_inOrder.mp hname)
        exact ih hpos hfits
      · rw [collectWithin_leaf hleaf, leavesWithin_leaf hleaf]
        simp only [List.forM_cons, List.forM_nil, bind_pure_unit]

theorem mem_leavesWithin {n : Nat} (hq : q ∈ leavesWithin t n p) :
    ReflTransGen (Child t) p q ∧ ∀ names, ¬Lists t q names := by
  induction n generalizing p with
  | zero => cases hq
  | succ n ih =>
      rcases lists_or_leaf t p with ⟨names, hnames⟩ | hleaf
      · rw [leavesWithin_lists hnames] at hq
        obtain ⟨name, hname, hq⟩ := List.mem_flatMap.mp hq
        obtain ⟨hreached, hleaf⟩ := ih hq
        exact ⟨.head ⟨names, hnames, name, mem_inOrder.mp hname, rfl⟩ hreached, hleaf⟩
      · rw [leavesWithin_leaf hleaf] at hq
        obtain rfl := List.mem_singleton.mp hq
        exact ⟨.refl, hleaf⟩

/-- Below a directory that it goes through, the walk comes to the place of this directory again: by a
link to it, or to a directory above it from which the walk comes down to it. -/
def Loops (t : FileTree) (p : Path) : Prop :=
  ∃ q q' l, ReflTransGen (Child t) p q ∧ TransGen (Child t) q q' ∧ t.find q = .ok l ∧
    t.find q' = .ok l

theorem Child.hasNul_eq (hroot : t.root.wellNamed = true) (h : Child t p q) :
    hasNul q = hasNul p := by
  obtain ⟨names, hnames, name, hname, rfl⟩ := h
  rw [hasNul_child, Node.no_nul_of_isName (hnames.isName hroot hname), Bool.or_false]

theorem hasNul_of_reached (hroot : t.root.wellNamed = true) (h : ReflTransGen (Child t) p q) :
    hasNul q = hasNul p := by
  induction h with
  | refl => rfl
  | tail _ hchild ih => exact (hchild.hasNul_eq hroot).trans ih

theorem Child.leads (h : Child t p q) : ∃ l left, Leads t p l left ∧
    ∃ es, t.node? l = some (.directory es) := by
  obtain ⟨names, hnames, _⟩ := h
  obtain ⟨l, left, es, hleads, hes, _⟩ := hnames.leads
  exact ⟨l, left, hleads, es, hes⟩

theorem ok_of_reached {n : Nat} (h : (collectWithin t n p).result = .ok ())
    (hq : ReflTransGen (Child t) p q) : ∃ m, (collectWithin t m q).result = .ok () := by
  induction hq with
  | refl => exact ⟨n, h⟩
  | tail _ hchild ih =>
      obtain ⟨m, hm⟩ := ih
      obtain ⟨names, hnames, name, hname, rfl⟩ := hchild
      cases m with
      | zero => cases hm
      | succ m =>
          rw [collectWithin_lists hnames] at hm
          exact ⟨m, forEach_ok hm (mem_inOrder.mpr hname)⟩

theorem contains_of_ok {n : Nat} (h : (collectWithin t n p).result = .ok ()) :
    t.contains p = .ok true := by
  cases n with
  | zero => cases h
  | succ n =>
      cases hd : t.isDirectory p with
      | error e => rw [collectWithin_fault hd] at h; cases h
      | ok isDir =>
          cases isDir with
          | true =>
              obtain ⟨l, es, hl, hes⟩ := isDirectory_true_iff.mp hd
              exact contains_true_iff.mpr ⟨l, _, hl, hes⟩
          | false =>
              rw [collectWithin_file hd] at h
              obtain ⟨lines, hlines, _⟩ := result_bind_ok_iff.mp h
              obtain ⟨text, htext, _⟩ := readLines_ok hlines
              obtain ⟨l, bs, _, hl, hbs, _⟩ := read_ok htext
              exact contains_true_iff.mpr ⟨l, _, hl, hbs⟩

theorem leads_of_ok {n : Nat} (h : (collectWithin t n p).result = .ok ()) :
    ∃ l left, Leads t p l left := by
  obtain ⟨l, _, hl, _⟩ := contains_true_iff.mp (contains_of_ok h)
  obtain ⟨left, hleads⟩ := find_ok_iff.mp hl
  exact ⟨l, left, hleads⟩

theorem Lists.of_place {names : List String} {l : Location} {left left' : Nat}
    (h : Lists t p names) (hp : Leads t p l left) (hq : Leads t q l left') : Lists t q names := by
  obtain ⟨l', es, hl', hes, hlistable, hnames⟩ := lists_iff.mp h
  obtain rfl : l = l' := Except.ok.inj ((find_ok_iff.mpr ⟨left, hp⟩).symm.trans hl')
  exact lists_iff.mpr ⟨l, es, find_ok_iff.mpr ⟨left', hq⟩, hes, hlistable, hnames⟩

/-- From two paths to one place the walk goes on in the same ways, as long as nothing below the one
with fewer links to follow has too few. -/
theorem parallel {l : Location} {left fewer : Nat} (hle : fewer ≤ left) (hp : Leads t p l left)
    (hq : Leads t q l fewer)
    (hbelow : ∀ q', ReflTransGen (Child t) q q' → ∃ l' left', Leads t q' l' left') {p' : Path}
    (hchain : TransGen (Child t) p p') {l' : Location} {left' : Nat} (hp' : Leads t p' l' left') :
    ∃ q' fewer', TransGen (Child t) q q' ∧ fewer' ≤ left' ∧ Leads t q' l' fewer' := by
  induction hchain generalizing l' left' with
  | single hchild =>
      obtain ⟨names, hnames, name, hname, rfl⟩ := hchild
      have hstep : Child t q (q.child name) := ⟨names, hnames.of_place hp hq, name, hname, rfl⟩
      obtain ⟨fewer', hle', hq'⟩ := leads_child_fewer hle hp hq hp' (hbelow _ (.single hstep))
      exact ⟨q.child name, fewer', .single hstep, hle', hq'⟩
  | tail _ hchild ih =>
      obtain ⟨m, links, hm, _⟩ := hchild.leads
      obtain ⟨q', fewer', hqq', hle', hq'⟩ := ih hm
      obtain ⟨names, hnames, name, hname, rfl⟩ := hchild
      have hstep : Child t q' (q'.child name) := ⟨names, hnames.of_place hm hq', name, hname, rfl⟩
      have hreached := hqq'.tail hstep
      obtain ⟨fewer'', hle'', hq''⟩ :=
        leads_child_fewer hle' hm hq' hp' (hbelow _ hreached.to_reflTransGen)
      exact ⟨q'.child name, fewer'', hreached, hle'', hq''⟩

theorem descent_lt (hroot : t.root.wellNamed = true) {l : Location} {left : Nat}
    (hp : Leads t p l left) (hchain : TransGen (Child t) p q) {l' : Location} {left' : Nat}
    (hq : Leads t q l' left') {es : List (String × Node)} (hes : t.node? l' = some (.directory es)) :
    descent t l' left' < descent t l left := by
  induction hchain generalizing l' left' es with
  | single hchild =>
      obtain ⟨names, hnames, name, hname, rfl⟩ := hchild
      exact descent_child (hnames.isName hroot hname) hp hq hes
  | tail _ hchild ih =>
      obtain ⟨m, links, hm, es', hes'⟩ := hchild.leads
      obtain ⟨names, hnames, name, hname, rfl⟩ := hchild
      exact (descent_child (hnames.isName hroot hname) hm hq hes).trans (ih hm hes')

theorem not_loops_of_found (hroot : t.root.wellNamed = true)
    (hbelow : ∀ q, ReflTransGen (Child t) p q → ∃ l left, Leads t q l left) {l : Location}
    {left left' : Nat} (hp : Leads t p l left) (hchain : TransGen (Child t) p q)
    (hq : Leads t q l left') : False := by
  induction left using Nat.strongRecOn generalizing p q left' with
  | ind left ih =>
      obtain ⟨es, hes⟩ : ∃ es, t.node? l = some (.directory es) := by
        obtain ⟨c, hpc, _⟩ := TransGen.head'_iff.mp hchain
        obtain ⟨l', links, hl', hes⟩ := hpc.leads
        obtain ⟨rfl, _⟩ := hp.unique hl'
        exact hes
      have hlt := descent_lt hroot hp hchain hq hes
      have hfewer : left' < left := by
        unfold descent at hlt
        by_contra hge
        have hmul := Nat.mul_le_mul_right (t.root.depth + 1) (Nat.le_of_not_lt hge)
        omega
      have hbelowq (q' : Path) (hq' : ReflTransGen (Child t) q q') :
          ∃ l left, Leads t q' l left := hbelow q' (hchain.to_reflTransGen.trans hq')
      -- What leads from `p` round to `q` leads round once more from `q`, where fewer links are left.
      obtain ⟨q', fewer, hqq', _, hq'⟩ := parallel (Nat.le_of_lt hfewer) hp hq hbelowq hchain hq
      exact ih left' hfewer hbelowq hq hqq' hq'

theorem not_ok_of_loops (hroot : t.root.wellNamed = true) (h : Loops t p) (n : Nat) :
    (collectWithin t n p).result ≠ .ok () := by
  intro hok
  obtain ⟨q, q', l, hpq, hqq', hl, hl'⟩ := h
  obtain ⟨left, hq⟩ := find_ok_iff.mp hl
  obtain ⟨left', hq'⟩ := find_ok_iff.mp hl'
  refine not_loops_of_found hroot (fun r hr => ?_) hq hqq' hq'
  obtain ⟨m, hm⟩ := ok_of_reached hok (hpq.trans hr)
  exact leads_of_ok hm

theorem Loops.no_nul (hroot : t.root.wellNamed = true) (h : Loops t p)
    (hpq : ReflTransGen (Child t) p q) : hasNul q = false := by
  obtain ⟨r, r', l, hpr, hrr', _⟩ := h
  obtain ⟨c, hpc, _⟩ := TransGen.head'_iff.mp (hrr'.trans_right hpr)
  obtain ⟨_, _, hleads, _⟩ := hpc.leads
  exact (hasNul_of_reached hroot hpq).trans hleads.1

/-- A visit that fails is explained, except where the path or the name of a link's target is too
long. -/
theorem visit_error_kind (h : ∀ names, ¬Lists t q names) (hnul : hasNul q = false) {e : Fault}
    (he : (visit t q).result = .error e) :
    e.kind = .resolution ↔ t.find q ≠ .error (.refused .nameTooLong q.text) := by
  rcases visit_error h he with hd | ⟨hd, hlines⟩
  · obtain ⟨rfl, hf⟩ := leadsTo_error hd
    have hkind : (Fault.refused .nameTooLong q.text).kind ≠ .resolution := by
      show Kind.ofCode 36 ≠ .resolution
      decide
    exact iff_of_false hkind (fun hne => hne hf)
  · rcases readLines_error hlines with ⟨hread, _⟩ | ⟨why, _, _, rfl⟩
    · exact absurd (hasNul_of_read hread) (by simp [hnul])
    · apply iff_of_true rfl
      intro hf
      rw [isDirectory, leadsTo_lost hf] at hd
      cases hd

/-- The walk ends whatever the links, and needs no more depth than the tree tells. If it comes to a
directory again below that directory, it fails: as its first failing leaf does, with an explained
failure unless a name or the path is too long there. -/
theorem collect_ends (hroot : t.root.wellNamed = true) (p : Path) :
    {q | ReflTransGen (Child t) p q}.Finite ∧
    (∀ n ≥ depthBound t, collectWithin t n p = collect t p) ∧
    (collect t p).result ≠ .error .tooDeep ∧
    (Loops t p → ∃ q e, (leaves t p).find? (fun q => (visit t q).fails) = some q ∧
      (visit t q).result = .error e ∧ (collect t p).result = .error e ∧
      (e.kind = .resolution ↔ t.find q ≠ .error (.refused .nameTooLong q.text))) := by
  have hdeep := collect_ne_tooDeep hroot p
  refine ⟨finite_reached hroot (fits_depthBound t p), ?_, hdeep, ?_⟩
  · intro n hn
    exact collectWithin_eq_of_le hn hdeep
  · intro hloops
    cases he : (collect t p).result with
    | ok a => exact absurd he (not_ok_of_loops hroot hloops _)
    | error e =>
        rw [collect, collectWithin_eq_forM hroot (depthBound_pos t) (fits_depthBound t p)] at he
        obtain ⟨q, hq, hvisit⟩ := forM_error_iff.mp he
        obtain ⟨hpq, hleaf⟩ := mem_leavesWithin (List.mem_of_find?_eq_some hq)
        have hkind := visit_error_kind hleaf (hloops.no_nul hroot hpq) hvisit
        exact ⟨q, e, hq, hvisit, rfl, hkind⟩

/-- A directory with two links, one of them to the directory itself. -/
def looped (target : String) : FileTree where
  root := .directory [("d", .directory [("a", .link target), ("b", .link ".")])]
  current := []
  unlistable := []
  unreadable := []

theorem wellNamed_looped (target : String) : (looped target).root.wellNamed = true := rfl

theorem lists_looped (target : String) : Lists (looped target) ⟨.root, ["d"]⟩ ["a", "b"] := by
  have hfind : (looped target).find ⟨.root, ["d"]⟩ = .ok ["d"] :=
    find_of_walkFor 1 (by decide) (by decide) rfl
  exact lists_iff.mpr ⟨["d"], _, hfind, rfl, rfl, rfl⟩

theorem loops_looped (target : String) : Loops (looped target) ⟨.root, ["d"]⟩ := by
  have hfind (path : Path) (hpath : path = ⟨.root, ["d"]⟩ ∨ path = ⟨.root, ["d", "b"]⟩) :
      (looped target).find path = .ok ["d"] := by
    rcases hpath with rfl | rfl
    all_goals exact find_of_walkFor 3 (by decide) (by decide) rfl
  have hchild : Child (looped target) ⟨.root, ["d"]⟩ ⟨.root, ["d", "b"]⟩ :=
    ⟨_, lists_looped target, "b", by simp, rfl⟩
  exact ⟨_, _, ["d"], .refl, .single hchild, hfind _ (.inl rfl), hfind _ (.inr rfl)⟩

theorem collect_ends_looped : (looped ".").root.wellNamed = true ∧
    Loops (looped ".") ⟨.root, ["d"]⟩ ∧ ∃ q e,
      (leaves (looped ".") ⟨.root, ["d"]⟩).find? (fun q => (visit (looped ".") q).fails) = some q ∧
      (visit (looped ".") q).result = .error e ∧
      (collect (looped ".") ⟨.root, ["d"]⟩).result = .error e ∧
      (e.kind = .resolution ↔ (looped ".").find q ≠ .error (.refused .nameTooLong q.text)) := by
  have hends := collect_ends (wellNamed_looped ".") ⟨.root, ["d"]⟩
  exact ⟨wellNamed_looped ".", loops_looped ".", hends.2.2.2 (loops_looped ".")⟩

theorem cut_replicate (n : Nat) :
    Text.cut '/' (List.replicate (n + 1) 'x') = [List.replicate (n + 1) 'x'] := by
  induction n with
  | zero => rfl
  | succ n ih => rw [List.replicate_succ, Text.cut, if_neg (by decide), ih]; rfl

theorem size_replicate (n : Nat) : (String.ofList (List.replicate n 'x')).utf8ByteSize = n := by
  rw [String.utf8ByteSize_ofList]
  induction n with
  | zero => rfl
  | succ n ih => rw [List.replicate_succ, String.utf8Len_cons, ih]; rfl

theorem targetNames_replicate (n : Nat) : targetNames (String.ofList (List.replicate (n + 1) 'x')) =
    [String.ofList (List.replicate (n + 1) 'x')] := by
  have hlast : (List.replicate (n + 1) 'x').getLast? = some 'x' := by
    rw [List.getLast?_replicate, if_neg n.succ_ne_zero]
  unfold targetNames
  rw [String.toList_ofList, cut_replicate, hlast]
  rfl

theorem find_long {name : String} (hlong : longestName < name.utf8ByteSize)
    (hname : targetNames name = [name]) (hrel : fromRoot name = false) :
    (looped name).find ⟨.root, ["d", "a"]⟩ = .error (.refused .nameTooLong "/d/a") := by
  have hdown : step (looped name).root 40 [] "d" = .ok ⟨["d"], 40, []⟩ :=
    step_ok_iff.mpr ⟨_, rfl, .down 40 "d" _ (by decide) (by decide) (by decide) rfl (by simp)⟩
  have hlink : step (looped name).root 40 ["d"] "a" = .ok ⟨["d"], 39, [name]⟩ := by
    have hstep : StepsIn [("a", .link name), ("b", .link ".")] ["d"] 40 "a" _ :=
      .follow 39 "a" name (by decide) (by decide) (by decide) rfl
    rw [hname, hrel] at hstep
    exact step_ok_iff.mpr ⟨_, rfl, hstep⟩
  have hrefused : step (looped name).root 39 ["d"] name = .error .nameTooLong :=
    step_tooLong rfl hlong 39
  rw [find_eq (by decide) (by decide)]
  show (walk (looped name).root 40 [] ["d", "a"]).mapError _ = _
  rw [walk_eq, walkLeft_cons_ok hdown, List.nil_append, walkLeft_cons_ok hlink, List.append_nil,
    walkLeft_cons_error hrefused]
  decide

theorem collect_long {name : String} (hlong : longestName < name.utf8ByteSize)
    (hname : targetNames name = [name]) (hrel : fromRoot name = false) :
    (collect (looped name) ⟨.root, ["d"]⟩).result = .error (.refused .nameTooLong "/d/a") := by
  have horder : inOrder ["a", "b"] = ["a", "b"] := List.mergeSort_of_pairwise (by decide)
  have hd : (looped name).isDirectory ⟨.root, ["d", "a"]⟩ =
      .error (.refused .nameTooLong "/d/a") := leadsTo_lost (find_long hlong hname hrel) _
  obtain ⟨n, hn⟩ : ∃ n, depthBound (looped name) = n + 2 := ⟨_, rfl⟩
  rw [collect, hn, collectWithin_lists (lists_looped name), horder]
  exact result_bind_error_iff.mpr (.inl (congrArg result (collectWithin_fault hd n)))

/-- A loop whose failure is not explained. -/
theorem collect_looped_unexplained :
    (looped (String.ofList (List.replicate 256 'x'))).root.wellNamed = true ∧
    Loops (looped (String.ofList (List.replicate 256 'x'))) ⟨.root, ["d"]⟩ ∧
    (collect (looped (String.ofList (List.replicate 256 'x'))) ⟨.root, ["d"]⟩).result =
      .error (.refused .nameTooLong "/d/a") ∧
    (Fault.refused .nameTooLong "/d/a").kind ≠ .resolution := by
  have hlong : longestName < (String.ofList (List.replicate 256 'x')).utf8ByteSize := by
    rw [size_replicate]
    decide
  have hrel : fromRoot (String.ofList (List.replicate 256 'x')) = false := by
    rw [fromRoot, String.toList_ofList]
    rfl
  exact ⟨wellNamed_looped _, loops_looped _, collect_long hlong (targetNames_replicate 255) hrel,
    by decide⟩

end Splice.Include
