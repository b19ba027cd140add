import Splice.Proofs.FileTree.Emptied
import Splice.Proofs.Include.Order
import Splice.Proofs.Outcome.Attempted

namespace Splice.Include

open FileTree Outcome Relation

variable {t : FileTree} {places : List Location} {p q : Path} {l : Location} {name : String}

/-- The paths at which the walk does not go on and to which it comes before it fails. -/
def comesTo (t : FileTree) (p : Path) : List Path := attempted (visit t) (leaves t p)

/-- The directories that the walk comes to and that may not be listed. -/
def skipped (t : FileTree) (p : Path) : List Path := (comesTo t p).filter (! isFile t ·)

def skipping (q : Path) : Log.Record :=
  ⟨.warning, Log.Origin.includes.logger,
    "Skipping include directory " ++ q.text ++ ": " ++ (Fault.refused .denied q.text).message⟩

theorem list_of_leaf (hd : t.isDirectory q = .ok true) (h : ∀ names, ¬Lists t q names) :
    t.list q = .error (.refused .denied q.text) := by
  obtain ⟨l, es, hl, hes⟩ := isDirectory_true_iff.mp hd
  have hlist := list_eq hl hes
  split at hlist
  · exact hlist
  · exact absurd ⟨hd, hlist⟩ (h _)

theorem visit_directory (hd : t.isDirectory q = .ok true) (h : ∀ names, ¬Lists t q names) :
    visit t q = ⟨[.record (skipping q)], .ok ()⟩ := by
  rw [visit, collectWithin_skipped hd (list_of_leaf hd h)]
  rfl

theorem records_visit_file (h : t.isDirectory q ≠ .ok true) : (visit t q).records = [] := by
  rcases isDirectory_cases h with hd | ⟨hd, _⟩
  · rw [visit, collectWithin_file hd]
    cases readLines t q <;> rfl
  · rw [visit, collectWithin_fault hd]
    rfl

/-- Of the paths at which the walk does not go on, the directories are logged, once each. -/
theorem records_visits {qs : List Path} (h : ∀ q ∈ qs, ∀ names, ¬Lists t q names) :
    (qs.flatMap fun q => (visit t q).records) = (qs.filter (! isFile t ·)).map skipping := by
  induction qs with
  | nil => rfl
  | cons q qs ih =>
      obtain ⟨hq, hqs⟩ := List.forall_mem_cons.mp h
      rw [List.flatMap_cons, ih hqs]
      by_cases hd : t.isDirectory q = .ok true
      · have hfile : isFile t q = false := by rw [isFile, decide_eq_false_iff_not, not_not, hd]
        rw [visit_directory hd hq, List.filter_cons_of_pos (by simp [hfile])]
        rfl
      · rw [records_visit_file hd, List.filter_cons_of_neg (by simp [isFile_iff.mpr hd])]
        rfl

theorem not_lists_of_comesTo (hq : q ∈ comesTo t p) (names : List String) : ¬Lists t q names :=
  (mem_leavesWithin ((attempted_sublist _ _).subset hq)).2 names

theorem records_collect (hroot : t.root.wellNamed = true) (p : Path) :
    (collect t p).records = (skipped t p).map skipping := by
  rw [collect_eq_forM hroot, records_forM]
  exact records_visits fun q hq => not_lists_of_comesTo hq

theorem find_child_linkless (hlinks : t.root.links = 0) (hname : Node.isName name = true)
    (h : t.find (p.child name) = .ok l) : ∃ above, t.find p = .ok above ∧ l = above ++ [name] := by
  obtain ⟨left, hleads⟩ := find_ok_iff.mp h
  obtain ⟨_, above, links, habove, _, hw⟩ := leads_child.mp hleads
  cases walkLeft_name_linkless hlinks hname hw
  exact ⟨above, find_ok_iff.mpr ⟨_, habove⟩, rfl⟩

theorem prefix_of_reached (hroot : t.root.wellNamed = true) (hlinks : t.root.links = 0)
    (h : ReflTransGen (Child t) p q) (hl : t.find q = .ok l) :
    ∃ above, t.find p = .ok above ∧ above <+: l := by
  induction h generalizing l with
  | refl => exact ⟨l, hl, List.prefix_rfl⟩
  | tail _ hchild ih =>
      obtain ⟨names, hnames, name, hname, rfl⟩ := hchild
      obtain ⟨m, hm, rfl⟩ := find_child_linkless hlinks (hnames.isName hroot hname) hl
      obtain ⟨above, habove, hprefix⟩ := ih hm
      exact ⟨above, habove, hprefix.trans (List.prefix_append m [name])⟩

theorem Lists.nodup (hroot : t.root.wellNamed = true) {names : List String}
    (h : Lists t p names) : names.Nodup := by
  obtain ⟨l, left, es, _, hes, _, rfl⟩ := h.leads
  exact Node.nodup_of_wellNamedAll (Node.wellNamed_of_at? (m := .directory es) hroot hes)

theorem extends_of_reached (hroot : t.root.wellNamed = true) (hlinks : t.root.links = 0)
    (hname : Node.isName name = true) (h : ReflTransGen (Child t) (p.child name) q)
    (hl : t.find q = .ok l) : ∃ above, t.find p = .ok above ∧ above ++ [name] <+: l := by
  obtain ⟨place, hplace, hprefix⟩ := prefix_of_reached hroot hlinks h hl
  obtain ⟨above, habove, rfl⟩ := find_child_linkless hlinks hname hplace
  exact ⟨above, habove, hprefix⟩

theorem pairwise_leavesWithin (hroot : t.root.wellNamed = true) (hlinks : t.root.links = 0)
    (n : Nat) (p : Path) :
    (leavesWithin t n p).Pairwise fun q q' => ∀ l, t.find q = .ok l → t.find q' ≠ .ok l := by
  induction n generalizing p with
  | zero => exact .nil
  | succ n ih =>
      rcases lists_or_leaf t p with ⟨names, hnames⟩ | hleaf
      · rw [leavesWithin_lists hnames, List.pairwise_flatMap]
        refine ⟨fun name _ => ih (p.child name), ?_⟩
        have hnodup : (inOrder names).Nodup :=
          (inOrder_perm names).nodup_iff.mpr (hnames.nodup hroot)
        have hproper : ∀ name ∈ inOrder names, Node.isName name = true :=
          fun name hname => hnames.isName hroot (mem_inOrder.mp hname)
        refine List.Pairwise.imp_of_mem ?_ hnodup
        intro first second hfirst hsecond hne q hq q' hq' l hl hl'
        obtain ⟨above, habove, hprefix⟩ :=
          extends_of_reached hroot hlinks (hproper first hfirst) (mem_leavesWithin hq).1 hl
        obtain ⟨above', habove', hprefix'⟩ :=
          extends_of_reached hroot hlinks (hproper second hsecond) (mem_leavesWithin hq').1 hl'
        cases habove.symm.trans habove'
        have hsame : above ++ [first] = above ++ [second] :=
          (List.prefix_of_prefix_length_le hprefix hprefix' (by simp)).eq_of_length (by simp)
        exact hne (List.singleton_inj.mp (List.append_cancel_left hsame))
      · rw [leavesWithin_leaf hleaf]
        exact List.pairwise_singleton _ _

theorem pairwise_skipped (hroot : t.root.wellNamed = true) (hlinks : t.root.links = 0) (p : Path) :
    (skipped t p).Pairwise fun q q' => t.find q ≠ t.find q' := by
  have hleaves := pairwise_leavesWithin hroot hlinks (depthBound t) p
  have hsub : (skipped t p).Sublist (leaves t p) :=
    List.filter_sublist.trans (attempted_sublist _ _)
  refine List.Pairwise.imp_of_mem ?_ (hleaves.sublist hsub)
  intro q q' hq _ happart heq
  have hdir : isFile t q ≠ true := by simpa using (List.mem_filter.mp hq).2
  rw [Ne, isFile_iff, not_not] at hdir
  obtain ⟨l, _, hl, _⟩ := isDirectory_true_iff.mp hdir
  exact happart l hl (heq.symm.trans hl)

theorem lists_emptied_iff (hlinks : t.root.links = 0) (h : Avoids t places p)
    (hinto : t.leadsInto places p = false) {names : List String} :
    Lists (t.emptied places) p names ↔ Lists (t.denying places) p names := by
  rw [Lists, Lists, isDirectory_emptied hlinks h, list_emptied hlinks h hinto]

theorem visit_emptied (hlinks : t.root.links = 0) (h : Avoids t places p)
    (hinto : t.leadsInto places p = false) :
    visit (t.emptied places) p = visit (t.denying places) p := by
  have hlines : readLines (t.emptied places) p = readLines (t.denying places) p := by
    rw [readLines, readLines, read_emptied hlinks h]
  unfold visit collectWithin searchWithin
  rw [pure_bind, pure_bind, isDirectory_emptied hlinks h, list_emptied hlinks h hinto, hlines]
  rfl

theorem lists_emptied_nil (hlinks : t.root.links = 0) (h : Avoids t places p)
    (hl : t.find p = .ok l) (hmem : l ∈ places) {es : List (String × Node)}
    (hes : t.node? l = some (.directory es)) : Lists (t.emptied places) p [] := by
  refine lists_iff.mpr ⟨l, [], (find_emptied hlinks h).trans hl, ?_, ?_, rfl⟩
  · exact node?_emptied_mem (h.outside hl) hmem hes
  · simp [emptied, hmem]

theorem not_lists_denying (hl : t.find p = .ok l) (hmem : l ∈ places) (names : List String) :
    ¬Lists (t.denying places) p names := by
  intro hlists
  obtain ⟨l', es, hl', _, hlistable, _⟩ := lists_iff.mp hlists
  cases hl.symm.trans hl'
  simp [denying, hmem] at hlistable

theorem Child.avoids (hroot : t.root.wellNamed = true) (hlinks : t.root.links = 0)
    (hchild : Child (t.denying places) p q) (h : Avoids t places p) : Avoids t places q := by
  obtain ⟨names, hnames, name, hname, rfl⟩ := hchild
  obtain ⟨l, es, hl, _⟩ := lists_iff.mp hnames
  have hmem : l ∉ places := fun hmem => not_lists_denying (t := t) hl hmem names hnames
  exact h.child hl hmem hlinks (Lists.isName (t := t.denying places) hroot hnames hname)

theorem avoids_of_reached (hroot : t.root.wellNamed = true) (hlinks : t.root.links = 0)
    (h : Avoids t places p) (hq : ReflTransGen (Child (t.denying places)) p q) :
    Avoids t places q := by
  induction hq with
  | refl => exact h
  | tail _ hchild ih => exact hchild.avoids hroot hlinks ih

/-- The walk in the emptied tree leaves out the directories that are emptied, and nothing else. -/
theorem leavesWithin_emptied (hroot : t.root.wellNamed = true) (hlinks : t.root.links = 0)
    (hdirs : ∀ place ∈ places, ∃ es, t.node? place = some (.directory es)) (n : Nat)
    (h : Avoids t places p) : leavesWithin (t.emptied places) n p =
      (leavesWithin (t.denying places) n p).filter (! t.leadsInto places ·) := by
  induction n generalizing p with
  | zero => rfl
  | succ n ih =>
      cases hinto : t.leadsInto places p with
      | true =>
          obtain ⟨l, hmem, hl⟩ := leadsInto_true_iff.mp hinto
          obtain ⟨es, hes⟩ := hdirs l hmem
          rw [leavesWithin_lists (lists_emptied_nil hlinks h hl hmem hes),
            leavesWithin_leaf (not_lists_denying hl hmem), List.filter_cons_of_neg (by simp [hinto]),
            inOrder, List.mergeSort_nil]
          rfl
      | false =>
          rcases lists_or_leaf (t.denying places) p with ⟨names, hnames⟩ | hleaf
          · rw [leavesWithin_lists hnames, List.filter_flatMap,
              leavesWithin_lists ((lists_emptied_iff hlinks h hinto).mpr hnames)]
            apply List.flatMap_congr
            intro name hname
            have hchild : Child (t.denying places) p (p.child name) :=
              ⟨names, hnames, name, mem_inOrder.mp hname, rfl⟩
            exact ih (hchild.avoids hroot hlinks h)
          · rw [leavesWithin_leaf hleaf, List.filter_cons_of_pos (by simp [hinto]),
              leavesWithin_leaf fun names => mt (lists_emptied_iff hlinks h hinto).mp (hleaf names)]
            rfl

theorem leaves_emptied (hroot : t.root.wellNamed = true) (hlinks : t.root.links = 0)
    (hdirs : ∀ place ∈ places, ∃ es, t.node? place = some (.directory es)) (h : Avoids t places p) :
    leaves (t.emptied places) p = (leaves (t.denying places) p).filter (! t.leadsInto places ·) := by
  let u := t.denying places
  let v := t.emptied places
  have hrootv : v.root.wellNamed = true := Node.wellNamed_emptied t.root places hroot
  have hmax := leavesWithin_eq_of_fits (t := u) hroot (depthBound_pos u) (fits_depthBound u p)
    (Nat.le_max_left _ (depthBound v))
  have hmaxv := leavesWithin_eq_of_fits hrootv (depthBound_pos v) (fits_depthBound v p)
    (Nat.le_max_right (depthBound u) _)
  rw [leaves, leaves, ← hmax, ← hmaxv]
  exact leavesWithin_emptied hroot hlinks hdirs _ h

theorem visit_denying (hdirs : ∀ place ∈ places, ∃ es, t.node? place = some (.directory es))
    (hinto : t.leadsInto places q = true) :
    visit (t.denying places) q = ⟨[.record (skipping q)], .ok ()⟩ := by
  obtain ⟨l, hmem, hl⟩ := leadsInto_true_iff.mp hinto
  obtain ⟨es, hes⟩ := hdirs l hmem
  exact visit_directory (leadsTo_eq (t := t.denying places) hl hes _) (not_lists_denying hl hmem)

theorem collect_emptied (hroot : t.root.wellNamed = true) (hlinks : t.root.links = 0)
    (hdirs : ∀ place ∈ places, ∃ es, t.node? place = some (.directory es)) (h : Avoids t places p) :
    collect (t.emptied places) p = forM ((leaves (t.denying places) p).filter
      (! t.leadsInto places ·)) (visit (t.denying places)) := by
  rw [collect_eq_forM (Node.wellNamed_emptied t.root places hroot),
    leaves_emptied hroot hlinks hdirs h]
  apply forM_congr
  intro q hq
  obtain ⟨hmem, hinto⟩ := List.mem_filter.mp hq
  have havoids := avoids_of_reached hroot hlinks h (mem_leavesWithin hmem).1
  exact visit_emptied hlinks havoids (by simpa using hinto)

/-- A directory that may not be listed counts as an empty one. The walk registers the same units and
ends in the same way, and it logs one warning more for each of these directories that it comes to. -/
theorem collect_denied (hroot : t.root.wellNamed = true) (hlinks : t.root.links = 0)
    (hdirs : ∀ place ∈ places, ∃ es, t.node? place = some (.directory es)) (h : Avoids t places p) :
    (collect (t.denying places) p).result = (collect (t.emptied places) p).result ∧
      (collect (t.denying places) p).units = (collect (t.emptied places) p).units ∧
      (collect (t.denying places) p).records = (skipped (t.denying places) p).map skipping ∧
      (collect (t.emptied places) p).records =
        ((skipped (t.denying places) p).filter (! t.leadsInto places ·)).map skipping ∧
      (skipped (t.denying places) p).Pairwise fun q q' => t.find q ≠ t.find q' := by
  have hdenied := collect_eq_forM (t := t.denying places) hroot p
  have hemptied := collect_emptied hroot hlinks hdirs h
  have hskip : ∀ q, (! t.leadsInto places q) = false →
      visit (t.denying places) q = ⟨[.record (skipping q)], .ok ()⟩ :=
    fun q hq => visit_denying hdirs (by simpa using hq)
  have hok : ∀ q ∈ leaves (t.denying places) p, (! t.leadsInto places q) = false →
      (visit (t.denying places) q).result = .ok () := fun q _ hq => congrArg result (hskip q hq)
  refine ⟨?_, ?_, records_collect (t := t.denying places) hroot p, ?_,
    pairwise_skipped (t := t.denying places) hroot hlinks p⟩
  · rw [hdenied, hemptied, result_forM_filter hok]
  · rw [hdenied, hemptied, units_forM, units_forM, attempted_filter hok]
    exact (flatMap_filter_of_nil fun q _ hq => congrArg units (hskip q hq)).symm
  · rw [hemptied, records_forM, attempted_filter hok, records_visits, skipped, List.filter_comm]
    · rfl
    · exact fun q hq => not_lists_of_comesTo (List.mem_of_mem_filter hq)

theorem avoids_shelf : Avoids shelf [["d", "a"]] ⟨.root, ["d"]⟩ := by
  intro names l hnames hl place hplace hprefix
  cases List.mem_singleton.mp hplace
  have hcases : names = [] ∨ names = ["d"] := by
    simpa using (List.mem_inits names ["d"]).mpr hnames
  have hshort : l.length < 2 := by
    rcases hcases with rfl | rfl
    · cases hl.symm.trans (walk_nil _ _)
      exact Nat.two_pos
    · have hd : walk shelf.root mostLinks [] ["d"] = .ok ["d"] :=
        walk_of_walkFor (n := 1) rfl
      cases hl.symm.trans hd
      exact Nat.one_lt_two
  exact absurd hprefix.length_le (Nat.not_le.mpr hshort)

theorem visit_shelf_file {names : List String} (h : names = ["a-b"] ∨ names = ["a.dsl"]) :
    (shelf.denying [["d", "a"]]).isDirectory (pathBelow ⟨.root, ["d"]⟩ names) = .ok false ∧
      (visit (shelf.denying [["d", "a"]]) (pathBelow ⟨.root, ["d"]⟩ names)).result = .ok () := by
  have hd : (shelf.denying [["d", "a"]]).isDirectory (pathBelow ⟨.root, ["d"]⟩ names) =
      .ok false := by
    have hfind := find_shelf (.inr (.inr (.inr h)))
    rcases h with rfl | rfl
    all_goals exact leadsTo_eq (t := shelf.denying _) hfind rfl _
  have hunit : unitAt (shelf.denying [["d", "a"]]) (pathBelow ⟨.root, ["d"]⟩ names) = .ok _ :=
    unitAt_shelf (.inr h)
  exact ⟨hd, congrArg result (visit_read (by rw [hd]; decide) hunit)⟩

theorem skipped_shelf :
    skipped (shelf.denying [["d", "a"]]) ⟨.root, ["d"]⟩ = [⟨.root, ["d", "a"]⟩] := by
  have hlists : Lists (shelf.denying [["d", "a"]]) ⟨.root, ["d"]⟩ ["a.dsl", "a-b", "a"] :=
    lists_iff.mpr ⟨_, _, find_shelf (.inl rfl), rfl, rfl, rfl⟩
  have horder : inOrder ["a.dsl", "a-b", "a"] = ["a", "a-b", "a.dsl"] :=
    inOrder_eq (by decide) (by decide)
  have hfind : shelf.find (pathBelow ⟨.root, ["d"]⟩ ["a"]) = .ok ["d", "a"] :=
    find_shelf (.inr (.inl rfl))
  have hdir : (shelf.denying [["d", "a"]]).isDirectory (pathBelow ⟨.root, ["d"]⟩ ["a"]) = .ok true :=
    leadsTo_eq (t := shelf.denying _) hfind rfl _
  have hleaf : ∀ names, ¬Lists (shelf.denying [["d", "a"]]) (pathBelow ⟨.root, ["d"]⟩ ["a"]) names :=
    not_lists_denying hfind (List.mem_singleton_self _)
  have hskip := congrArg result (visit_directory hdir hleaf)
  obtain ⟨hd, hvisit⟩ := visit_shelf_file (.inl rfl)
  obtain ⟨hd', hvisit'⟩ := visit_shelf_file (.inr rfl)
  have hfile {q : Path} (hq : (shelf.denying [["d", "a"]]).isDirectory q = .ok false) :
      leaves (shelf.denying [["d", "a"]]) q = [q] ∧ isFile (shelf.denying [["d", "a"]]) q = true := by
    refine ⟨leaves_leaf ?_, isFile_iff.mpr (by rw [hq]; decide)⟩
    intro names hlists
    cases hq.symm.trans hlists.1
  have hleaves : leaves (shelf.denying [["d", "a"]]) ⟨.root, ["d"]⟩ =
      [["a"], ["a-b"], ["a.dsl"]].map (pathBelow ⟨.root, ["d"]⟩) := by
    rw [leaves_lists (by decide +kernel) hlists, horder]
    exact congrArg₂ (· ++ ·) (leaves_leaf hleaf)
      (congrArg₂ (· ++ ·) (hfile hd).1 (congrArg₂ (· ++ ·) (hfile hd').1 rfl))
  rw [skipped, comesTo, hleaves, List.map_cons, List.map_cons, List.map_singleton,
    attempted_ok hskip, attempted_ok hvisit, attempted_ok hvisit', attempted,
    List.filter_cons_of_pos (by rw [isFile, hdir]; decide),
    List.filter_cons_of_neg (by rw [(hfile hd).2]; decide),
    List.filter_cons_of_neg (by rw [(hfile hd').2]; decide), List.filter_nil]
  rfl

/-- Of a directory with another in it, only the files outside that one are found, and it is logged. -/
theorem collect_denied_shelf : shelf.root.wellNamed = true ∧ shelf.root.links = 0 ∧
    (∀ place ∈ [["d", "a"]], ∃ es, shelf.node? place = some (.directory es)) ∧
    Avoids shelf [["d", "a"]] ⟨.root, ["d"]⟩ ∧
    (collect (shelf.denying [["d", "a"]]) ⟨.root, ["d"]⟩).result =
      (collect (shelf.emptied [["d", "a"]]) ⟨.root, ["d"]⟩).result ∧
    (collect (shelf.denying [["d", "a"]]) ⟨.root, ["d"]⟩).units =
      (collect (shelf.emptied [["d", "a"]]) ⟨.root, ["d"]⟩).units ∧
    (collect (shelf.denying [["d", "a"]]) ⟨.root, ["d"]⟩).records =
      [skipping ⟨.root, ["d", "a"]⟩] ∧
    (collect (shelf.emptied [["d", "a"]]) ⟨.root, ["d"]⟩).records = [] := by
  have hroot : shelf.root.wellNamed = true := by decide +kernel
  have hlinks : shelf.root.links = 0 := by decide +kernel
  have hdirs : ∀ place ∈ [["d", "a"]], ∃ es, shelf.node? place = some (.directory es) := by
    intro place hplace
    cases List.mem_singleton.mp hplace
    exact ⟨_, rfl⟩
  obtain ⟨hresult, hunits, hrecords, hrecords', _⟩ := collect_denied hroot hlinks hdirs avoids_shelf
  have hinto : shelf.leadsInto [["d", "a"]] ⟨.root, ["d", "a"]⟩ = true :=
    leadsInto_eq (find_shelf (.inr (.inl rfl)))
  rw [skipped_shelf] at hrecords hrecords'
  refine ⟨hroot, hlinks, hdirs, avoids_shelf, hresult, hunits, hrecords, ?_⟩
  rw [hrecords', List.filter_cons_of_neg (by rw [hinto]; decide)]
  rfl

end Splice.Include
