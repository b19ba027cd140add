import Splice.Proofs.Include.Registration
import Splice.Proofs.Text.LineEnds

namespace Splice.Include

open FileTree Outcome

variable {t : FileTree} {p : Path} {l : Location} {names : List String}

def pathBelow (p : Path) (names : List String) : Path := { p with parts := p.parts ++ names }

theorem pathBelow_nil (p : Path) : pathBelow p [] = p := by
  rw [pathBelow, List.append_nil]

theorem pathBelow_cons (p : Path) (name : String) (rest : List String) :
    pathBelow p (name :: rest) = pathBelow (p.child name) rest := by
  unfold pathBelow Path.child
  rw [List.append_assoc]
  rfl

/-- The names lead down from a place to something that is no directory, through directories that may
be listed. -/
inductive LiesBelow (t : FileTree) : Location → List String → Prop
  | here (l : Location) (n : Node) (hn : t.node? l = some n) (hfile : ∀ es, n ≠ .directory es) :
      LiesBelow t l []
  | inside (l : Location) (es : List (String × Node)) (name : String) (rest : List String)
      (hes : t.node? l = some (.directory es)) (hlistable : t.unlistable.contains l = false)
      (hrest : LiesBelow t (l ++ [name]) rest) : LiesBelow t l (name :: rest)

theorem LiesBelow.exists_node (h : LiesBelow t l names) : ∃ n, t.node? l = some n := by
  cases h with
  | here _ n hn => exact ⟨n, hn⟩
  | inside _ es _ _ hes => exact ⟨_, hes⟩

theorem liesBelow_leaf {n : Node} (hn : t.node? l = some n) (hfile : ∀ es, n ≠ .directory es) :
    LiesBelow t l names ↔ names = [] := by
  constructor
  · intro h
    cases h with
    | here => rfl
    | inside _ es _ _ hes => exact absurd (Option.some.inj (hn.symm.trans hes)) (hfile es)
  · rintro rfl
    exact .here l n hn hfile

theorem liesBelow_listed {es : List (String × Node)} (hes : t.node? l = some (.directory es))
    (hlistable : t.unlistable.contains l = false) : LiesBelow t l names ↔
      ∃ name rest, names = name :: rest ∧ LiesBelow t (l ++ [name]) rest := by
  constructor
  · intro h
    cases h with
    | here _ n hn hfile => exact absurd (Option.some.inj (hn.symm.trans hes)) (hfile es)
    | inside _ _ name rest _ _ hrest => exact ⟨name, rest, rfl, hrest⟩
  · rintro ⟨name, rest, rfl, hrest⟩
    exact .inside l es name rest hes hlistable hrest

theorem not_liesBelow_skipped {es : List (String × Node)} (hes : t.node? l = some (.directory es))
    (hskipped : t.unlistable.contains l = true) : ¬LiesBelow t l names := by
  intro h
  cases h with
  | here _ n hn hfile => exact hfile es (Option.some.inj (hn.symm.trans hes))
  | inside _ _ _ _ _ hlistable =>
      rw [hskipped] at hlistable
      cases hlistable

/-- The names on the ways down from a place, in order. -/
def waysWithin (t : FileTree) : Nat → Location → List (List String)
  | 0, _ => []
  | n + 1, l => match t.node? l with
    | some (.directory es) =>
      if t.unlistable.contains l then []
      else (inOrder (es.map Prod.fst)).flatMap fun name =>
        (waysWithin t n (l ++ [name])).map (name :: ·)
    | _ => [[]]

theorem waysWithin_leaf {m : Node} (hm : t.node? l = some m) (hfile : ∀ es, m ≠ .directory es)
    (n : Nat) : waysWithin t (n + 1) l = [[]] := by
  rw [waysWithin, hm]
  cases m with
  | file | link => rfl
  | directory es => exact absurd rfl (hfile es)

theorem waysWithin_listed {es : List (String × Node)} (hes : t.node? l = some (.directory es))
    (hlistable : t.unlistable.contains l = false) (n : Nat) :
    waysWithin t (n + 1) l = (inOrder (es.map Prod.fst)).flatMap fun name =>
      (waysWithin t n (l ++ [name])).map (name :: ·) := by
  rw [waysWithin, hes]
  dsimp only
  rw [hlistable, if_neg Bool.false_ne_true]

theorem waysWithin_skipped {es : List (String × Node)} (hes : t.node? l = some (.directory es))
    (hskipped : t.unlistable.contains l = true) (n : Nat) : waysWithin t (n + 1) l = [] := by
  rw [waysWithin, hes]
  dsimp only
  rw [if_pos hskipped]

theorem mem_waysWithin {n : Nat} {m : Node} (hm : t.node? l = some m) (hn : m.depth < n) :
    names ∈ waysWithin t n l ↔ LiesBelow t l names := by
  induction n generalizing l m names with
  | zero => omega
  | succ n ih =>
      cases m with
      | file | link =>
          rw [waysWithin_leaf hm (by rintro _ ⟨⟩), liesBelow_leaf hm (by rintro _ ⟨⟩),
            List.mem_singleton]
      | directory es =>
          rw [Node.depth] at hn
          cases hlistable : t.unlistable.contains l with
          | true =>
              rw [waysWithin_skipped hm hlistable]
              exact iff_of_false List.not_mem_nil (not_liesBelow_skipped hm hlistable)
          | false =>
              rw [waysWithin_listed hm hlistable, liesBelow_listed hm hlistable]
              constructor
              · intro h
                obtain ⟨name, hname, h⟩ := List.mem_flatMap.mp h
                obtain ⟨rest, hrest, rfl⟩ := List.mem_map.mp h
                obtain ⟨k, hk⟩ := Node.mem_names_iff.mp (mem_inOrder.mp hname)
                have hdepth := Node.depth_le_of_lookup hk
                have hnode := (Node.at?_child hm name).trans hk
                exact ⟨name, rest, rfl, (ih hnode (by omega)).mp hrest⟩
              · rintro ⟨name, rest, rfl, hrest⟩
                obtain ⟨k, hk⟩ := hrest.exists_node
                have hlookup := (Node.at?_child hm name).symm.trans hk
                have hdepth := Node.depth_le_of_lookup hlookup
                have hname := mem_inOrder.mpr (Node.mem_names_iff.mpr ⟨k, hlookup⟩)
                have hways := (ih hk (by omega)).mpr hrest
                exact List.mem_flatMap.mpr ⟨name, hname, List.mem_map.mpr ⟨rest, hways, rfl⟩⟩

theorem pairwise_waysWithin (hroot : t.root.wellNamed = true) (n : Nat) (l : Location) :
    (waysWithin t n l).Pairwise (· < ·) := by
  induction n generalizing l with
  | zero => exact .nil
  | succ n ih =>
      unfold waysWithin
      split
      · rename_i es hes
        split
        · exact .nil
        · have hnodup : (es.map Prod.fst).Nodup :=
            Node.nodup_of_wellNamedAll (Node.wellNamed_of_at? (m := .directory es) hroot hes)
          rw [List.pairwise_flatMap]
          constructor
          · intro name _
            rw [List.pairwise_map]
            exact (ih _).imp fun hlt => List.cons_lt_cons_iff.mpr (.inr ⟨rfl, hlt⟩)
          · refine (pairwise_lt_inOrder hnodup).imp ?_
            intro first second hlt a ha b hb
            obtain ⟨a, _, rfl⟩ := List.mem_map.mp ha
            obtain ⟨b, _, rfl⟩ := List.mem_map.mp hb
            exact List.cons_lt_cons_iff.mpr (.inl hlt)
      · exact List.pairwise_singleton _ _

theorem find_child (hroot : t.root.wellNamed = true) {es : List (String × Node)}
    (hl : t.find p = .ok l) (hes : t.node? l = some (.directory es)) {name : String} {n : Node}
    (hn : es.lookup name = some n) (hlink : ∀ target, n ≠ .link target)
    (hfits : tooLong (p.child name) = false) : t.find (p.child name) = .ok (l ++ [name]) := by
  obtain ⟨left, hleads⟩ := find_ok_iff.mp hl
  have hname : Node.isName name = true :=
    Node.isName_of_mem (Node.wellNamed_of_at? (m := .directory es) hroot hes)
      (Node.mem_names_iff.mpr ⟨n, hn⟩)
  obtain ⟨hnul, hshort⟩ := isPlain_iff.mp (isPlain_of_isName hname)
  have hstep : step t.root left l name = .ok ⟨l ++ [name], left, []⟩ := step_ok_iff.mpr ⟨es, hes,
    .down left name n (Node.ne_dot_of_isName hname) (Node.ne_dots_of_isName hname) hshort hn hlink⟩
  refine find_ok_iff.mpr ⟨left, leads_child.mpr ⟨hfits, l, left, hleads, hnul, ?_⟩⟩
  rw [walkLeft_cons_ok hstep, List.append_nil, walkLeft_nil]

theorem ne_link_of_links (hlinks : t.root.links = 0) {n : Node} (hn : t.node? l = some n)
    (target : String) : n ≠ .link target := by
  rintro rfl
  have hzero := Node.links_eq_zero_of_at? hlinks hn
  cases hzero

theorem tooLong_of_pathBelow (h : tooLong (pathBelow p names) = false) : tooLong p = false := by
  induction names generalizing p with
  | nil => rwa [pathBelow_nil] at h
  | cons name rest ih =>
      rw [pathBelow_cons] at h
      exact tooLong_of_child (ih h)

theorem find_pathBelow (hroot : t.root.wellNamed = true) (hlinks : t.root.links = 0)
    (hl : t.find p = .ok l) (h : LiesBelow t l names) (hfits : tooLong (pathBelow p names) = false) :
    t.find (pathBelow p names) = .ok (l ++ names) := by
  induction h generalizing p with
  | here l => rw [pathBelow_nil, List.append_nil, hl]
  | inside l es name rest hes _ hrest ih =>
      obtain ⟨n, hn⟩ := hrest.exists_node
      have hlookup := (Node.at?_child hes name).symm.trans hn
      rw [pathBelow_cons] at hfits ⊢
      have hchild := find_child hroot hl hes hlookup (ne_link_of_links hlinks hn)
        (tooLong_of_pathBelow hfits)
      rw [ih hchild hfits, List.append_assoc]
      rfl

theorem tooLong_of_files (hnul : hasNul p = false) (h : ∀ q ∈ files t p, ¬Overlong t q) :
    tooLong p = false := by
  by_contra hlong
  have hover : Overlong t p := find_tooLong hnul (Bool.eq_true_of_not_eq_false hlong)
  have hfile : files t p = [p] := files_file (by rw [hover.isDirectory_eq]; rintro ⟨⟩)
  exact h p (hfile ▸ List.mem_singleton_self p) hover

theorem find_listed (hroot : t.root.wellNamed = true) (hlinks : t.root.links = 0)
    {es : List (String × Node)} (hl : t.find p = .ok l) (hes : t.node? l = some (.directory es))
    (hlists : Lists t p (es.map Prod.fst)) {name : String} (hname : name ∈ es.map Prod.fst)
    (hfits : ∀ q ∈ files t (p.child name), ¬Overlong t q) :
    ∃ n, es.lookup name = some n ∧ t.node? (l ++ [name]) = some n ∧
      t.find (p.child name) = .ok (l ++ [name]) := by
  have hchild : Child t p (p.child name) := ⟨_, hlists, name, hname, rfl⟩
  have hnul : hasNul (p.child name) = false :=
    (hchild.hasNul_eq hroot).trans (hasNul_of_contains (leadsTo_eq hl hes _))
  obtain ⟨n, hn⟩ := Node.mem_names_iff.mp hname
  have hnode : t.node? (l ++ [name]) = some n := (Node.at?_child hes name).trans hn
  exact ⟨n, hn, hnode, find_child hroot hl hes hn (ne_link_of_links hlinks hnode)
    (tooLong_of_files hnul hfits)⟩

theorem files_eq_map (hroot : t.root.wellNamed = true) (hlinks : t.root.links = 0) {n : Nat}
    {m : Node} (hl : t.find p = .ok l) (hm : t.node? l = some m) (hn : m.depth < n)
    (hfits : ∀ q ∈ files t p, ¬Overlong t q) :
    files t p = (waysWithin t n l).map (pathBelow p) := by
  induction n generalizing p l m with
  | zero => omega
  | succ n ih =>
      cases m with
      | link target => exact absurd rfl (ne_link_of_links hlinks hm target)
      | file bs =>
          have hd : t.isDirectory p = .ok false := leadsTo_eq hl hm _
          rw [files_file (by rw [hd]; decide), waysWithin_leaf hm (by rintro _ ⟨⟩),
            List.map_singleton, pathBelow_nil]
      | directory es =>
          rw [Node.depth] at hn
          have hd : t.isDirectory p = .ok true := leadsTo_eq hl hm _
          have hlist := list_eq hl hm
          cases hlistable : t.unlistable.contains l with
          | true =>
              rw [hlistable, if_pos rfl] at hlist
              rw [files_skipped hd hlist, waysWithin_skipped hm hlistable, List.map_nil]
          | false =>
              rw [hlistable, if_neg Bool.false_ne_true] at hlist
              have hlists : Lists t p (es.map Prod.fst) := ⟨hd, hlist⟩
              rw [files_lists hroot hlists] at hfits ⊢
              rw [waysWithin_listed hm hlistable, List.map_flatMap]
              apply List.flatMap_congr
              intro name hname
              have hbelow (q : Path) (hq : q ∈ files t (p.child name)) : ¬Overlong t q :=
                hfits q (List.mem_flatMap.mpr ⟨name, hname, hq⟩)
              obtain ⟨k, hk, hnode, hchild⟩ :=
                find_listed hroot hlinks hl hm hlists (mem_inOrder.mp hname) hbelow
              have hdepth := Node.depth_le_of_lookup hk
              rw [ih hchild hnode (by omega) hbelow, List.map_map]
              apply List.map_congr_left
              intro rest _
              exact (pathBelow_cons p name rest).symm

theorem files_of_ok (hroot : t.root.wellNamed = true) (hpresent : t.contains p = .ok true)
    (h : (collect t p).result = .ok ()) :
    (files t p).map (unitAt t) = (collect t p).units.map .ok := by
  rcases read_or_firstUnread t (files t p) with ⟨us, hus⟩ | ⟨before, us, f, why, hfirst⟩
  · rw [(collect_read hroot hus).2, hus]
  · obtain ⟨_, _, _, hstop⟩ := exists_stop hroot (hasNul_of_contains hpresent) hfirst
    rw [(hstop.collect_eq hroot).1] at h
    cases h

theorem not_overlong_of_ok (hroot : t.root.wellNamed = true) (hpresent : t.contains p = .ok true)
    (h : (collect t p).result = .ok ()) : ∀ q ∈ files t p, ¬Overlong t q := by
  intro q hq hover
  have hmem := List.mem_map_of_mem (f := unitAt t) hq
  rw [files_of_ok hroot hpresent h] at hmem
  obtain ⟨u, _, hu⟩ := List.mem_map.mp hmem
  obtain ⟨text, htext, _⟩ := unitAt_ok hu.symm
  rw [read_lost hover] at htext
  cases htext

theorem collect_eq_of_shuffled (hroot : t.root.wellNamed = true) {t' : FileTree}
    (hroot' : t'.root.wellNamed = true) (h : Shuffled t t') (p : Path) :
    collect t' p = collect t p := by
  rw [collect_eq_forM hroot', collect_eq_forM hroot, leaves_eq_of_alike hroot hroot' h.toAlike]
  exact forM_congr fun q _ => visit_eq_of_alike h.toAlike (.inr (h.read_eq q))

/-- Without links, the walk that succeeds gives the files at and below its path, each once, in the
order of the names that lead to them; in which order directories list their entries does not
matter. -/
theorem collect_in_order (hroot : t.root.wellNamed = true) (hlinks : t.root.links = 0)
    (hpresent : t.contains p = .ok true) (h : (collect t p).result = .ok ()) :
    ∃ l found, t.find p = .ok l ∧ found.Pairwise (· < ·) ∧
      (∀ names, names ∈ found ↔ LiesBelow t l names) ∧
      List.Forall₂ (fun names u => u.file = some (pathBelow p names) ∧ ∃ bs cs,
        t.node? (l ++ names) = some (.file bs) ∧ Text.Utf8.decode bs = .ok cs ∧
        u.lines = Text.linesOfFile (String.ofList cs)) found (collect t p).units ∧
      ∀ t', Shuffled t t' → t'.root.wellNamed = true → collect t' p = collect t p := by
  obtain ⟨l, m, hl, hm⟩ := contains_true_iff.mp hpresent
  have hmem (names : List String) : names ∈ waysWithin t (m.depth + 1) l ↔ LiesBelow t l names :=
    mem_waysWithin hm (Nat.lt_succ_self _)
  refine ⟨l, waysWithin t (m.depth + 1) l, hl, pairwise_waysWithin hroot _ _, hmem, ?_, ?_⟩
  · have hunits := files_of_ok hroot hpresent h
    have hfits := not_overlong_of_ok hroot hpresent h
    rw [files_eq_map hroot hlinks hl hm (Nat.lt_succ_self _) hfits, List.map_map,
      ← List.forall₂_eq_eq_eq, List.forall₂_map_left_iff, List.forall₂_map_right_iff] at hunits
    obtain ⟨hlength, hzip⟩ := List.forall₂_iff_zip.mp hunits
    refine List.forall₂_iff_zip.mpr ⟨hlength, ?_⟩
    intro names u hu
    have hbelow := (hmem names).mp (List.of_mem_zip hu).1
    obtain ⟨text, htext, rfl⟩ := unitAt_ok (hzip hu)
    obtain ⟨l', bs, cs, hl', hbs, -, hcs, rfl⟩ := read_ok htext
    obtain ⟨_, _, hshort, _⟩ := find_ok_iff.mp hl'
    obtain rfl := Except.ok.inj ((find_pathBelow hroot hlinks hl hbelow hshort).symm.trans hl')
    exact ⟨rfl, bs, cs, hbs, hcs, Text.linesOfFile_unifyLineEnds cs⟩
  · intro t' hshuffled hroot'
    exact collect_eq_of_shuffled hroot hroot' hshuffled p

/-- Joined with slashes, the names of the file in the directory would come last. -/
def shelf : FileTree where
  root := .directory [("d", .directory [("a.dsl", .file [107, 10]), ("a-b", .file [107, 10]),
    ("a", .directory [("b", .file [107, 10])])])]
  current := []
  unlistable := []
  unreadable := []

theorem find_shelf {names : List String} (h : names = [] ∨ names = ["a"] ∨ names = ["a", "b"] ∨
    names = ["a-b"] ∨ names = ["a.dsl"]) :
    shelf.find (pathBelow ⟨.root, ["d"]⟩ names) = .ok ("d" :: names) := by
  rcases h with rfl | rfl | rfl | rfl | rfl
  all_goals
    exact find_of_walkFor 3 (by decide) (by decide) rfl

theorem files_shelf_file {names : List String}
    (h : names = ["a", "b"] ∨ names = ["a-b"] ∨ names = ["a.dsl"]) :
    files shelf (pathBelow ⟨.root, ["d"]⟩ names) = [pathBelow ⟨.root, ["d"]⟩ names] := by
  have hd : shelf.isDirectory (pathBelow ⟨.root, ["d"]⟩ names) = .ok false := by
    have hfind := find_shelf (.inr (.inr h))
    rcases h with rfl | rfl | rfl
    all_goals exact leadsTo_eq hfind rfl _
  exact files_file (by rw [hd]; decide)

theorem files_shelf : files shelf ⟨.root, ["d"]⟩ =
    [["a", "b"], ["a-b"], ["a.dsl"]].map (pathBelow ⟨.root, ["d"]⟩) := by
  have hroot : shelf.root.wellNamed = true := by decide +kernel
  have hd : Lists shelf ⟨.root, ["d"]⟩ ["a.dsl", "a-b", "a"] :=
    lists_iff.mpr ⟨_, _, find_shelf (.inl rfl), rfl, rfl, rfl⟩
  have ha : Lists shelf ⟨.root, ["d", "a"]⟩ ["b"] :=
    lists_iff.mpr ⟨_, _, find_shelf (.inr (.inl rfl)), rfl, rfl, rfl⟩
  have horder : inOrder ["a.dsl", "a-b", "a"] = ["a", "a-b", "a.dsl"] :=
    inOrder_eq (by decide) (by decide)
  have hbelow : files shelf ⟨.root, ["d", "a"]⟩ = [⟨.root, ["d", "a", "b"]⟩] := by
    have hsingle : inOrder ["b"] = ["b"] := List.mergeSort_singleton _
    rw [files_lists hroot ha, hsingle, List.flatMap_singleton]
    exact files_shelf_file (.inl rfl)
  rw [files_lists hroot hd, horder]
  exact congrArg₂ (· ++ ·) hbelow (congrArg₂ (· ++ ·) (files_shelf_file (.inr (.inl rfl)))
    (congrArg₂ (· ++ ·) (files_shelf_file (.inr (.inr rfl))) rfl))

theorem unitAt_shelf {names : List String}
    (h : names = ["a", "b"] ∨ names = ["a-b"] ∨ names = ["a.dsl"]) :
    unitAt shelf (pathBelow ⟨.root, ["d"]⟩ names) =
      .ok ⟨some (pathBelow ⟨.root, ["d"]⟩ names), ["k"]⟩ := by
  have hread : shelf.read (pathBelow ⟨.root, ["d"]⟩ names) = .ok "k\n" := by
    have hfind := find_shelf (.inr (.inr h))
    rcases h with rfl | rfl | rfl
    all_goals exact read_eq hfind rfl rfl rfl
  rw [unitAt, readLines, hread]
  rfl

theorem unitsAt_shelf : (files shelf ⟨.root, ["d"]⟩).map (unitAt shelf) =
    ([["a", "b"], ["a-b"], ["a.dsl"]].map fun names =>
      SourceUnit.mk (some (pathBelow ⟨.root, ["d"]⟩ names)) ["k"]).map .ok := by
  rw [files_shelf, List.map_map, List.map_map]
  apply List.map_congr_left
  intro names hnames
  simp only [List.mem_cons, List.not_mem_nil, or_false] at hnames
  exact unitAt_shelf hnames

theorem collect_shelf : (collect shelf ⟨.root, ["d"]⟩).result = .ok () :=
  (collect_read (by decide +kernel) unitsAt_shelf).1

theorem collect_in_order_shelf : shelf.root.wellNamed = true ∧ shelf.root.links = 0 ∧
    shelf.contains ⟨.root, ["d"]⟩ = .ok true ∧ (collect shelf ⟨.root, ["d"]⟩).result = .ok () ∧
    ∃ l found, shelf.find ⟨.root, ["d"]⟩ = .ok l ∧ found.Pairwise (· < ·) ∧
      (∀ names, names ∈ found ↔ LiesBelow shelf l names) ∧
      List.Forall₂ (fun names u => u.file = some (pathBelow ⟨.root, ["d"]⟩ names) ∧ ∃ bs cs,
        shelf.node? (l ++ names) = some (.file bs) ∧ Text.Utf8.decode bs = .ok cs ∧
        u.lines = Text.linesOfFile (String.ofList cs)) found (collect shelf ⟨.root, ["d"]⟩).units := by
  have hroot : shelf.root.wellNamed = true := by decide +kernel
  have hlinks : shelf.root.links = 0 := by decide +kernel
  have hpresent : shelf.contains ⟨.root, ["d"]⟩ = .ok true :=
    leadsTo_eq (find_shelf (.inl rfl)) rfl _
  obtain ⟨l, found, hl, hpairwise, hmem, hunits, _⟩ :=
    collect_in_order hroot hlinks hpresent collect_shelf
  exact ⟨hroot, hlinks, hpresent, collect_shelf, l, found, hl, hpairwise, hmem, hunits⟩

end Splice.Include
