import Splice.Proofs.FileTree.Alike
import Splice.Proofs.Include.Loop

namespace Splice.Include

open FileTree Outcome Relation

variable {t t' : FileTree} {p q : Path}

theorem inOrder_perm (names : List String) : (inOrder names).Perm names :=
  List.mergeSort_perm names _

theorem pairwise_le_inOrder (names : List String) : (inOrder names).Pairwise (· ≤ ·) := by
  have h : (inOrder names).Pairwise fun a b => decide (a ≤ b) = true := by
    apply List.pairwise_mergeSort
    · intro a b c hab hbc
      simp only [decide_eq_true_eq] at hab hbc ⊢
      exact String.le_trans hab hbc
    · intro a b
      simpa using String.le_total a b
  exact h.imp of_decide_eq_true

theorem pairwise_lt_inOrder {names : List String} (h : names.Nodup) :
    (inOrder names).Pairwise (· < ·) := by
  have hnodup : (inOrder names).Nodup := (inOrder_perm names).nodup_iff.mpr h
  refine ((pairwise_le_inOrder names).and hnodup).imp ?_
  rintro a b ⟨hle, hne⟩
  exact String.not_le.mp fun hge => hne (String.le_antisymm hle hge)

theorem inOrder_eq_of_perm {names names' : List String} (h : names'.Perm names) :
    inOrder names' = inOrder names := by
  refine List.Perm.eq_of_pairwise ?_ (pairwise_le_inOrder names') (pairwise_le_inOrder names) ?_
  · intro a b _ _ hab hba
    exact String.le_antisymm hab hba
  · exact (inOrder_perm names').trans (h.trans (inOrder_perm names).symm)

theorem inOrder_eq {names sorted : List String} (hperm : sorted.Perm names)
    (h : sorted.Pairwise (· ≤ ·)) : inOrder names = sorted := by
  rw [← inOrder_eq_of_perm hperm, inOrder, List.mergeSort_of_pairwise]
  simpa using h

theorem collect_eq_forM (hroot : t.root.wellNamed = true) (p : Path) :
    collect t p = forM (leaves t p) (visit t) :=
  collectWithin_eq_forM hroot (depthBound_pos t) (fits_depthBound t p)

theorem leavesWithin_eq_of_fits (hroot : t.root.wellNamed = true) {n m : Nat} (hpos : 0 < n)
    (h : Fits t p n) (hnm : n ≤ m) : leavesWithin t m p = leavesWithin t n p := by
  induction n generalizing m p with
  | zero => omega
  | succ n ih =>
      cases m with
      | zero => omega
      | succ m =>
          rcases lists_or_leaf t p with ⟨names, hnames⟩ | hleaf
          · rw [leavesWithin_lists hnames, leavesWithin_lists hnames]
            apply List.flatMap_congr
            intro name hname
            obtain ⟨hfits, hpos⟩ := h.child hroot hnames (mem_inOrder.mp hname)
            exact ih hpos hfits (by omega)
          · rw [leavesWithin_leaf hleaf, leavesWithin_leaf hleaf]

theorem leaves_lists (hroot : t.root.wellNamed = true) {names : List String}
    (h : Lists t p names) :
    leaves t p = (inOrder names).flatMap fun name => leaves t (p.child name) := by
  rw [leaves, ← leavesWithin_eq_of_fits hroot (depthBound_pos t) (fits_depthBound t p)
    (Nat.le_succ _), leavesWithin_lists h]
  rfl

theorem leaves_leaf (h : ∀ names, ¬Lists t p names) : leaves t p = [p] := by
  obtain ⟨n, hn⟩ := Nat.exists_eq_add_of_lt (depthBound_pos t)
  rw [leaves, hn]
  exact leavesWithin_leaf h _

theorem not_lists_of_refused {e : Fault} (h : t.list p = .error e) (names : List String) :
    ¬Lists t p names := by
  rintro ⟨_, hnames⟩
  rw [h] at hnames
  cases hnames

theorem leavesWithin_eq_of_alike (h : Alike t t') (n : Nat) (p : Path) :
    leavesWithin t' n p = leavesWithin t n p := by
  induction n generalizing p with
  | zero => rfl
  | succ n ih =>
      have hd := h.isDirectory_eq p
      by_cases htrue : t.isDirectory p = .ok true
      · have htrue' := hd.trans htrue
        rcases h.list_rel htrue with ⟨e, he, he'⟩ | ⟨names, names', hnames, hnames', hperm⟩
        · rw [leavesWithin_leaf (not_lists_of_refused he'),
            leavesWithin_leaf (not_lists_of_refused he)]
        · rw [leavesWithin_lists ⟨htrue, hnames⟩, leavesWithin_lists ⟨htrue', hnames'⟩,
            inOrder_eq_of_perm hperm]
          exact List.flatMap_congr fun name _ => ih (p.child name)
      · rw [leavesWithin_leaf fun _ hlists => htrue (hd.symm.trans hlists.1),
          leavesWithin_leaf fun _ hlists => htrue hlists.1]

/-- What files hold, and in which order directories list their entries, does not show in where the
walk goes. -/
theorem leaves_eq_of_alike (hroot : t.root.wellNamed = true) (hroot' : t'.root.wellNamed = true)
    (h : Alike t t') (p : Path) : leaves t' p = leaves t p := by
  have hmax := leavesWithin_eq_of_fits hroot (depthBound_pos t) (fits_depthBound t p)
    (Nat.le_max_left _ (depthBound t'))
  have hmax' := leavesWithin_eq_of_fits hroot' (depthBound_pos t') (fits_depthBound t' p)
    (Nat.le_max_right (depthBound t) _)
  rw [leaves, leaves, ← hmax, ← hmax']
  exact leavesWithin_eq_of_alike h _ p

theorem visit_eq_of_alike (h : Alike t t')
    (hq : t.isDirectory q = .ok true ∨ t'.read q = t.read q) : visit t' q = visit t q := by
  have hd' := h.isDirectory_eq q
  unfold visit
  cases hd : t.isDirectory q with
  | error e => rw [collectWithin_fault (hd'.trans hd), collectWithin_fault hd]
  | ok isDir =>
      cases isDir with
      | false =>
          have hread : t'.read q = t.read q := hq.resolve_left (by rw [hd]; decide)
          have hlines : readLines t' q = readLines t q := by rw [readLines, hread, ← readLines]
          rw [collectWithin_file (hd'.trans hd), collectWithin_file hd, hlines]
      | true =>
          rcases h.list_rel hd with ⟨e, he, he'⟩ | ⟨names, names', hnames, hnames', hperm⟩
          · rw [collectWithin_skipped (hd'.trans hd) he', collectWithin_skipped hd he]
          · rw [collectWithin_listed (hd'.trans hd) hnames', collectWithin_listed hd hnames,
              inOrder_eq_of_perm hperm]
            rfl

def isFile (t : FileTree) (q : Path) : Bool := t.isDirectory q ≠ .ok true

theorem isFile_iff : isFile t q = true ↔ t.isDirectory q ≠ .ok true := decide_eq_true_iff

/-- The paths of the walk that are no directories, in the order in which it comes to them. -/
def files (t : FileTree) (p : Path) : List Path := (leaves t p).filter (isFile t)

theorem files_lists (hroot : t.root.wellNamed = true) {names : List String}
    (h : Lists t p names) :
    files t p = (inOrder names).flatMap fun name => files t (p.child name) := by
  rw [files, leaves_lists hroot h, List.filter_flatMap]
  rfl

theorem files_file (h : t.isDirectory p ≠ .ok true) : files t p = [p] := by
  rw [files, leaves_leaf fun _ hlists => h hlists.1]
  exact List.filter_cons_of_pos (isFile_iff.mpr h)

theorem files_skipped (h : t.isDirectory p = .ok true) {e : Fault} (he : t.list p = .error e) :
    files t p = [] := by
  rw [files, leaves_leaf (not_lists_of_refused he)]
  exact List.filter_cons_of_neg fun hfile => isFile_iff.mp hfile h

/-- The unit of a file, if that can be read. -/
def unitAt (t : FileTree) (q : Path) : Except Fault SourceUnit :=
  SourceUnit.mk (some q) <$> readLines t q

theorem unitAt_ok {u : SourceUnit} (h : unitAt t q = .ok u) :
    ∃ text, t.read q = .ok text ∧ u = ⟨some q, Text.linesOfFile text⟩ := by
  unfold unitAt at h
  cases hlines : readLines t q with
  | error e => rw [hlines] at h; cases h
  | ok lines =>
      rw [hlines] at h
      cases h
      obtain ⟨text, htext, rfl⟩ := readLines_ok hlines
      exact ⟨text, htext, rfl⟩

theorem unitAt_error {e : Fault} (h : unitAt t q = .error e) : ∃ why, t.read q = .error why := by
  cases hread : t.read q with
  | error why => exact ⟨why, rfl⟩
  | ok text => rw [unitAt, readLines, hread] at h; cases h

/-- The path cannot be walked because it is, or a name on the way is, longer than the system takes. -/
def Overlong (t : FileTree) (q : Path) : Prop := t.find q = .error (.refused .nameTooLong q.text)

theorem isDirectory_cases (h : t.isDirectory q ≠ .ok true) :
    t.isDirectory q = .ok false ∨ t.isDirectory q = .error (.refused .nameTooLong q.text) ∧
      Overlong t q := by
  cases hd : t.isDirectory q with
  | error e =>
      obtain ⟨rfl, hf⟩ := leadsTo_error hd
      exact .inr ⟨rfl, hf⟩
  | ok isDir =>
      cases isDir with
      | false => exact .inl rfl
      | true => exact absurd hd h

theorem Overlong.isDirectory_eq (h : Overlong t q) :
    t.isDirectory q = .error (.refused .nameTooLong q.text) := leadsTo_lost h _

theorem visit_read (hd : t.isDirectory q ≠ .ok true) {u : SourceUnit} (hu : unitAt t q = .ok u) :
    visit t q = .emit (.unit u) := by
  obtain ⟨text, htext, rfl⟩ := unitAt_ok hu
  rcases isDirectory_cases hd with hd | ⟨_, hlong⟩
  · have hlines : readLines t q = .ok (Text.linesOfFile text) := by rw [readLines, htext]
    rw [visit, collectWithin_file hd, lift_bind_ok hlines]
  · rw [read_lost hlong] at htext
    cases htext

theorem visit_unread (hd : t.isDirectory q ≠ .ok true) (hnul : hasNul q = false) {why : Fault}
    (hwhy : t.read q = .error why) : ∃ e, visit t q = .fail e ∧ (Overlong t q → e = why) ∧
      (¬Overlong t q → e = .failed q.text why) := by
  rcases isDirectory_cases hd with hd | ⟨hd, hlong⟩
  · have hshort : ¬Overlong t q := by
      intro hlong
      rw [hlong.isDirectory_eq] at hd
      cases hd
    have hlines : readLines t q = .error (.failed q.text why) := by
      unfold readLines
      rw [hwhy]
      cases why with
      | embeddedNul => exact absurd (hasNul_of_read hwhy) (by simp [hnul])
      | _ => rfl
    refine ⟨.failed q.text why, ?_, fun hlong => absurd hlong hshort, fun _ => rfl⟩
    rw [visit, collectWithin_file hd, lift_bind_error hlines]
  · rw [read_lost hlong] at hwhy
    cases hwhy
    refine ⟨_, ?_, fun _ => rfl, fun hshort => absurd hlong hshort⟩
    rw [visit, collectWithin_fault hd]

theorem visit_skipped (h : ∀ names, ¬Lists t q names) (hd : t.isDirectory q = .ok true) :
    (visit t q).result = .ok () ∧ (visit t q).units = [] := by
  cases hl : t.list q with
  | ok names => exact absurd ⟨hd, hl⟩ (h names)
  | error e =>
      rw [visit, collectWithin_skipped hd hl]
      exact ⟨rfl, rfl⟩

theorem forM_visit_ok {qs : List Path} (hqs : ∀ q ∈ qs, ∀ names, ¬Lists t q names)
    {us : List SourceUnit}
    (h : (qs.filter (isFile t)).map (unitAt t) = us.map .ok) :
    (forM qs (visit t)).result = .ok () ∧ (forM qs (visit t)).units = us := by
  induction qs generalizing us with
  | nil =>
      obtain rfl : us = [] := List.map_eq_nil_iff.mp h.symm
      exact ⟨rfl, rfl⟩
  | cons q qs ih =>
      obtain ⟨hq, hqs⟩ := List.forall_mem_cons.mp hqs
      rw [List.forM_cons]
      by_cases hd : t.isDirectory q = .ok true
      · rw [List.filter_cons_of_neg fun hfile => isFile_iff.mp hfile hd] at h
        obtain ⟨hresult, hunits⟩ := visit_skipped hq hd
        obtain ⟨hrest, hus⟩ := ih hqs h
        rw [bind_ok hresult]
        refine ⟨hrest, ?_⟩
        unfold units at hunits hus ⊢
        rw [List.filterMap_append, hunits, hus, List.nil_append]
      · rw [List.filter_cons_of_pos (isFile_iff.mpr hd), List.map_cons] at h
        obtain ⟨u, us, rfl⟩ := List.exists_cons_of_ne_nil (l := us) (by rintro rfl; cases h)
        obtain ⟨hu, hrest⟩ := List.cons.inj h
        obtain ⟨hresult, hus⟩ := ih hqs hrest
        rw [visit_read hd hu, emit_bind]
        refine ⟨hresult, ?_⟩
        unfold units at hus ⊢
        rw [List.filterMap_cons, hus]

end Splice.Include
