import Splice.Proofs.Include.Boundary
import Splice.Proofs.Include.Grammar

namespace Splice.Include

open FileTree Outcome Relation

variable {t : FileTree} {fetch : Remote.Fetcher} {p : Path}

/-- The walk comes to the paths `visited`, whose files are `before`, and fails at the file `f` with
`e`. -/
structure Stop (t : FileTree) (p : Path) (before : List Path) (us : List SourceUnit) (f : Path)
    (why : Fault) (visited rest : List Path) (e : Fault) : Prop where
  leaves_eq : leaves t p = visited ++ f :: rest
  files_eq : visited.filter (isFile t) = before
  result_eq : (forM visited (visit t)).result = .ok ()
  units_eq : (forM visited (visit t)).units = us
  visit_eq : visit t f = .fail e
  long : Overlong t f → e = why
  short : ¬Overlong t f → e = .failed f.text why

/-- Of the files `qs`, the first that cannot be read is `f`, and the files `before` it are those of the
units `us`. -/
def FirstUnread (t : FileTree) (qs before : List Path) (us : List SourceUnit) (f : Path)
    (why : Fault) : Prop :=
  (∃ after, qs = before ++ f :: after) ∧ before.map (unitAt t) = us.map .ok ∧ t.read f = .error why

theorem read_or_firstUnread (t : FileTree) (qs : List Path) :
    (∃ us : List SourceUnit, qs.map (unitAt t) = us.map .ok) ∨
      ∃ before us f why, FirstUnread t qs before us f why := by
  rcases given_or_first_error (unitAt t) qs with hus | ⟨before, f, after, us, e, hqs, hus, he⟩
  · exact .inl hus
  · obtain ⟨why, hwhy⟩ := unitAt_error he
    exact .inr ⟨before, us, f, why, ⟨after, hqs⟩, hus, hwhy⟩

theorem exists_stop (hroot : t.root.wellNamed = true) (hnul : hasNul p = false)
    {before : List Path} {us : List SourceUnit} {f : Path} {why : Fault}
    (h : FirstUnread t (files t p) before us f why) :
    ∃ visited rest e, Stop t p before us f why visited rest e := by
  obtain ⟨⟨after, hfiles⟩, hus, hwhy⟩ := h
  obtain ⟨first, others, hleaves, hfirst, hothers⟩ := List.filter_eq_append_iff.mp hfiles
  obtain ⟨skipped, rest, rfl, hskipped, hf, _⟩ := List.filter_eq_cons_iff.mp hothers
  rw [← List.append_assoc] at hleaves
  have hbefore : (first ++ skipped).filter (isFile t) = before := by
    rw [List.filter_append, hfirst, List.filter_eq_nil_iff.mpr hskipped, List.append_nil]
  have hleaf : ∀ q ∈ (first ++ skipped) ++ f :: rest,
      ReflTransGen (Child t) p q ∧ ∀ names, ¬Lists t q names :=
    fun q hq => mem_leavesWithin (hleaves ▸ hq)
  have hfnul : hasNul f = false := (hasNul_of_reached hroot (hleaf f (by simp)).1).trans hnul
  obtain ⟨hok, hunits⟩ := forM_visit_ok
    (fun q hq => (hleaf q (List.mem_append_left _ hq)).2) (hbefore.symm ▸ hus)
  obtain ⟨e, hvisit, hlong, hshort⟩ := visit_unread (isFile_iff.mp hf) hfnul hwhy
  exact ⟨_, rest, e, hleaves, hbefore, hok, hunits, hvisit, hlong, hshort⟩

/-- The walk ends at the first file that cannot be read, with the units of the files before it. -/
theorem Stop.collect_eq (hroot : t.root.wellNamed = true) {before : List Path}
    {us : List SourceUnit} {f : Path} {why : Fault} {visited rest : List Path} {e : Fault}
    (h : Stop t p before us f why visited rest e) :
    (collect t p).result = .error e ∧ (collect t p).units = us := by
  have hfail : (visit t f).result = .error e := by
    rw [h.visit_eq]
    rfl
  rw [collect_eq_forM hroot, h.leaves_eq, forM_cut h.result_eq hfail, h.visit_eq]
  refine ⟨rfl, ?_⟩
  rw [← h.units_eq]
  exact congrArg (List.filterMap _) (List.append_nil _)

theorem Stop.collect_eq_of_alike (hroot : t.root.wellNamed = true) {before : List Path}
    {us : List SourceUnit} {f : Path} {why : Fault} {visited rest : List Path} {e : Fault}
    (h : Stop t p before us f why visited rest e) {t' : FileTree}
    (hroot' : t'.root.wellNamed = true) (halike : Alike t t')
    (hread : ∀ q ∈ before ++ [f], t'.read q = t.read q) : collect t' p = collect t p := by
  have hfails : (visit t f).fails = true := by
    rw [h.visit_eq]
    rfl
  rw [collect_eq_forM hroot, collect_eq_forM hroot', leaves_eq_of_alike hroot hroot' halike,
    h.leaves_eq]
  refine forM_cut_congr h.result_eq hfails ?_ rest
  intro q hq
  apply visit_eq_of_alike halike
  -- Directories that are skipped on the way look the same, whatever files hold.
  by_cases hfile : isFile t q = true
  · refine .inr (hread q ?_)
    rcases List.mem_append.mp hq with hq | hq
    · exact List.mem_append_left _ (h.files_eq ▸ List.mem_filter.mpr ⟨hq, hfile⟩)
    · exact List.mem_append_right _ hq
  · rw [isFile_iff, not_not] at hfile
    exact .inl hfile

theorem collect_read (hroot : t.root.wellNamed = true) {us : List SourceUnit}
    (hus : (files t p).map (unitAt t) = us.map .ok) :
    (collect t p).result = .ok () ∧ (collect t p).units = us := by
  rw [collect_eq_forM hroot]
  exact forM_visit_ok (fun q hq => (mem_leavesWithin hq).2) hus

theorem units_parse_of_grammar {parent : Option Path} {words : Words} {e : Fault}
    (h : (parse t fetch parent words).result = .error e) (hkind : e.kind = .grammar) :
    (parse t fetch parent words).units = [] := by
  unfold parse parseIn at h ⊢
  split
  · rfl
  · rename_i hwords
    rw [hwords] at h
    have hgrammar := grammatical_resolve t fetch parent _ e h
    rw [hkind] at hgrammar
    cases hgrammar
  · rfl

namespace Context

variable {c : Context} {words : Words} {keyword source : String} {file : Path}

theorem parse_local (hwords : words.toList = [keyword, source]) (hfile : c.parent = some file) :
    c.parse t fetch words = (c.add (resolve t fetch (some file) source).units,
      (resolve t fetch (some file) source).result) := by
  rw [parse, parse_pair _ hwords, hfile]

theorem parse_found (hwords : words.toList = [keyword, source]) (hfile : c.parent = some file)
    (hlocal : isRemote source = false) (hc : t.contains (target file source) = .ok true) :
    c.parse t fetch words = (c.add (collect t (target file source)).units,
      (collect t (target file source)).result) := by
  rw [parse_local hwords hfile, resolve_found hlocal hc, units_announce]

theorem parse_absent (hwords : words.toList = [keyword, source]) (hfile : c.parent = some file)
    (hlocal : isRemote source = false) (hc : t.contains (target file source) ≠ .ok true) :
    (c.parse t fetch words).1 = c ∧ ∃ e, (c.parse t fetch words).2 = .error e := by
  rw [parse_local hwords hfile]
  obtain ⟨e, he⟩ := resolve_unfound fetch hlocal hc
  rw [he]
  exact ⟨add_nil c, e, rfl⟩

/-- How a directive ends whose target leads to a file `f` that cannot be read, after the files
`before`, whose units are `us`. -/
structure CutOff (c : Context) (t : FileTree) (fetch : Remote.Fetcher) (words : Words)
    (before : List Path) (us : List SourceUnit) (f : Path) (why : Fault) : Prop where
  registered : (c.parse t fetch words).1 = c.add us
  fault : ∃ e, (c.parse t fetch words).2 = .error e ∧ (Overlong t f → e = why) ∧
    (¬Overlong t f → e.kind = .resolution ∧ e.message = why.message ∧ e.cause = some why.kind ∧
      e.context = Fault.resolutionContext [] f.text (some why.kind))
  /-- The files after `f` are not read: they may hold anything. -/
  unread : ∀ t', t'.root.wellNamed = true → Alike t t' →
    (∀ q ∈ before ++ [f], t'.read q = t.read q) → c.parse t' fetch words = c.parse t fetch words

theorem cutOff_of_firstUnread (hroot : t.root.wellNamed = true)
    (hwords : words.toList = [keyword, source]) (hfile : c.parent = some file)
    (hlocal : isRemote source = false) (hc : t.contains (target file source) = .ok true)
    {before : List Path} {us : List SourceUnit} {f : Path} {why : Fault}
    (h : FirstUnread t (files t (target file source)) before us f why) :
    CutOff c t fetch words before us f why := by
  obtain ⟨visited, rest, e, hstop⟩ := exists_stop hroot (hasNul_of_contains hc) h
  obtain ⟨hresult, hunits⟩ := hstop.collect_eq hroot
  have hparse : c.parse t fetch words = _ := parse_found hwords hfile hlocal hc
  rw [hresult, hunits] at hparse
  refine ⟨by rw [hparse], ⟨e, by rw [hparse], hstop.long, ?_⟩, ?_⟩
  · intro hshort
    rw [hstop.short hshort]
    exact ⟨rfl, rfl, rfl, rfl⟩
  · intro t' hroot' halike hread
    have hc' : t'.contains (target file source) = .ok true := (halike.contains_eq _).trans hc
    have hsame := hstop.collect_eq_of_alike hroot hroot' halike hread
    rw [parse_found hwords hfile hlocal hc, parse_found hwords hfile hlocal hc', hsame]

/-- What a directive leaves behind: nothing if it does not match the grammar or its target is not
there, and otherwise the units of the files of the walk, all of them or those before the first that
cannot be read. -/
theorem parse_registers (hroot : t.root.wellNamed = true) (fetch : Remote.Fetcher) (c : Context)
    (words : Words) :
    (∀ e, (c.parse t fetch words).2 = .error e → e.kind = .grammar →
      (c.parse t fetch words).1 = c) ∧
    ∀ keyword source file, words.toList = [keyword, source] → isRemote source = false →
      c.parent = some file →
      (t.contains (target file source) ≠ .ok true →
        (c.parse t fetch words).1 = c ∧ ∃ e, (c.parse t fetch words).2 = .error e) ∧
      (t.contains (target file source) = .ok true →
        (∀ us, (files t (target file source)).map (unitAt t) = us.map .ok →
          c.parse t fetch words = (c.add us, .ok ())) ∧
        (∀ before us f why, FirstUnread t (files t (target file source)) before us f why →
          CutOff c t fetch words before us f why) ∧
        ((∃ us : List SourceUnit, (files t (target file source)).map (unitAt t) = us.map .ok) ∨
          ∃ before us f why, FirstUnread t (files t (target file source)) before us f why)) := by
  constructor
  · intro e h hkind
    show c.add _ = c
    rw [units_parse_of_grammar h hkind]
    exact add_nil c
  · intro keyword source file hwords hlocal hfile
    refine ⟨parse_absent hwords hfile hlocal, fun hc => ⟨?_, ?_, read_or_firstUnread t _⟩⟩
    · intro us hus
      obtain ⟨hresult, hunits⟩ := collect_read hroot hus
      rw [parse_found hwords hfile hlocal hc, hresult, hunits]
    · intro before us f why h
      exact cutOff_of_firstUnread hroot hwords hfile hlocal hc h

end Context

/-- A directory whose second file is a link that leads nowhere. -/
def faulty : FileTree where
  root := .directory [("d", .directory [("a", .file [107, 10]), ("b", .link "gone"),
    ("c", .file [107, 10])])]
  current := []
  unlistable := []
  unreadable := []

theorem find_faulty_d : faulty.find ⟨.root, ["d"]⟩ = .ok ["d"] :=
  find_of_walkFor 1 (by decide) (by decide) rfl

theorem find_faulty_file {name : String} (h : name = "a" ∨ name = "c") :
    faulty.find ⟨.root, ["d", name]⟩ = .ok ["d", name] := by
  rcases h with rfl | rfl
  all_goals exact find_of_walkFor 2 (by decide) (by decide) rfl

theorem find_faulty_b :
    faulty.find ⟨.root, ["d", "b"]⟩ = .error (.refused .absent "/d/b") :=
  find_of_walkFor_error 3 (by decide) (by decide) rfl

theorem files_faulty : files faulty ⟨.root, ["d"]⟩ =
    [⟨.root, ["d", "a"]⟩, ⟨.root, ["d", "b"]⟩, ⟨.root, ["d", "c"]⟩] := by
  have hlists : Lists faulty ⟨.root, ["d"]⟩ ["a", "b", "c"] :=
    lists_iff.mpr ⟨_, _, find_faulty_d, rfl, rfl, rfl⟩
  have ha : faulty.isDirectory ⟨.root, ["d", "a"]⟩ = .ok false :=
    leadsTo_eq (find_faulty_file (.inl rfl)) rfl _
  have hb : faulty.isDirectory ⟨.root, ["d", "b"]⟩ = .ok false := leadsTo_lost find_faulty_b _
  have hc : faulty.isDirectory ⟨.root, ["d", "c"]⟩ = .ok false :=
    leadsTo_eq (find_faulty_file (.inr rfl)) rfl _
  have hfile {p : Path} (h : faulty.isDirectory p = .ok false) : files faulty p = [p] :=
    files_file (by rw [h]; decide)
  have horder : inOrder ["a", "b", "c"] = ["a", "b", "c"] := inOrder_eq (.refl _) (by decide)
  rw [files_lists (by decide +kernel) hlists, horder]
  exact congrArg₂ (· ++ ·) (hfile ha) (congrArg₂ (· ++ ·) (hfile hb) (congrArg₂ (· ++ ·) (hfile hc) rfl))

theorem unitAt_faulty_a :
    unitAt faulty ⟨.root, ["d", "a"]⟩ = .ok ⟨some ⟨.root, ["d", "a"]⟩, ["k"]⟩ := by
  have hread := read_eq (find_faulty_file (.inl rfl)) rfl rfl rfl
  rw [unitAt, readLines, hread]
  rfl

/-- The file before the broken link is registered after what was there, and the one behind it is
not. -/
theorem parse_registers_faulty :
    ((Context.mk (some ⟨.root, ["m"]⟩) [⟨none, ["x"]⟩]).parse faulty (Remote.direct [])
      ⟨["!include", "d"]⟩).1.units = [⟨none, ["x"]⟩, ⟨some ⟨.root, ["d", "a"]⟩, ["k"]⟩] ∧
    ∃ e, ((Context.mk (some ⟨.root, ["m"]⟩) [⟨none, ["x"]⟩]).parse faulty (Remote.direct [])
      ⟨["!include", "d"]⟩).2 = .error e ∧ e.kind = .resolution ∧
        e.message = (Fault.refused .absent "/d/b").message := by
  have htarget : target ⟨.root, ["m"]⟩ "d" = ⟨.root, ["d"]⟩ := by decide
  have hpresent : faulty.contains (target ⟨.root, ["m"]⟩ "d") = .ok true :=
    htarget ▸ leadsTo_eq find_faulty_d rfl _
  have hregisters := ((Context.parse_registers (t := faulty) (by decide +kernel) (Remote.direct [])
    ⟨some ⟨.root, ["m"]⟩, [⟨none, ["x"]⟩]⟩ ⟨["!include", "d"]⟩).2 _ _ _ rfl (by decide) rfl).2
    hpresent
  have hfirst : FirstUnread faulty (files faulty (target ⟨.root, ["m"]⟩ "d")) [⟨.root, ["d", "a"]⟩]
      [⟨some ⟨.root, ["d", "a"]⟩, ["k"]⟩] ⟨.root, ["d", "b"]⟩ (.refused .absent "/d/b") := by
    rw [htarget, files_faulty]
    refine ⟨⟨_, rfl⟩, ?_, read_lost find_faulty_b⟩
    rw [List.map_singleton, unitAt_faulty_a, List.map_singleton]
  have hcut := hregisters.2.1 _ _ _ _ hfirst
  have hshort : ¬Overlong faulty ⟨.root, ["d", "b"]⟩ := by
    intro hlong
    rw [Overlong, find_faulty_b] at hlong
    cases hlong
  obtain ⟨e, he, _, hexplained⟩ := hcut.fault
  obtain ⟨hkind, hmessage, _⟩ := hexplained hshort
  rw [hcut.registered]
  exact ⟨rfl, e, he, hkind, hmessage⟩

theorem contains_looped (target : String) :
    (looped target).contains ⟨.root, ["d"]⟩ = .ok true := by
  obtain ⟨l, es, hl, hes, _⟩ := lists_iff.mp (lists_looped target)
  exact contains_true_iff.mpr ⟨l, _, hl, hes⟩

theorem collect_replicate {n : Nat} (h : longestName < n + 1) :
    (collect (looped (String.ofList (List.replicate (n + 1) 'x'))) ⟨.root, ["d"]⟩).result =
      .error (.refused .nameTooLong "/d/a") := by
  have hrel : fromRoot (String.ofList (List.replicate (n + 1) 'x')) = false := by
    rw [fromRoot, String.toList_ofList]
    rfl
  exact collect_long ((size_replicate (n + 1)).symm ▸ h) (targetNames_replicate n) hrel

/-- A failure that is not explained, although the target is there: the link to a name that is too
long is the first file that cannot be read. -/
theorem Context.parse_unexplained :
    isRemote "d" = false ∧
    (looped (String.ofList (List.replicate 256 'x'))).contains (target ⟨.root, ["m"]⟩ "d") =
      .ok true ∧
    ((Context.ofParent (some ⟨.root, ["m"]⟩)).parse (looped (String.ofList (List.replicate 256 'x')))
      (Remote.direct []) ⟨["!include", "d"]⟩).2 = .error (.refused .nameTooLong "/d/a") ∧
    (Fault.refused .nameTooLong "/d/a").kind ≠ .resolution := by
  have htarget : target ⟨.root, ["m"]⟩ "d" = ⟨.root, ["d"]⟩ := by decide
  have hlocal : isRemote "d" = false := by decide
  have hpresent := htarget ▸ contains_looped (String.ofList (List.replicate 256 'x'))
  refine ⟨hlocal, hpresent, ?_, by decide⟩
  rw [Context.parse_found rfl rfl hlocal hpresent, htarget]
  exact collect_replicate (by decide)

end Splice.Include
