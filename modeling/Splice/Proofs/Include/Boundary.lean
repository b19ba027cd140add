import Splice.Proofs.FileTree.PlainNames
import Splice.Proofs.Include.Visits

namespace Splice.Include

open FileTree Outcome Relation

variable {t : FileTree} {fetch : Remote.Fetcher} {p q : Path}

theorem plain_of_reached (hroot : t.root.wellNamed = true) (h : ReflTransGen (Child t) p q)
    (hp : ∀ name ∈ p.parts, isPlain name = true) : ∀ name ∈ q.parts, isPlain name = true := by
  induction h with
  | refl => exact hp
  | tail _ hchild ih =>
      obtain ⟨names, hnames, name, hname, rfl⟩ := hchild
      intro n hn
      rcases List.mem_append.mp hn with hn | hn
      · exact ih n hn
      · obtain rfl := List.mem_singleton.mp hn
        exact isPlain_of_isName (hnames.isName hroot hname)

theorem hasNul_of_contains (h : t.contains p = .ok true) : hasNul p = false := by
  obtain ⟨l, n, hl, _⟩ := contains_true_iff.mp h
  obtain ⟨_, hleads⟩ := find_ok_iff.mp hl
  exact hleads.1

theorem leaves_eq_singleton (h : t.isDirectory p ≠ .ok true) : leaves t p = [p] :=
  leaves_leaf fun _ hlists => h hlists.1

theorem not_isDirectory_of_contains (h : t.contains p ≠ .ok true) :
    t.isDirectory p ≠ .ok true := by
  intro hd
  obtain ⟨l, es, hl, hes⟩ := isDirectory_true_iff.mp hd
  exact h (contains_true_iff.mpr ⟨l, _, hl, hes⟩)

theorem Overlong.visit_eq (h : Overlong t q) :
    visit t q = .fail (.refused .nameTooLong q.text) := by
  rw [visit, collectWithin_fault h.isDirectory_eq]

theorem Overlong.fails (h : Overlong t q) : (visit t q).fails = true := by
  rw [h.visit_eq]
  rfl

theorem Overlong.first (h : Overlong t p) :
    (leaves t p).find? (fun q => (visit t q).fails) = some p := by
  have hd : t.isDirectory p ≠ .ok true := by
    rw [h.isDirectory_eq]
    rintro ⟨⟩
  rw [leaves_eq_singleton hd, List.find?_cons, h.fails]

theorem collect_error_iff (hroot : t.root.wellNamed = true) {e : Fault} :
    (collect t p).result = .error e ↔
      ∃ q, (leaves t p).find? (fun q => (visit t q).fails) = some q ∧
        (visit t q).result = .error e := by
  rw [collect_eq_forM hroot]
  exact forM_error_iff

/-- A failure that the resolution of a target with the path `p` lets through as it is. -/
inductive Escapes (t : FileTree) (p : Path) : Fault → Prop
  | nul (absent : t.contains p = .ok false) (canonical : t.canonical p = .error .embeddedNul) :
      Escapes t p .embeddedNul
  | overlong (q : Path) (first : (leaves t p).find? (fun q => (visit t q).fails) = some q)
      (long : Overlong t q) : Escapes t p (.refused .nameTooLong q.text)

theorem Escapes.kind_ne {e : Fault} (h : Escapes t p e) : e.kind ≠ .resolution := by
  cases h with
  | nul => decide
  | overlong =>
      show Kind.ofCode 36 ≠ .resolution
      decide

theorem escapes_of_collect (hroot : t.root.wellNamed = true) (hnul : hasNul p = false) {e : Fault}
    (h : (collect t p).result = .error e) (hkind : e.kind ≠ .resolution) : Escapes t p e := by
  obtain ⟨q, hfirst, hvisit⟩ := (collect_error_iff hroot).mp h
  obtain ⟨hpq, hleaf⟩ := mem_leavesWithin (List.mem_of_find?_eq_some hfirst)
  have hq : hasNul q = false := (hasNul_of_reached hroot hpq).trans hnul
  have hlong : Overlong t q := by
    by_contra hshort
    exact hkind ((visit_error_kind hleaf hq hvisit).mpr hshort)
  rw [hlong.visit_eq] at hvisit
  cases hvisit
  exact .overlong q hfirst hlong

theorem escapes_of_resolve (hroot : t.root.wellNamed = true) {source : String}
    (hlocal : isRemote source = false) {file : Path} {e : Fault}
    (h : (resolve t fetch (some file) source).result = .error e) (hkind : e.kind ≠ .resolution) :
    Escapes t (target file source) e := by
  cases resolve_error_iff.mp h with
  | unfetched remote => rw [hlocal] at remote; cases remote
  | refused here contains =>
      obtain ⟨rfl, hlong⟩ := leadsTo_error contains
      exact .overlong _ (Overlong.first hlong) hlong
  | unwalked here contains walk =>
      exact escapes_of_collect hroot (hasNul_of_contains contains) walk hkind
  | misplaced here contains canonical =>
      obtain rfl := canonical_error canonical
      exact .nul contains canonical
  | absent => exact absurd rfl hkind

theorem Escapes.resolve_eq (hroot : t.root.wellNamed = true) {source : String}
    (hlocal : isRemote source = false) {file : Path} {e : Fault}
    (h : Escapes t (target file source) e) :
    (resolve t fetch (some file) source).result = .error e := by
  apply resolve_error_iff.mpr
  cases h with
  | nul absent canonical => exact .misplaced hlocal absent canonical
  | overlong q first long =>
      by_cases hc : t.contains (target file source) = .ok true
      · exact .unwalked hlocal hc ((collect_error_iff hroot).mpr ⟨q, first, by rw [long.visit_eq]; rfl⟩)
      · -- A target that is not there is a walk of its own, and so the one that is too long.
        have hmem := List.mem_of_find?_eq_some first
        rw [leaves_eq_singleton (not_isDirectory_of_contains hc)] at hmem
        obtain rfl := List.mem_singleton.mp hmem
        exact .refused hlocal (leadsTo_lost long _)

theorem not_escapes_of_plain (hroot : t.root.wellNamed = true) (hlinks : PlainLinks t)
    (hshort : ∀ q, ReflTransGen (Child t) p q → tooLong q = false)
    (hp : ∀ name ∈ p.parts, isPlain name = true) (e : Fault) : ¬Escapes t p e := by
  intro h
  cases h with
  | nul _ canonical =>
      obtain ⟨l, hl⟩ := hlinks.canonical_ok hp
      rw [hl] at canonical
      cases canonical
  | overlong q first long =>
      obtain ⟨hpq, _⟩ := mem_leavesWithin (List.mem_of_find?_eq_some first)
      exact hlinks.find_ne_tooLong (hshort q hpq) (plain_of_reached hroot hpq hp) _ long

/-- A local target resolves, or fails with an explained failure, unless a name or a path on the way is
none that the system takes; and that is what the failure then tells of. -/
theorem resolve_escapes (hroot : t.root.wellNamed = true) {source : String}
    (hlocal : isRemote source = false) (file : Path) (fetch : Remote.Fetcher) :
    (∀ e, (resolve t fetch (some file) source).result = .error e ∧ e.kind ≠ .resolution ↔
      Escapes t (target file source) e) ∧
    (PlainLinks t → (∀ name ∈ (target file source).parts, isPlain name = true) →
      (∀ q, ReflTransGen (Child t) (target file source) q → tooLong q = false) →
      (resolve t fetch (some file) source).result = .ok () ∨
        ∃ e, (resolve t fetch (some file) source).result = .error e ∧ e.kind = .resolution) := by
  constructor
  · intro e
    constructor
    · rintro ⟨h, hkind⟩
      exact escapes_of_resolve hroot hlocal h hkind
    · intro h
      exact ⟨h.resolve_eq hroot hlocal, h.kind_ne⟩
  · intro hlinks hnames hshort
    cases h : (resolve t fetch (some file) source).result with
    | ok => exact .inl rfl
    | error e =>
        refine .inr ⟨e, rfl, ?_⟩
        by_contra hkind
        exact not_escapes_of_plain hroot hlinks hshort hnames e
          (escapes_of_resolve hroot hlocal h hkind)

/-- A link that leads nowhere. -/
def dangling : FileTree where
  root := .directory [("n", .link "gone")]
  current := []
  unlistable := []
  unreadable := []

theorem plainLinks_dangling : PlainLinks dangling := by
  intro l target h name hname
  obtain rfl : target = "gone" := by
    cases l with
    | nil => cases h
    | cons first rest =>
        obtain ⟨n, hn, h⟩ := Option.bind_eq_some_iff.mp h
        rw [List.lookup_cons] at hn
        split at hn
        · cases hn
          cases rest with
          | nil => cases h; rfl
          | cons => cases h
        · cases hn
  obtain rfl : name = "gone" := List.mem_singleton.mp hname
  decide

theorem reached_dangling (h : ReflTransGen (Child dangling) ⟨.root, ["n"]⟩ q) :
    q = ⟨.root, ["n"]⟩ := by
  have hfind : dangling.find ⟨.root, ["n"]⟩ = .error (.refused .absent "/n") :=
    find_of_walkFor_error 2 (by decide) (by decide) rfl
  refine eq_of_reached_leaf (fun names hlists => ?_) h
  obtain ⟨l, _, hl, _⟩ := isDirectory_true_iff.mp hlists.1
  cases hfind.symm.trans hl

theorem resolve_escapes_dangling : dangling.root.wellNamed = true ∧ isRemote "n" = false ∧
    PlainLinks dangling ∧
    ((resolve dangling (Remote.direct []) (some ⟨.root, ["m"]⟩) "n").result = .ok () ∨
      ∃ e, (resolve dangling (Remote.direct []) (some ⟨.root, ["m"]⟩) "n").result = .error e ∧
        e.kind = .resolution) := by
  have hroot : dangling.root.wellNamed = true := by decide +kernel
  have hlocal : isRemote "n" = false := by decide
  have htarget : target ⟨.root, ["m"]⟩ "n" = ⟨.root, ["n"]⟩ := by decide
  have hnames : ∀ name ∈ (target ⟨.root, ["m"]⟩ "n").parts, isPlain name = true := by decide
  have hshort (q : Path) (hq : ReflTransGen (Child dangling) (target ⟨.root, ["m"]⟩ "n") q) :
      tooLong q = false := by
    rw [htarget] at hq
    rw [reached_dangling hq]
    decide
  have hplain := (resolve_escapes hroot hlocal ⟨.root, ["m"]⟩ (Remote.direct [])).2
    plainLinks_dangling hnames hshort
  exact ⟨hroot, hlocal, plainLinks_dangling, hplain⟩

theorem target_replicate (n : Nat) :
    target ⟨.root, ["m"]⟩ (String.ofList (List.replicate (n + 1) 'x')) =
      ⟨.root, [String.ofList (List.replicate (n + 1) 'x')]⟩ := by
  have hparts : Path.partsOf (List.replicate (n + 1) 'x') =
      [String.ofList (List.replicate (n + 1) 'x')] := by
    rw [Path.partsOf, cut_replicate]
    rfl
  unfold target Path.ofText Path.nest Path.parent
  rw [String.toList_ofList, hparts]
  rfl

theorem overlong_replicate {n : Nat} (h : longestName < n + 1) : Overlong (looped ".")
    ⟨.root, [String.ofList (List.replicate (n + 1) 'x')]⟩ := by
  have hlong : longestName < (String.ofList (List.replicate (n + 1) 'x')).utf8ByteSize := by
    rw [size_replicate]
    exact h
  have hnul : hasNul ⟨.root, [String.ofList (List.replicate (n + 1) 'x')]⟩ = false := by
    simp only [hasNul, List.any_cons, List.any_nil, Bool.or_false, String.toList_ofList]
    simp
  cases hpath : tooLong ⟨.root, [String.ofList (List.replicate (n + 1) 'x')]⟩ with
  | true => exact find_tooLong hnul hpath
  | false =>
      rw [Overlong, find_eq hnul hpath, walk_eq]
      show ((walkLeft _ 40 [] [_]).map Prod.fst).mapError _ = _
      rw [walkLeft_cons_error (step_tooLong rfl hlong 40)]
      rfl

theorem resolve_replicate {n : Nat} (h : longestName < n + 1) :
    isRemote (String.ofList (List.replicate (n + 1) 'x')) = false ∧
    (resolve (looped ".") fetch (some ⟨.root, ["m"]⟩)
      (String.ofList (List.replicate (n + 1) 'x'))).result = .error (.refused .nameTooLong
        (Path.mk .root [String.ofList (List.replicate (n + 1) 'x')]).text) := by
  have hlocal : isRemote (String.ofList (List.replicate (n + 1) 'x')) = false := by
    have hlist : (String.ofList (List.replicate (n + 1) 'x')).toList = 'x' :: List.replicate n 'x' :=
      String.toList_ofList
    rw [isRemote, hlist]
    rfl
  have hlong := Escapes.overlong _ (overlong_replicate h).first (overlong_replicate h)
  rw [← target_replicate n] at hlong
  rw [← target_replicate n]
  exact ⟨hlocal, hlong.resolve_eq (wellNamed_looped ".") hlocal⟩

/-- Targets with a name that the system does not take: one too long, and one with a null character. -/
theorem resolve_unexplained :
    isRemote (String.ofList (List.replicate 256 'x')) = false ∧ isRemote "\x00" = false ∧
    (resolve (looped ".") (Remote.direct []) (some ⟨.root, ["m"]⟩)
      (String.ofList (List.replicate 256 'x'))).result = .error (.refused .nameTooLong
        (Path.mk .root [String.ofList (List.replicate 256 'x')]).text) ∧
    (resolve (looped ".") (Remote.direct []) (some ⟨.root, ["m"]⟩) "\x00").result =
      .error .embeddedNul ∧
    Kind.ofCode Refusal.nameTooLong.code ≠ .resolution ∧
    Fault.embeddedNul.kind ≠ .resolution := by
  have hnul : Escapes (looped ".") (target ⟨.root, ["m"]⟩ "\x00") .embeddedNul :=
    .nul (by decide) (by decide)
  obtain ⟨hlocal, hlong⟩ := @resolve_replicate (Remote.direct []) 255 (by decide)
  refine ⟨hlocal, by decide, hlong, ?_, by decide, hnul.kind_ne⟩
  exact hnul.resolve_eq (wellNamed_looped ".") (by decide)

end Splice.Include
