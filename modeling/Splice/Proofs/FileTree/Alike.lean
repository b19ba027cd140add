import Splice.Proofs.FileTree.Places

namespace Splice.FileTree

variable {t t' : FileTree} {p : Path} {l : Location}

/-- What shows of two nodes without reading files is the same: what kind they are, where links lead,
and the names in directories, in whatever order. -/
inductive Resembles : Node → Node → Prop
  | file (bs bs' : List UInt8) : Resembles (.file bs) (.file bs')
  | link (target : String) : Resembles (.link target) (.link target)
  | directory {es es' : List (String × Node)} (names : (es'.map Prod.fst).Perm (es.map Prod.fst)) :
      Resembles (.directory es) (.directory es')

/-- Two trees that may differ in what files hold and in which of them may be read, and in the order of
the entries of directories. -/
structure Alike (t t' : FileTree) : Prop where
  current_eq : t'.current = t.current
  unlistable_eq : t'.unlistable = t.unlistable
  nodes : ∀ l, Option.Rel Resembles (t.node? l) (t'.node? l)

theorem Alike.start_eq (h : Alike t t') (p : Path) : t'.start p = t.start p := by
  rw [start, start, h.current_eq]

theorem Alike.lookup (h : Alike t t') {es es' : List (String × Node)}
    (hes : t.node? l = some (.directory es)) (hes' : t'.node? l = some (.directory es'))
    (name : String) : Option.Rel Resembles (es.lookup name) (es'.lookup name) := by
  rw [← Node.at?_child hes name, ← Node.at?_child hes' name]
  exact h.nodes (l ++ [name])

theorem stepIn_eq_of_rel {es es' : List (String × Node)} {name : String}
    (h : Option.Rel Resembles (es.lookup name) (es'.lookup name)) (links : Nat) (here : Location) :
    stepIn es' links here name = stepIn es links here name := by
  unfold stepIn
  generalize es.lookup name = n at h
  generalize es'.lookup name = n' at h
  cases h with
  | none => rfl
  | some hn => cases hn <;> rfl

theorem Alike.step_eq (h : Alike t t') (links : Nat) (here : Location) (name : String) :
    step t'.root links here name = step t.root links here name := by
  have hrel := h.nodes here
  have hlookup {es es' : List (String × Node)} (hes : t.node? here = some (.directory es))
      (hes' : t'.node? here = some (.directory es')) := h.lookup hes hes' name
  unfold node? at hrel hlookup
  unfold step
  generalize t.root.at? here = n at hrel hlookup
  generalize t'.root.at? here = n' at hrel hlookup
  cases hrel with
  | none => rfl
  | some hn =>
      cases hn with
      | file | link => rfl
      | directory => exact stepIn_eq_of_rel (hlookup rfl rfl) links here

theorem Alike.walkLeft_eq (h : Alike t t') (links : Nat) (here : Location) (names : List String) :
    walkLeft t'.root links here names = walkLeft t.root links here names := by
  fun_induction walkLeft t.root links here names with
  | case1 => rw [walkLeft_nil]
  | case2 links here name rest e he =>
      rw [walkLeft_cons_error ((h.step_eq links here name).trans he)]
  | case3 links here name rest s hs ih =>
      rw [walkLeft_cons_ok ((h.step_eq links here name).trans hs), ih]

theorem Alike.find_eq (h : Alike t t') (p : Path) : t'.find p = t.find p := by
  rw [find, find, walk_eq, walk_eq, h.start_eq, h.walkLeft_eq]

theorem Alike.leadsTo_eq (h : Alike t t') {test : Node → Bool}
    (htest : ∀ n n', Resembles n n' → test n' = test n) (p : Path) :
    t'.leadsTo test p = t.leadsTo test p := by
  have hnodes (l : Location) : (t'.node? l).any test = (t.node? l).any test := by
    have hrel := h.nodes l
    generalize t.node? l = n at hrel
    generalize t'.node? l = n' at hrel
    cases hrel with
    | none => rfl
    | some hn => exact htest _ _ hn
  unfold leadsTo
  simp only [h.find_eq, hnodes]

theorem Alike.contains_eq (h : Alike t t') (p : Path) : t'.contains p = t.contains p :=
  h.leadsTo_eq (fun _ _ _ => rfl) p

theorem Alike.isDirectory_eq (h : Alike t t') (p : Path) : t'.isDirectory p = t.isDirectory p := by
  refine h.leadsTo_eq ?_ p
  intro n n' hn
  cases hn <;> rfl

theorem Alike.list_rel (h : Alike t t') (hd : t.isDirectory p = .ok true) :
    (∃ e, t.list p = .error e ∧ t'.list p = .error e) ∨
      ∃ names names', t.list p = .ok names ∧ t'.list p = .ok names' ∧ names'.Perm names := by
  obtain ⟨l, es, hl, hes⟩ := isDirectory_true_iff.mp hd
  have hl' : t'.find p = .ok l := (h.find_eq p).trans hl
  have hrel := h.nodes l
  rw [hes] at hrel
  obtain ⟨es', hes', hnames⟩ : ∃ es', t'.node? l = some (.directory es') ∧
      (es'.map Prod.fst).Perm (es.map Prod.fst) := by
    generalize t'.node? l = n' at hrel
    cases hrel with
    | some hn => cases hn with
      | directory names => exact ⟨_, rfl, names⟩
  rw [list_eq hl hes, list_eq hl' hes', h.unlistable_eq]
  split
  · exact .inl ⟨_, rfl, rfl⟩
  · exact .inr ⟨_, _, rfl, rfl, hnames⟩

/-- Two trees that differ in the order of the entries of directories alone. -/
structure Shuffled (t t' : FileTree) : Prop extends Alike t t' where
  unreadable_eq : t'.unreadable = t.unreadable
  files : ∀ l bs, t.node? l = some (.file bs) → t'.node? l = some (.file bs)

theorem Shuffled.bytes_eq (h : Shuffled t t') (p : Path) : t'.bytes p = t.bytes p := by
  unfold bytes
  rw [h.find_eq]
  congr 1
  funext l
  have hrel := h.nodes l
  have hfiles := h.files l
  generalize t.node? l = n at hrel hfiles
  generalize t'.node? l = n' at hrel hfiles
  cases hrel with
  | none => rfl
  | some hn =>
      cases hn with
      | link | directory => rfl
      | file bs bs' =>
          cases hfiles bs rfl
          rfl

theorem Shuffled.read_eq (h : Shuffled t t') (p : Path) : t'.read p = t.read p := by
  unfold read contents
  rw [h.find_eq, h.bytes_eq, h.unreadable_eq]

end Splice.FileTree
