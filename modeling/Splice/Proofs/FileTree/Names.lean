import Splice.Include

namespace Splice.Node

/-- A name that an entry of a directory may have. -/
def isName (s : String) : Bool :=
  s ≠ "" && s ≠ "." && s ≠ ".." && !s.toList.contains '/' && !s.toList.contains '\x00' &&
    s.utf8ByteSize ≤ FileTree.longestName

mutual
/-- The entries of every directory have proper names, no two of them the same. -/
def wellNamed : Node → Bool
  | .file _ => true
  | .link _ => true
  | .directory es => wellNamedAll es

def wellNamedAll : List (String × Node) → Bool
  | [] => true
  | (name, n) :: es =>
    isName name && !(es.map Prod.fst).contains name && n.wellNamed && wellNamedAll es
end

theorem ne_dot_of_isName {s : String} (h : isName s = true) : s ≠ "." := by
  rintro rfl
  exact absurd h (by decide)

theorem ne_dots_of_isName {s : String} (h : isName s = true) : s ≠ ".." := by
  rintro rfl
  exact absurd h (by decide)

theorem no_nul_of_isName {s : String} (h : isName s = true) : s.toList.contains '\x00' = false := by
  simp only [isName, Bool.and_eq_true, Bool.not_eq_true'] at h
  exact h.1.2

theorem wellNamedAll_cons {name : String} {n : Node} {es : List (String × Node)}
    (h : wellNamedAll ((name, n) :: es) = true) :
    isName name = true ∧ name ∉ es.map Prod.fst ∧ n.wellNamed = true ∧ wellNamedAll es = true := by
  simp only [wellNamedAll, Bool.and_eq_true, Bool.not_eq_true'] at h
  obtain ⟨⟨⟨hname, hnew⟩, hn⟩, hes⟩ := h
  exact ⟨hname, by simpa using hnew, hn, hes⟩

theorem isName_of_mem {es : List (String × Node)} (h : wellNamedAll es = true) {name : String}
    (hname : name ∈ es.map Prod.fst) : isName name = true := by
  induction es with
  | nil => cases hname
  | cons e es ih =>
      obtain ⟨h1, _, _, hes⟩ := wellNamedAll_cons h
      rcases List.mem_cons.mp hname with rfl | hname
      · exact h1
      · exact ih hes hname

theorem mem_names_iff {es : List (String × Node)} {name : String} :
    name ∈ es.map Prod.fst ↔ ∃ n, es.lookup name = some n := by
  induction es with
  | nil => exact iff_of_false List.not_mem_nil (by rintro ⟨_, ⟨⟩⟩)
  | cons e es ih =>
      rw [List.map_cons, List.mem_cons, ih, List.lookup_cons]
      split
      · rename_i heq
        exact iff_of_true (.inl (beq_iff_eq.mp heq)) ⟨_, rfl⟩
      · rename_i hne
        exact or_iff_right (beq_eq_false_iff_ne.mp hne)

theorem nodup_of_wellNamedAll {es : List (String × Node)} (h : wellNamedAll es = true) :
    (es.map Prod.fst).Nodup := by
  induction es with
  | nil => exact .nil
  | cons e es ih =>
      obtain ⟨_, hnew, _, hes⟩ := wellNamedAll_cons h
      exact List.nodup_cons.mpr ⟨hnew, ih hes⟩

theorem wellNamed_of_lookup {es : List (String × Node)} (h : wellNamedAll es = true)
    {name : String} {n : Node} (hn : es.lookup name = some n) : n.wellNamed = true := by
  induction es with
  | nil => cases hn
  | cons e es ih =>
      obtain ⟨_, _, hfirst, hes⟩ := wellNamedAll_cons h
      rw [List.lookup_cons] at hn
      split at hn
      · cases hn; exact hfirst
      · exact ih hes hn

/-- What passes from directories to their entries passes down from a node. -/
theorem inherited_of_at? {P : Node → Prop}
    (hdown : ∀ es name n, P (.directory es) → es.lookup name = some n → P n) {n m : Node}
    {l : Location} (h : P n) (hm : n.at? l = some m) : P m := by
  induction l generalizing n with
  | nil =>
      cases hm
      exact h
  | cons name rest ih =>
      cases n with
      | file | link => cases hm
      | directory es =>
          obtain ⟨k, hk, hm⟩ := Option.bind_eq_some_iff.mp hm
          exact ih (hdown es name k h hk) hm

theorem wellNamed_of_at? {n m : Node} {l : Location} (h : n.wellNamed = true)
    (hm : n.at? l = some m) : m.wellNamed = true :=
  inherited_of_at? (P := fun n => n.wellNamed = true) (fun _ _ _ hes hn => wellNamed_of_lookup hes hn)
    h hm

theorem depth_le_of_lookup {es : List (String × Node)} {name : String} {n : Node}
    (hn : es.lookup name = some n) : n.depth ≤ depthOf es := by
  induction es with
  | nil => cases hn
  | cons e es ih =>
      rw [List.lookup_cons] at hn
      rw [depthOf]
      split at hn
      · cases hn; exact Nat.le_max_left _ _
      · exact Nat.le_trans (ih hn) (Nat.le_max_right _ _)

theorem length_lt_depth {n : Node} {l : Location} {es : List (String × Node)}
    (h : n.at? l = some (.directory es)) : l.length < n.depth := by
  induction l generalizing n with
  | nil => cases h; exact Nat.succ_pos _
  | cons name rest ih =>
      cases n with
      | file | link => cases h
      | directory es' =>
          obtain ⟨k, hk, h⟩ := Option.bind_eq_some_iff.mp h
          have hle := depth_le_of_lookup hk
          have hlt := ih h
          rw [depth, List.length_cons]
          omega

theorem at?_append_singleton (n : Node) (l : Location) (name : String) :
    n.at? (l ++ [name]) = (n.at? l).bind fun m => m.at? [name] := by
  induction l generalizing n with
  | nil => rfl
  | cons first rest ih =>
      cases n with
      | file | link => rfl
      | directory es =>
          rw [List.cons_append, at?, at?, Option.bind_assoc]
          congr 1
          funext m
          exact ih m

theorem at?_child {n : Node} {l : Location} {es : List (String × Node)}
    (h : n.at? l = some (.directory es)) (name : String) :
    n.at? (l ++ [name]) = es.lookup name := by
  rw [at?_append_singleton, h]
  exact Option.bind_fun_some (es.lookup name)

theorem links_eq_zero_of_lookup {es : List (String × Node)} (h : linksOf es = 0) {name : String}
    {n : Node} (hn : es.lookup name = some n) : n.links = 0 := by
  induction es with
  | nil => cases hn
  | cons e es ih =>
      rw [linksOf, Nat.add_eq_zero_iff] at h
      rw [List.lookup_cons] at hn
      split at hn
      · cases hn; exact h.1
      · exact ih h.2 hn

theorem links_eq_zero_of_at? {n m : Node} {l : Location} (h : n.links = 0)
    (hm : n.at? l = some m) : m.links = 0 :=
  inherited_of_at? (P := fun n => n.links = 0) (fun _ _ _ hes hn => links_eq_zero_of_lookup hes hn)
    h hm

end Splice.Node
