import Splice.Proofs.Schema.Closed
import Splice.Proofs.Value.Layers

namespace Splice

theorem Value.at?_cons_iff {v : Value} {k : Key} {keys : List Key} {u : Value} :
    v.at? (k :: keys) = some u ↔ ∃ x, v.at? [k] = some x ∧ x.at? keys = some u := by
  cases v with
  | map m => simp [Option.bind_eq_some_iff]
  | _ => simp [at?]

namespace Schema

open Value

variable {path : List String} {v : Value} {w : Violation}

mutual
/-- A schema and the schemas of its properties, at the names that lead to them. -/
def nodes : Schema → List (List String × Schema)
  | .mk types properties isOpen above =>
    ([], .mk types properties isOpen above) :: nodesOf properties

def nodesOf : List (String × Schema) → List (List String × Schema)
  | [] => []
  | (name, s) :: rest => s.nodes.map (fun n => (name :: n.1, n.2)) ++ nodesOf rest
end

/-- What a value violates itself, whatever its entries are. -/
def own (path : List String) (v : Value) : Schema → List Violation
  | .mk types properties isOpen above =>
    typeViolations types path v ++
      (if isOpen then [] else strangerViolations (properties.map (·.1)) path v) ++
      boundViolations above path v

theorem path_of_mem_own {s : Schema} (h : w ∈ own path v s) : w.path = path := by
  obtain ⟨types, properties, isOpen, above⟩ := s
  rw [own, List.mem_append, List.mem_append] at h
  rcases h with (h | h) | h
  · rw [typeViolations] at h
    split at h
    · cases h
    · rw [List.mem_singleton.mp h]
  · split at h
    · cases h
    · unfold strangerViolations at h
      split at h
      · split at h
        · cases h
        · rw [List.mem_singleton.mp h]
      · cases h
  · unfold boundViolations at h
    split at h
    · cases h
    · split at h
      · rw [List.mem_singleton.mp h]
      · cases h

theorem mem_propertyViolations_cons {name : String} {s : Schema}
    {rest : List (String × Schema)} : w ∈ propertyViolations path v ((name, s) :: rest) ↔
      (∃ u, v.at? [.text name] = some u ∧ w ∈ s.violations (path ++ [name]) u) ∨
        w ∈ propertyViolations path v rest := by
  cases v with
  | map m =>
      rw [propertyViolations, List.mem_append, at?_map_cons]
      refine or_congr_left ?_
      cases Entries.get? m (.text name) <;> simp
  | _ => simp [propertyViolations, at?]

mutual
/-- Every violation is one that a value in some place commits itself. -/
theorem mem_violations_iff (s : Schema) (path : List String) (v : Value) :
    w ∈ s.violations path v ↔ ∃ names n, (names, n) ∈ s.nodes ∧
      ∃ u, v.at? (names.map .text) = some u ∧ w ∈ own (path ++ names) u n := by
  match s with
  | .mk types properties isOpen above =>
      have hown : w ∈ (mk types properties isOpen above).violations path v ↔
          w ∈ own path v (mk types properties isOpen above) ∨
            w ∈ propertyViolations path v properties := by
        rw [violations, own]
        simp only [List.mem_append]
        grind
      -- A place is the root itself, or its path begins with the name of a property.
      rw [hown, mem_propertyViolations_iff properties path v, nodes]
      constructor
      · rintro (h | ⟨names, n, hn, h⟩)
        · exact ⟨[], _, List.mem_cons_self, v, at?_nil v, by rwa [List.append_nil]⟩
        · exact ⟨names, n, List.mem_cons_of_mem _ hn, h⟩
      · rintro ⟨names, n, hn, u, hu, h⟩
        rcases List.mem_cons.mp hn with heq | hn
        · cases heq
          rw [List.map_nil, at?_nil] at hu
          cases hu
          rw [List.append_nil] at h
          exact .inl h
        · exact .inr ⟨names, n, hn, u, hu, h⟩

theorem mem_propertyViolations_iff (properties : List (String × Schema)) (path : List String)
    (v : Value) : w ∈ propertyViolations path v properties ↔
      ∃ names n, (names, n) ∈ nodesOf properties ∧
        ∃ u, v.at? (names.map .text) = some u ∧ w ∈ own (path ++ names) u n := by
  match properties with
  | [] => simp [propertyViolations, nodesOf]
  | (name, s) :: rest =>
      rw [mem_propertyViolations_cons, mem_propertyViolations_iff rest path v, nodesOf]
      simp only [List.mem_append, List.mem_map, Prod.exists, Prod.mk.injEq]
      constructor
      · rintro (⟨u, hu, h⟩ | ⟨names, n, hn, h⟩)
        · obtain ⟨names, n, hn, x, hx, h⟩ := (mem_violations_iff s _ u).mp h
          refine ⟨name :: names, n, .inl ⟨names, n, hn, rfl, rfl⟩, x, ?_, ?_⟩
          · exact at?_cons_iff.mpr ⟨u, hu, hx⟩
          · rwa [List.append_assoc] at h
        · exact ⟨names, n, .inr hn, h⟩
      · rintro ⟨names, n, ⟨names', n', hn, rfl, rfl⟩ | hn, x, hx, h⟩
        · obtain ⟨u, hu, hx⟩ := at?_cons_iff.mp hx
          refine .inl ⟨u, hu, (mem_violations_iff s _ u).mpr ⟨names', n', hn, x, hx, ?_⟩⟩
          rwa [List.append_assoc]
        · exact .inr ⟨names, n, hn, x, hx, h⟩
end

/-! ### The violation that is reported -/

theorem length_le_of_outweighs {a b : Violation} (h : outweighs a b = true) :
    b.path.length ≤ a.path.length := by
  simp only [outweighs, Bool.or_eq_true, Bool.and_eq_true, decide_eq_true_eq] at h
  omega

theorem length_le_of_not_outweighs {a b : Violation} (h : outweighs a b = false) :
    a.path.length ≤ b.path.length := by
  simp only [outweighs, Bool.or_eq_false_iff, decide_eq_false_iff_not] at h
  omega

theorem foldl_outweighs (vs : List Violation) (a : Violation) :
    vs.foldl (fun a b => if outweighs a b then b else a) a ∈ a :: vs ∧
      ∀ b ∈ a :: vs, (vs.foldl (fun a b => if outweighs a b then b else a) a).path.length ≤
        b.path.length := by
  induction vs generalizing a with
  | nil =>
      refine ⟨List.mem_cons_self, fun b hb => ?_⟩
      rw [List.mem_singleton.mp hb]
      exact Nat.le_refl _
  | cons b vs ih =>
      rw [List.foldl_cons]
      cases h : outweighs a b with
      | true =>
          obtain ⟨hmem, hle⟩ := ih b
          refine ⟨List.mem_cons_of_mem _ hmem, List.forall_mem_cons.mpr ⟨?_, hle⟩⟩
          exact Nat.le_trans (hle b List.mem_cons_self) (length_le_of_outweighs h)
      | false =>
          obtain ⟨hmem, hle⟩ := ih a
          obtain ⟨ha, hvs⟩ := List.forall_mem_cons.mp hle
          refine ⟨List.cons_subset_cons _ (List.subset_cons_self _ _) hmem, ?_⟩
          refine List.forall_mem_cons.mpr ⟨ha, List.forall_mem_cons.mpr ⟨?_, hvs⟩⟩
          exact Nat.le_trans ha (length_le_of_not_outweighs h)

theorem worst_eq_some {vs : List Violation} (h : worst vs = some w) :
    w ∈ vs ∧ ∀ x ∈ vs, w.path.length ≤ x.path.length := by
  cases vs with
  | nil => cases h
  | cons a vs =>
      cases h
      exact foldl_outweighs vs a

end Schema

end Splice
