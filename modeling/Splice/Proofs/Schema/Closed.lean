import Splice.Proofs.Value.Entries
import Splice.Schema

namespace Splice.Schema

variable {types : List String} {properties : List (String × Schema)} {isOpen : Bool}
  {above : Option Value} {path : List String} {m : Mapping}

theorem worst_eq_none_iff {vs : List Violation} : worst vs = none ↔ vs = [] := by
  cases vs <;> simp [worst]

theorem check_ok_iff {name : String} {s : Schema} {v : Value} :
    check name s v = .ok () ↔ s.violations [] v = [] := by
  rw [← worst_eq_none_iff, check]
  cases worst (s.violations [] v) <;> simp

theorem violations_eq_nil_iff {v : Value} :
    (mk types properties isOpen above).violations path v = [] ↔
      typeViolations types path v = [] ∧ propertyViolations path v properties = [] ∧
        (isOpen = false → strangerViolations (properties.map (·.1)) path v = []) ∧
        boundViolations above path v = [] := by
  cases isOpen <;> simp [violations]

theorem propertyViolations_map_eq_nil_iff :
    propertyViolations path (.map m) properties = [] ↔
      ∀ p ∈ properties, ∀ v, m.get? (.text p.1) = some v →
        p.2.violations (path ++ [p.1]) v = [] := by
  induction properties with
  | nil => simp [propertyViolations]
  | cons p properties ih =>
      rw [propertyViolations, List.append_eq_nil_iff, ih, List.forall_mem_cons]
      refine and_congr_left fun _ => ?_
      cases m.get? (.text p.1) <;> simp

theorem strangerViolations_map_eq_nil_iff {names : List String} :
    strangerViolations names path (.map m) = [] ↔ ∀ e ∈ m, ∃ n ∈ names, e.1 = .text n := by
  have hsorted : strangers names m = [] ↔ ∀ e ∈ m, ∃ n ∈ names, e.1 = .text n := by
    rw [strangers, ← List.length_eq_zero_iff, List.length_mergeSort, List.length_eq_zero_iff,
      List.filter_eq_nil_iff]
    simp
  rw [← hsorted, strangerViolations]
  cases strangers names m <;> simp

theorem mem_of_closed (h : (mk types properties false above).violations path (.map m) = [])
    {k : String} (hk : (m.get? (.text k)).isSome = true) : k ∈ properties.map (·.1) := by
  obtain ⟨-, -, hclosed, -⟩ := violations_eq_nil_iff.mp h
  obtain ⟨e, he, hkey⟩ := List.mem_map.mp (Entries.isSome_get?_text_iff.mp hk)
  obtain ⟨n, hn, heq⟩ := strangerViolations_map_eq_nil_iff.mp (hclosed rfl) e he
  rw [hkey] at heq
  cases heq
  exact hn

theorem property_satisfied (h : (mk types properties isOpen above).violations path (.map m) = [])
    {p : String × Schema} (hp : p ∈ properties) {v : Value}
    (hv : m.get? (.text p.1) = some v) : p.2.violations (path ++ [p.1]) v = [] :=
  propertyViolations_map_eq_nil_iff.mp (violations_eq_nil_iff.mp h).2.1 p hp v hv

end Splice.Schema
