import Mathlib.Logic.Relation
import Splice.Proofs.Reader.Lines

namespace Splice.Reader

open Outcome Relation

variable {resolve : Resolver} {f g : SourceUnit → Outcome (List Line)}

theorem expandLine_eq_of_ne {e : Fault} (hfg : ∀ u, (f u).result ≠ .error e → g u = f u)
    {origin : Option Path} {number : Nat} {text : String}
    (h : (expandLine resolve f origin number text).result ≠ .error e) :
    expandLine resolve g origin number text = expandLine resolve f origin number text := by
  cases hline : Directive.ofLine? text with
  | error d => rw [expandLine_invalid hline, expandLine_invalid hline]
  | ok words? =>
      cases words? with
      | none => rw [expandLine_own hline, expandLine_own hline]
      | some words =>
          rw [expandLine_directive hline] at h ⊢
          rw [expandLine_directive hline]
          exact bind_eq_of_ne (fun _ => rfl)
            (fun _ _ hu => concat_map_eq_of_ne (fun u _ => hfg u) hu) h

theorem expandLines_eq_of_ne {e : Fault} (hfg : ∀ u, (f u).result ≠ .error e → g u = f u)
    {origin : Option Path} {number : Nat} {lines : List String}
    (h : (expandLines resolve f origin number lines).result ≠ .error e) :
    expandLines resolve g origin number lines = expandLines resolve f origin number lines := by
  induction lines generalizing number with
  | nil => rfl
  | cons text rest ih =>
      rw [expandLines_bind] at h ⊢
      rw [expandLines_bind]
      exact bind_eq_of_ne (expandLine_eq_of_ne hfg)
        (fun a _ ha => bind_eq_of_ne ih (fun _ _ _ => rfl) ha) h

/-- An expansion that does not use up its budget is the same with any larger one. -/
theorem expandWithin_eq_of_le {n m : Nat} (hnm : n ≤ m) {u : SourceUnit}
    (h : (expandWithin resolve n u).result ≠ .error .tooDeep) :
    expandWithin resolve m u = expandWithin resolve n u := by
  induction n generalizing m u with
  | zero => exact absurd rfl h
  | succ n ih =>
      cases m with
      | zero => omega
      | succ m => exact expandLines_eq_of_ne (fun v hv => ih (by omega) hv) h

theorem expandWithin_ne_tooDeep
    (hresolve : ∀ origin words, (resolve origin words).result ≠ .error .tooDeep)
    {rank : SourceUnit → Nat} {n : Nat} {u : SourceUnit}
    (hrank : ∀ v w, ReflTransGen (Includes resolve) u v → Includes resolve v w → rank w < rank v)
    (hn : rank u < n) : (expandWithin resolve n u).result ≠ .error .tooDeep := by
  induction n generalizing u with
  | zero => omega
  | succ n ih =>
      intro h
      obtain ⟨text, htext, hinvalid | ⟨words, hwords, hr | ⟨v, hv, hdeep⟩⟩⟩ := expandLines_error h
      · obtain ⟨line, why, he⟩ := ofLine?_error hinvalid
        cases he
      · exact hresolve _ _ hr
      · have hstep : Includes resolve u v := ⟨text, htext, words, hwords, hv⟩
        have hlt := hrank u v .refl hstep
        exact ih (fun w x hw => hrank w x (.head hstep hw)) (by omega) hdeep

theorem Includes.expanded {n : Nat} {u v : SourceUnit} {out : List Line}
    (h : (expandWithin resolve (n + 1) u).result = .ok out) (huv : Includes resolve u v) :
    ∃ given, (expandWithin resolve n v).result = .ok given := by
  obtain ⟨text, htext, words, hwords, hv⟩ := huv
  exact (expandLines_done h htext hwords).expanded v hv

theorem expanded_of_transGen {n : Nat} {u v : SourceUnit} {out : List Line}
    (h : (expandWithin resolve n u).result = .ok out) (huv : TransGen (Includes resolve) u v) :
    ∃ m < n, ∃ given, (expandWithin resolve m v).result = .ok given := by
  induction huv with
  | single huv =>
      cases n with
      | zero => cases h
      | succ n => exact ⟨n, n.lt_succ_self, huv.expanded h⟩
  | tail _ hvw ih =>
      obtain ⟨m, hm, given, hv⟩ := ih
      cases m with
      | zero => cases hv
      | succ m => exact ⟨m, by omega, hvw.expanded hv⟩

theorem not_ok_of_cycle {n : Nat} {u : SourceUnit} (hu : TransGen (Includes resolve) u u)
    (out : List Line) : (expandWithin resolve n u).result ≠ .ok out := by
  induction n using Nat.strongRecOn generalizing out with
  | ind n ih =>
      intro h
      -- The unit would have to be expanded within its own expansion, with less left.
      obtain ⟨m, hm, given, hgiven⟩ := expanded_of_transGen h hu
      exact ih m hm given hgiven

end Splice.Reader
