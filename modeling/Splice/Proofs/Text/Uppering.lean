import Splice.Text.Upper

namespace Splice.Text

theorem upperOf_ne_nil (c : Char) : upperOf c ≠ [] := by
  have hall : ∀ e ∈ upperExpansions, e.2 ≠ [] := by decide
  rw [upperOf]
  split
  · rename_i cs hlookup
    obtain ⟨before, after, hsplit, -⟩ := List.lookup_eq_some_iff.mp hlookup
    have hcs : cs ≠ [] := hall _ (hsplit ▸ List.mem_append_right _ List.mem_cons_self)
    exact mt List.map_eq_nil_iff.mp hcs
  · exact List.cons_ne_nil _ _

theorem uppered_ne_empty {s : String} (h : s ≠ "") : uppered s ≠ "" := by
  intro hempty
  have hupper : upper s.toList = [] := by
    simpa [uppered] using congrArg String.toList hempty
  cases hs : s.toList with
  | nil => exact h (String.toList_eq_nil_iff.mp hs)
  | cons c cs =>
      rw [hs, upper, List.flatMap_cons] at hupper
      exact upperOf_ne_nil c (List.append_eq_nil_iff.mp hupper).1

end Splice.Text
