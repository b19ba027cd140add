import Splice.Text.Lines

namespace Splice.Text

theorem fileLines_cons {c : Char} (hreturn : c ≠ '\r') (hfeed : c ≠ '\n') (s : List Char) :
    fileLines (c :: s) = glue c (fileLines s) := by
  rw [fileLines]
  · intro _ h
    exact absurd h hreturn
  · exact hreturn
  · exact hfeed

/-- The lines of a file do not tell how their ends were written. -/
theorem fileLines_unifyLineEnds (s : List Char) : fileLines (unifyLineEnds s) = fileLines s := by
  fun_induction unifyLineEnds s with
  | case1 => rfl
  | case2 s ih => rw [fileLines, fileLines, ih]
  | case3 s hs ih =>
      rw [fileLines, fileLines, ih]
      exact hs
  | case4 c s _ hreturn ih =>
      by_cases hfeed : c = '\n'
      · subst hfeed
        rw [fileLines, fileLines, ih]
      · rw [fileLines_cons hreturn hfeed, fileLines_cons hreturn hfeed, ih]

theorem linesOfFile_unifyLineEnds (s : List Char) :
    linesOfFile (String.ofList (unifyLineEnds s)) = linesOfFile (String.ofList s) := by
  rw [linesOfFile, linesOfFile, String.toList_ofList, String.toList_ofList,
    fileLines_unifyLineEnds]

theorem fileLines_ended {s : List Char} (hne : s ≠ []) (hs : ∀ c ∈ s, c ≠ '\r' ∧ c ≠ '\n')
    {ending : List Char} (hending : ending ∈ [[], ['\n']]) : fileLines (s ++ ending) = [s] := by
  induction s with
  | nil => exact absurd rfl hne
  | cons c s ih =>
      obtain ⟨⟨hreturn, hfeed⟩, hs⟩ := List.forall_mem_cons.mp hs
      rw [List.cons_append, fileLines_cons hreturn hfeed]
      cases s with
      | nil =>
          have hrest : fileLines ending = [] ∨ fileLines ending = [[]] := by
            revert ending
            decide
          rw [List.nil_append]
          rcases hrest with h | h <;> rw [h] <;> rfl
      | cons d s =>
          rw [ih (List.cons_ne_nil d s) hs]
          rfl

end Splice.Text
