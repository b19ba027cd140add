import Splice.Words

namespace Splice.Words

/-- Outside quotes the character belongs to a word and stands for itself. -/
def isBare (c : Char) : Bool := !isSeparator c && c ≠ '\'' && c ≠ '"' && c ≠ '\\'

variable {c : Char} {run rest : List Char}

theorem splitFrom_bare_cons (hc : isBare c = true) (s : List Char) :
    splitFrom .bare (c :: s) = Text.glue c <$> splitFrom .bare s := by
  simp only [isBare, Bool.and_eq_true, Bool.not_eq_true', decide_eq_true_eq] at hc
  simp [splitFrom, hc]

theorem splitFrom_between_cons (hc : isBare c = true) (s : List Char) :
    splitFrom .between (c :: s) = Text.glue c <$> splitFrom .bare s := by
  simp only [isBare, Bool.and_eq_true, Bool.not_eq_true', decide_eq_true_eq] at hc
  simp [splitFrom, hc]

theorem glue_cons (w : List Char) (x : Except Invalid (List (List Char))) :
    Text.glue c <$> (w :: ·) <$> x = ((c :: w) :: ·) <$> x := by
  cases x <;> rfl

theorem splitFrom_bare_append (hrun : ∀ c ∈ run, isBare c = true)
    (hrest : ∀ c ∈ rest.head?, isSeparator c = true) :
    splitFrom .bare (run ++ rest) = (run :: ·) <$> split rest := by
  induction run with
  | nil =>
      cases rest with
      | nil => rfl
      | cons c s =>
          have hc : isSeparator c = true := hrest c rfl
          simp [split, splitFrom, hc]
  | cons c run ih =>
      obtain ⟨hc, hrun⟩ := List.forall_mem_cons.mp hrun
      rw [List.cons_append, splitFrom_bare_cons hc, ih hrun, glue_cons]

theorem split_append (hne : run ≠ []) (hrun : ∀ c ∈ run, isBare c = true)
    (hrest : ∀ c ∈ rest.head?, isSeparator c = true) :
    split (run ++ rest) = (run :: ·) <$> split rest := by
  cases run with
  | nil => exact absurd rfl hne
  | cons c run =>
      obtain ⟨hc, hrun⟩ := List.forall_mem_cons.mp hrun
      rw [split, List.cons_append, splitFrom_between_cons hc, splitFrom_bare_append hrun hrest,
        glue_cons]

end Splice.Words
