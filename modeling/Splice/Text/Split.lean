namespace Splice.Text

def glue (c : Char) : List (List Char) → List (List Char)
  | [] => [[c]]
  | p :: ps => (c :: p) :: ps

/-- The pieces between the occurrences of `sep`; there is always at least one. -/
def cut (sep : Char) : List Char → List (List Char)
  | [] => [[]]
  | c :: s => if c = sep then [] :: cut sep s else glue c (cut sep s)

def join (sep : List Char) : List (List Char) → List Char
  | [] => []
  | [p] => p
  | p :: ps => p ++ sep ++ join sep ps

theorem cut_ne_nil (sep : Char) (s : List Char) : cut sep s ≠ [] := by
  cases s with
  | nil => simp [cut]
  | cons c s =>
    by_cases h : c = sep
    · simp [cut, h]
    · cases hs : cut sep s <;> simp [cut, h, hs, glue]

theorem join_cut (sep : Char) (s : List Char) : join [sep] (cut sep s) = s := by
  induction s with
  | nil => rfl
  | cons c s ih =>
    obtain ⟨p, ps, hp⟩ := List.exists_cons_of_ne_nil (cut_ne_nil sep s)
    rw [hp] at ih
    by_cases h : c = sep
    · simp [cut, h, hp, join, ih]
    · cases ps <;> simp_all [cut, glue, join]

end Splice.Text
