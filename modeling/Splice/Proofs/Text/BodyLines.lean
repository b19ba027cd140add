import Mathlib.Data.List.DropRight
import Splice.Proofs.Text.LineGrammar

namespace Splice.Text

variable {c : Char} {s : List Char} {ls ps : List (List Char)}

theorem cut_injective (c : Char) : Function.Injective (cut c) := by
  intro s t h
  rw [← join_cut c s, h, join_cut]

theorem cut_replicate_self (c : Char) (k : Nat) :
    cut c (List.replicate k c) = List.replicate (k + 1) [] := by
  induction k with
  | zero => rfl
  | succ k ih => rw [List.replicate_succ, cut, if_pos rfl, ih, ← List.replicate_succ]

theorem cut_append_replicate (c : Char) (s : List Char) (k : Nat) :
    cut c (s ++ List.replicate k c) = cut c s ++ List.replicate k [] := by
  cases k with
  | zero => simp
  | succ k => rw [List.replicate_succ, cut_append_cons, cut_replicate_self]

/-! ### Empty pieces at the end -/

theorem dropTrailingEmpty_concat (ps : List (List Char)) (p : List Char) :
    dropTrailingEmpty (ps ++ [p]) = if p = [] then dropTrailingEmpty ps else ps ++ [p] := by
  have hconcat := List.rdropWhile_concat List.isEmpty ps p
  simp only [List.isEmpty_iff] at hconcat
  exact hconcat

theorem dropTrailingEmpty_append (h : ls.getLast? ≠ some []) (k : Nat) :
    dropTrailingEmpty (ls ++ List.replicate k []) = ls := by
  induction k with
  | zero =>
      rw [List.replicate_zero, List.append_nil]
      rcases List.eq_nil_or_concat' ls with rfl | ⟨ps, p, rfl⟩
      · rfl
      · have hp : p ≠ [] := by simpa using h
        rw [dropTrailingEmpty_concat, if_neg hp]
  | succ k ih =>
      rw [List.replicate_succ', ← List.append_assoc, dropTrailingEmpty_concat, if_pos rfl, ih]

theorem exists_dropTrailingEmpty (ps : List (List Char)) :
    (dropTrailingEmpty ps).getLast? ≠ some [] ∧
      ∃ k, ps = dropTrailingEmpty ps ++ List.replicate k [] := by
  induction ps using List.reverseRecOn with
  | nil => exact ⟨by simp [dropTrailingEmpty], 0, rfl⟩
  | append_singleton ps p ih =>
      rw [dropTrailingEmpty_concat]
      by_cases hp : p = []
      · obtain ⟨hlast, k, hps⟩ := ih
        rw [if_pos hp]
        refine ⟨hlast, k + 1, ?_⟩
        rw [List.replicate_succ', ← List.append_assoc, ← hps, hp]
      · rw [if_neg hp]
        exact ⟨by simpa using hp, 0, by simp⟩

theorem dropTrailingEmpty_dropLastEmpty (ps : List (List Char)) :
    dropTrailingEmpty (dropLastEmpty ps) = dropTrailingEmpty ps := by
  rcases List.eq_nil_or_concat' ps with rfl | ⟨ps, p, rfl⟩
  · rfl
  · by_cases hp : p = [] <;> simp [dropLastEmpty, dropTrailingEmpty_concat, hp]

/-! ### The lines of a body -/

/-- The body is these lines with LF between them, and any number of further LFs. -/
structure Spaced (body : List Char) (ls : List (List Char)) : Prop where
  noFeed : ∀ l ∈ ls, '\n' ∉ l
  last : ls.getLast? ≠ some []
  text : ∃ k, body = ['\n'].intercalate ls ++ List.replicate k '\n'

theorem cut_spaced (hls : ∀ l ∈ ls, '\n' ∉ l) (hne : ls ≠ []) (k : Nat) :
    cut '\n' (['\n'].intercalate ls ++ List.replicate k '\n') = ls ++ List.replicate k [] := by
  rw [cut_append_replicate, cut_intercalate hne hls]

theorem bodyLines_of_mem (h : '\n' ∈ s) : bodyLines s = dropTrailingEmpty (cut '\n' s) :=
  if_pos (List.contains_iff_mem.mpr h)

theorem bodyLines_of_not_mem (h : '\n' ∉ s) : bodyLines s = [s] :=
  if_neg fun hs => h (List.contains_iff_mem.mp hs)

theorem Spaced.bodyLines_eq (h : Spaced s ls) (hs : '\n' ∈ s) : bodyLines s = ls := by
  obtain ⟨hls, hlast, k, rfl⟩ := h
  rw [bodyLines_of_mem hs]
  by_cases hne : ls = []
  · subst hne
    have hempty := dropTrailingEmpty_append hlast (k + 1)
    simpa [cut_replicate_self] using hempty
  · rw [cut_spaced hls hne, dropTrailingEmpty_append hlast]

theorem spaced_bodyLines (hs : '\n' ∈ s) : Spaced s (bodyLines s) := by
  rw [bodyLines_of_mem hs]
  obtain ⟨hlast, k, hk⟩ := exists_dropTrailingEmpty (cut '\n' s)
  have hls : ∀ l ∈ dropTrailingEmpty (cut '\n' s), '\n' ∉ l := by
    intro l hl
    apply not_mem_of_mem_cut (s := s)
    rw [hk]
    exact List.mem_append_left _ hl
  refine ⟨hls, hlast, ?_⟩
  by_cases hne : dropTrailingEmpty (cut '\n' s) = []
  · rw [hne] at hk ⊢
    cases k with
    | zero => exact absurd hk (cut_ne_nil '\n' s)
    | succ k =>
        refine ⟨k, cut_injective '\n' ?_⟩
        rw [hk]
        exact (cut_replicate_self '\n' k).symm
  · refine ⟨k, cut_injective '\n' ?_⟩
    rw [cut_spaced hls hne, ← hk]

theorem bodyLines_eq_iff (hs : '\n' ∈ s) : bodyLines s = ls ↔ Spaced s ls := by
  constructor
  · rintro rfl
    exact spaced_bodyLines hs
  · intro h
    exact h.bodyLines_eq hs

/-! ### Beside the lines of a file -/

theorem bodyLines_eq_dropTrailingEmpty (hreturn : '\r' ∉ s) (hs : '\n' ∈ s) :
    bodyLines s = dropTrailingEmpty (fileLines s) := by
  rw [bodyLines_of_mem hs, fileLines_of_no_return hreturn, dropTrailingEmpty_dropLastEmpty]

theorem bodyLines_eq_fileLines (hreturn : '\r' ∉ s) (hs : '\n' ∉ s) (hne : s ≠ []) :
    bodyLines s = fileLines s := by
  rw [bodyLines_of_not_mem hs, fileLines_of_no_return hreturn, cut_of_not_mem hs, dropLastEmpty]
  simp [hne]

/-! ### Texts -/

theorem linesOfBody_eq_iff {body : String} {ls : List String} :
    linesOfBody body = ls ↔ bodyLines body.toList = ls.map String.toList := by
  rw [linesOfBody]
  constructor
  · rintro rfl
    simp
  · intro h
    simp [h]

theorem rdropWhile_map_ofList (ps : List (List Char)) :
    (ps.map String.ofList).rdropWhile (· = "") = (dropTrailingEmpty ps).map String.ofList := by
  induction ps using List.reverseRecOn with
  | nil => rfl
  | append_singleton ps p ih =>
      rw [List.map_append, List.map_singleton, List.rdropWhile_concat, dropTrailingEmpty_concat, ih]
      by_cases hp : p = [] <;> simp [hp]

theorem feed_mem_intercalate (h : 2 ≤ ls.length) : '\n' ∈ ['\n'].intercalate ls := by
  match ls, h with
  | l :: m :: ls, _ => simp [List.intercalate_cons_cons]

/-- A body with a LF has the lines that it is written from, where the last is not empty and further LFs
may follow; CRs stay in them. Without a CR they are the lines of a file, but for the empty ones at the
end. Lines that are written with LFs between them are read again. -/
theorem linesOfBody_exact :
    (∀ body : String, '\n' ∈ body.toList → ∀ ls : List String,
      linesOfBody body = ls ↔ Spaced body.toList (ls.map String.toList)) ∧
    (∀ body : String, '\r' ∉ body.toList →
      ('\n' ∈ body.toList → linesOfBody body = (linesOfFile body).rdropWhile (· = "")) ∧
      (body ≠ "" → '\n' ∉ body.toList → linesOfBody body = linesOfFile body)) ∧
    ∀ ls : List String, 2 ≤ ls.length → (∀ l ∈ ls, '\n' ∉ l.toList) → ls.getLast? ≠ some "" →
      linesOfBody ("\n".intercalate ls) = ls := by
  refine ⟨?_, ?_, ?_⟩
  · intro body hbody ls
    rw [linesOfBody_eq_iff, bodyLines_eq_iff hbody]
  · intro body hreturn
    refine ⟨fun hbody => ?_, fun hne hbody => ?_⟩
    · rw [linesOfBody, linesOfFile, rdropWhile_map_ofList,
        bodyLines_eq_dropTrailingEmpty hreturn hbody]
    · have hempty : body.toList ≠ [] := mt String.toList_eq_nil_iff.mp hne
      rw [linesOfBody, linesOfFile, bodyLines_eq_fileLines hreturn hbody hempty]
  · intro ls hlength hls hlast
    rw [linesOfBody_eq_iff, String.toList_intercalate]
    apply Spaced.bodyLines_eq
    · refine ⟨by simpa using hls, ?_, 0, by simp⟩
      simpa [List.getLast?_map] using hlast
    · apply feed_mem_intercalate
      simpa using hlength

/-- The empty lines in front and in between are kept, and the CR with them. -/
theorem linesOfBody_exact_blank :
    Spaced "\na\r\n\nb\n\n".toList (["", "a\r", "", "b"].map String.toList) ∧
    linesOfBody "\na\r\n\nb\n\n" = ["", "a\r", "", "b"] ∧
    linesOfBody "\na\n\n" = (linesOfFile "\na\n\n").rdropWhile (· = "") ∧
    linesOfFile "\na\n\n" = ["", "a", ""] ∧
    linesOfBody "a" = linesOfFile "a" ∧
    linesOfBody ("\n".intercalate ["", "a\r", "", "b"]) = ["", "a\r", "", "b"] := by
  have hspaced : Spaced "\na\r\n\nb\n\n".toList (["", "a\r", "", "b"].map String.toList) :=
    ⟨by decide, by decide, 2, rfl⟩
  refine ⟨hspaced, (linesOfBody_exact.1 _ (by decide) _).mpr hspaced,
    (linesOfBody_exact.2.1 _ (by decide)).1 (by decide), rfl,
    (linesOfBody_exact.2.1 _ (by decide)).2 (by decide) (by decide),
    linesOfBody_exact.2.2 _ (by decide) (by decide) (by decide)⟩

end Splice.Text
