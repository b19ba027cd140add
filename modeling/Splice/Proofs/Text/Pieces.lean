import Splice.Text.Split

namespace Splice.Text

variable {c d : Char} {p : List Char} {ps : List (List Char)}

theorem cut_append (h : c ∉ p) (s : List Char) : cut c (p ++ c :: s) = p :: cut c s := by
  induction p with
  | nil => simp [cut]
  | cons d p ih =>
      obtain ⟨hd, hp⟩ := not_or.mp (mt List.mem_cons.mpr h)
      rw [List.cons_append, cut, if_neg (Ne.symm hd), ih hp, glue]

theorem cut_of_not_mem (h : c ∉ p) : cut c p = [p] := by
  induction p with
  | nil => rfl
  | cons d p ih =>
      obtain ⟨hd, hp⟩ := not_or.mp (mt List.mem_cons.mpr h)
      rw [cut, if_neg (Ne.symm hd), ih hp, glue]

theorem not_mem_of_mem_cut {s : List Char} (h : p ∈ cut c s) : c ∉ p := by
  induction s generalizing p with
  | nil =>
      obtain rfl := List.mem_singleton.mp h
      exact List.not_mem_nil
  | cons d s ih =>
      rw [cut] at h
      split at h
      · rcases List.mem_cons.mp h with rfl | h
        · exact List.not_mem_nil
        · exact ih h
      · rename_i hd
        obtain ⟨first, rest, hcut⟩ := List.exists_cons_of_ne_nil (cut_ne_nil c s)
        rw [hcut] at h ih
        rcases List.mem_cons.mp h with rfl | h
        · exact fun hc => (List.mem_cons.mp hc).elim (fun hcd => hd hcd.symm)
            (ih List.mem_cons_self)
        · exact ih (List.mem_cons_of_mem _ h)

theorem cut_append_cons (c : Char) (p s : List Char) :
    cut c (p ++ c :: s) = cut c p ++ cut c s := by
  induction p with
  | nil => simp [cut]
  | cons d p ih =>
      rw [List.cons_append, cut, cut, ih]
      split
      · rfl
      · obtain ⟨q, qs, hcut⟩ := List.exists_cons_of_ne_nil (cut_ne_nil c p)
        rw [hcut, List.cons_append, glue, glue, List.cons_append]

theorem cut_intercalate (hne : ps ≠ []) (h : ∀ p ∈ ps, c ∉ p) :
    cut c ([c].intercalate ps) = ps := by
  induction ps with
  | nil => exact absurd rfl hne
  | cons p ps ih =>
      obtain ⟨hp, hps⟩ := List.forall_mem_cons.mp h
      cases ps with
      | nil => rw [List.intercalate_singleton, cut_of_not_mem hp]
      | cons q qs =>
          rw [List.intercalate_cons_cons, List.append_assoc, List.singleton_append,
            cut_append hp, ih (List.cons_ne_nil q qs) hps]

theorem join_eq_intercalate (sep : List Char) (ps : List (List Char)) :
    join sep ps = sep.intercalate ps := by
  induction ps with
  | nil => rfl
  | cons p ps ih =>
      cases ps with
      | nil => rw [List.intercalate_singleton]; rfl
      | cons q qs =>
          rw [join, ih, List.intercalate_cons_cons, List.append_assoc]
          exact List.cons_ne_nil q qs

theorem intercalate_cut (c : Char) (s : List Char) : [c].intercalate (cut c s) = s := by
  rw [← join_eq_intercalate, join_cut]

end Splice.Text
