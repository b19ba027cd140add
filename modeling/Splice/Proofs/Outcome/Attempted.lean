import Splice.Proofs.Outcome.Sequence

namespace Splice.Outcome

variable {α : Type} {f : α → Outcome Unit} {keep : α → Bool} {xs : List α}

/-- The elements that a run over a list comes to: those up to the first that fails, and that one. -/
def attempted (f : α → Outcome Unit) : List α → List α
  | [] => []
  | x :: xs => match (f x).result with
    | .ok _ => x :: attempted f xs
    | .error _ => [x]

theorem attempted_ok {x : α} (h : (f x).result = .ok ()) (xs : List α) :
    attempted f (x :: xs) = x :: attempted f xs := by
  rw [attempted, h]

theorem attempted_error {x : α} {e : Fault} (h : (f x).result = .error e) (xs : List α) :
    attempted f (x :: xs) = [x] := by
  rw [attempted, h]

theorem attempted_sublist (f : α → Outcome Unit) (xs : List α) : (attempted f xs).Sublist xs := by
  induction xs with
  | nil => exact .slnil
  | cons x xs ih =>
      cases hx : (f x).result with
      | ok _ => rw [attempted_ok hx]; exact ih.cons_cons x
      | error e => rw [attempted_error hx]; exact (List.nil_sublist xs).cons_cons x

theorem trace_forM (f : α → Outcome Unit) (xs : List α) :
    (forM xs f).trace = (attempted f xs).flatMap fun x => (f x).trace := by
  induction xs with
  | nil => rfl
  | cons x xs ih =>
      rw [List.forM_cons]
      cases hx : (f x).result with
      | ok _ => rw [attempted_ok hx, bind_ok hx, ih, List.flatMap_cons]
      | error e => rw [attempted_error hx, bind_error hx, List.flatMap_singleton]

theorem units_forM (f : α → Outcome Unit) (xs : List α) :
    (forM xs f).units = (attempted f xs).flatMap fun x => (f x).units := by
  rw [units, trace_forM, List.filterMap_flatMap]
  rfl

theorem records_forM (f : α → Outcome Unit) (xs : List α) :
    (forM xs f).records = (attempted f xs).flatMap fun x => (f x).records := by
  rw [records, trace_forM, List.filterMap_flatMap]
  rfl

/-- Leaving out elements that do not fail changes neither how the run ends nor which of the others it
comes to. -/
theorem attempted_filter (h : ∀ x ∈ xs, keep x = false → (f x).result = .ok ()) :
    attempted f (xs.filter keep) = (attempted f xs).filter keep := by
  induction xs with
  | nil => rfl
  | cons x xs ih =>
      obtain ⟨hx, hxs⟩ := List.forall_mem_cons.mp h
      cases hk : keep x with
      | false =>
          rw [List.filter_cons_of_neg (by simp [hk]), attempted_ok (hx hk),
            List.filter_cons_of_neg (by simp [hk]), ih hxs]
      | true =>
          rw [List.filter_cons_of_pos hk]
          cases hr : (f x).result with
          | ok _ => rw [attempted_ok hr, attempted_ok hr, List.filter_cons_of_pos hk, ih hxs]
          | error e =>
              rw [attempted_error hr, attempted_error hr, List.filter_cons_of_pos hk, List.filter_nil]

theorem result_forM_filter (h : ∀ x ∈ xs, keep x = false → (f x).result = .ok ()) :
    (forM (xs.filter keep) f).result = (forM xs f).result := by
  induction xs with
  | nil => rfl
  | cons x xs ih =>
      obtain ⟨hx, hxs⟩ := List.forall_mem_cons.mp h
      rw [List.forM_cons, result_bind]
      cases hk : keep x with
      | false =>
          rw [List.filter_cons_of_neg (by simp [hk]), ih hxs, hx hk]
          rfl
      | true => rw [List.filter_cons_of_pos hk, List.forM_cons, result_bind, ih hxs]

theorem flatMap_filter_of_nil {β : Type} {h : α → List β}
    (hnil : ∀ x ∈ xs, keep x = false → h x = []) : (xs.filter keep).flatMap h = xs.flatMap h := by
  induction xs with
  | nil => rfl
  | cons x xs ih =>
      obtain ⟨hx, hxs⟩ := List.forall_mem_cons.mp hnil
      rw [List.flatMap_cons]
      cases hk : keep x with
      | false => rw [List.filter_cons_of_neg (by simp [hk]), hx hk, ih hxs, List.nil_append]
      | true => rw [List.filter_cons_of_pos hk, List.flatMap_cons, ih hxs]

end Splice.Outcome
