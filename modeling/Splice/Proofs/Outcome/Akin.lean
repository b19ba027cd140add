import Mathlib.Data.List.Forall2
import Splice.Proofs.Outcome.Sequence

namespace Splice.Outcome

variable {α β : Type} {x y z : Outcome α}

/-- Both succeed, with the same result and by the same requests, or both fail. -/
inductive Akin (x y : Outcome α) : Prop
  | ok (a : α) (left : x.result = .ok a) (right : y.result = .ok a)
      (requests : x.requests = y.requests)
  | error (d e : Fault) (left : x.result = .error d) (right : y.result = .error e)

theorem Akin.refl (x : Outcome α) : Akin x x := by
  cases h : x.result with
  | ok a => exact .ok a h h rfl
  | error e => exact .error e e h h

theorem Akin.symm (h : Akin x y) : Akin y x := by
  cases h with
  | ok a left right requests => exact .ok a right left requests.symm
  | error d e left right => exact .error e d right left

theorem Akin.trans (hxy : Akin x y) (hyz : Akin y z) : Akin x z := by
  cases hxy with
  | ok a left right requests =>
      cases hyz with
      | ok b left' right' requests' =>
          cases right.symm.trans left'
          exact .ok a left right' (requests.trans requests')
      | error d e left' right' => cases right.symm.trans left'
  | error d e left right =>
      cases hyz with
      | ok b left' right' requests' => cases right.symm.trans left'
      | error d' e' left' right' => exact .error d e' left right'

theorem requests_bind {a : α} (h : x.result = .ok a) (f : α → Outcome β) :
    (x >>= f).requests = x.requests ++ (f a).requests := by
  rw [bind_ok h]
  exact List.filterMap_append

theorem Akin.bind (h : Akin x y) {f g : α → Outcome β} (hfg : ∀ a, Akin (f a) (g a)) :
    Akin (x >>= f) (y >>= g) := by
  cases h with
  | ok a left right requests =>
      cases hfg a with
      | ok b left' right' requests' =>
          refine .ok b (result_bind_ok_iff.mpr ⟨a, left, left'⟩)
            (result_bind_ok_iff.mpr ⟨a, right, right'⟩) ?_
          rw [requests_bind left, requests_bind right, requests, requests']
      | error d e left' right' =>
          exact .error d e (result_bind_error_iff.mpr (.inr ⟨a, left, left'⟩))
            (result_bind_error_iff.mpr (.inr ⟨a, right, right'⟩))
  | error d e left right =>
      exact .error d e (result_bind_error_iff.mpr (.inl left))
        (result_bind_error_iff.mpr (.inl right))

theorem akin_bind_quiet {a : α} (h : x.result = .ok a) (hquiet : x.requests = [])
    (f : α → Outcome β) : Akin (x >>= f) (f a) := by
  cases hf : (f a).result with
  | ok b =>
      refine .ok b (result_bind_ok_iff.mpr ⟨a, h, hf⟩) hf ?_
      rw [requests_bind h, hquiet, List.nil_append]
  | error e => exact .error e e (result_bind_error_iff.mpr (.inr ⟨a, h, hf⟩)) hf

section Concat

variable {u v u' v' : Outcome (List α)}

theorem concat_cons (u : Outcome (List α)) (vs : List (Outcome (List α))) :
    concat (u :: vs) = concat [u, concat vs] := by
  rw [concat, concat, concat_singleton]

theorem concat_pair_error (u : Outcome (List α)) {e : Fault} (h : v.result = .error e) :
    ∃ d, (concat [u, v]).result = .error d := by
  rw [concat, concat_singleton]
  cases hu : u.result with
  | error d => exact ⟨d, result_bind_error_iff.mpr (.inl hu)⟩
  | ok a => exact ⟨e, result_bind_error_iff.mpr (.inr ⟨a, hu, result_bind_error_iff.mpr (.inl h)⟩)⟩

theorem Akin.concat_pair (hu : Akin u u') (hv : Akin v v') :
    Akin (concat [u, v]) (concat [u', v']) := by
  unfold concat
  simp only [concat_singleton]
  exact hu.bind fun a => hv.bind fun b => .refl (pure (a ++ b))

theorem Akin.concat {us vs : List (Outcome (List α))} (h : List.Forall₂ Akin us vs) :
    Akin (Outcome.concat us) (Outcome.concat vs) := by
  induction h with
  | nil => exact .refl _
  | @cons u v us vs hu _ ih =>
      rw [concat_cons u us, concat_cons v vs]
      exact hu.concat_pair ih

end Concat

end Splice.Outcome
