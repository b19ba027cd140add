import Splice.Proofs.Outcome.Results
import Splice.Proofs.Value.Objects
import Splice.Proofs.Value.WellFormed
import Splice.Yaml.Value

namespace Splice.Yaml

open Results
open Value (WellFormed)

variable {α β γ : Type}

theorem both_ok {f : α → β → γ} {x : Except Found α} {y : Except Found β} {c : γ}
    (h : both f x y = .ok c) : ∃ a b, x = .ok a ∧ y = .ok b ∧ f a b = c := by
  cases x with
  | error e => cases y <;> cases h
  | ok a =>
      cases y with
      | error e => cases h
      | ok b => exact ⟨a, b, rfl, rfl, Except.ok.inj h⟩

theorem wellFormed_scalar (k : Key) : WellFormed k.value := by
  cases k with
  | null => exact .null
  | bool b => exact .bool b
  | int i => exact .int i
  | float d => exact .float d
  | moment m => exact .moment m
  | text s => exact .text s

mutual
theorem wellFormed_objectAt {file : String} {depth : Nat} {o : Object} :
    ∀ n : Node, objectAt file depth n = .ok o → WellFormed o.value
  | .alias _, h => by cases h
  | .scalar _ _ _, h => by
      obtain ⟨k, -, rfl⟩ := map_ok_iff.mp h
      exact wellFormed_scalar k
  | .list p items, h => by
      rw [objectAt] at h
      split at h
      · obtain ⟨os, hos, rfl⟩ := map_ok_iff.mp h
        exact .list (wellFormed_itemsAt items hos)
      · cases h
      · cases h
  | .map p entries, h => by
      rw [objectAt] at h
      split at h
      · obtain ⟨es, hes, rfl⟩ := map_ok_iff.mp h
        rw [Object.value, Entries.values_ofList]
        exact .ofList (wellFormed_entriesAt entries hes)
      · cases h
      · cases h

theorem wellFormed_itemsAt {file : String} {depth : Nat} {os : List Object} :
    ∀ ns : List Node, itemsAt file depth ns = .ok os → ∀ v ∈ Object.valuesOf os, WellFormed v
  | [], h => by
      cases h
      exact List.forall_mem_nil _
  | n :: ns, h => by
      rw [itemsAt] at h
      obtain ⟨o, os', ho, hos, rfl⟩ := both_ok h
      exact List.forall_mem_cons.mpr ⟨wellFormed_objectAt n ho, wellFormed_itemsAt ns hos⟩

theorem wellFormed_entriesAt {file : String} {depth : Nat} {es : List (Key × Object)} :
    ∀ ns : List (Node × Node), entriesAt file depth ns = .ok es →
      ∀ e ∈ Entries.values es, WellFormed e.2
  | [], h => by
      cases h
      exact List.forall_mem_nil _
  | (k, n) :: ns, h => by
      rw [entriesAt] at h
      obtain ⟨e, es', he, hes, rfl⟩ := both_ok h
      obtain ⟨key, o, -, ho, rfl⟩ := both_ok he
      exact List.forall_mem_cons.mpr ⟨wellFormed_objectAt n ho, wellFormed_entriesAt ns hes⟩
end

theorem wellFormed_document {file : String} {s : List Char} {o : Object}
    (h : document file s = .ok o) : WellFormed o.value := by
  unfold document at h
  split at h
  · cases h
  · split at h
    · cases h
    · cases h
      exact .null
    · split at h
      · cases h
      · exact wellFormed_objectAt _ (mapError_ok_iff.mp h)

end Splice.Yaml
