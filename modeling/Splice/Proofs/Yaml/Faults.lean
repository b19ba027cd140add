import Splice.Proofs.Outcome.Results
import Splice.Yaml.Value

namespace Splice.Yaml

open Results

variable {α β γ : Type} {e : Fault}

/-- The kinds of what a scalar can be at fault with. -/
def scalarKinds : List Kind := [.value, .key, .index, .overflow, .noAttribute]

theorem value_mem : Kind.value ∈ scalarKinds := by decide

theorem kind_inBase {base : Nat} {text : List Char} (h : inBase base text = .error e) :
    e.kind ∈ scalarKinds := by
  unfold inBase at h
  dsimp only at h
  split at h
  · cases h
    exact value_mem
  · split at h
    · cases h
    · cases h
      exact value_mem

theorem kind_whole {text : List Char} (h : whole text = .error e) : e.kind ∈ scalarKinds := by
  unfold whole at h
  dsimp only at h
  have h := map_error_iff.mp h
  split at h
  · cases h
    decide
  · cases h
  · exact kind_inBase h
  · exact kind_inBase h
  · exact kind_inBase h
  · split at h
    · obtain ⟨place, -, hplace⟩ := mapM_error (map_error_iff.mp h)
      exact kind_inBase hplace
    · exact kind_inBase h

theorem kind_decimal {s : List Char} {e : Fault} (h : decimal s = .error e) :
    e.kind ∈ scalarKinds := by
  unfold decimal at h
  split at h
  · cases h
  · cases h
    exact value_mem

theorem kind_sumSixties {unit : Nat} {sum : Double} {ds : List Double}
    (h : sumSixties unit sum ds = .error e) : e.kind ∈ scalarKinds := by
  induction ds generalizing unit sum with
  | nil => cases h
  | cons d ds ih =>
      rw [sumSixties] at h
      split at h
      · cases h
        decide
      · exact ih h

theorem kind_floating {text : List Char} (h : floating text = .error e) :
    e.kind ∈ scalarKinds := by
  unfold floating at h
  dsimp only at h
  have h := map_error_iff.mp h
  split at h
  · cases h
    decide
  · split at h
    · cases h
    · split at h
      · cases h
      · split at h
        · rcases bind_error_iff.mp h with h | ⟨ds, -, h⟩
          · obtain ⟨place, -, hplace⟩ := mapM_error h
            exact kind_decimal hplace
          · exact kind_sumSixties h
        · exact kind_decimal h

theorem kind_moment {s : List Char} (h : moment s = .error e) : e.kind ∈ scalarKinds := by
  unfold moment at h
  split at h
  · cases h
    exact (by decide : Kind.noAttribute ∈ scalarKinds)
  · split at h
    · cases h
      exact value_mem
    · cases h

theorem kind_scalar {shape : Shape} {s : String}
    (h : scalar shape s = .error (.fault e)) : e.kind ∈ scalarKinds := by
  unfold scalar at h
  split at h
  · cases h
  · cases h
  · obtain ⟨d, hd, hde⟩ := mapError_error_iff.mp h
    cases hde
    have hd := map_error_iff.mp hd
    unfold bool at hd
    dsimp only at hd
    split at hd
    · cases hd
    · cases hd
      exact (by decide : Kind.key ∈ scalarKinds)
  · obtain ⟨d, hd, hde⟩ := mapError_error_iff.mp h
    cases hde
    exact kind_whole (map_error_iff.mp hd)
  · obtain ⟨d, hd, hde⟩ := mapError_error_iff.mp h
    cases hde
    exact kind_floating (map_error_iff.mp hd)
  · obtain ⟨d, hd, hde⟩ := mapError_error_iff.mp h
    cases hde
    exact kind_moment (map_error_iff.mp hd)
  · cases h

theorem both_error {f : α → β → γ} {x : Except Found α} {y : Except Found β} {d : Found}
    (h : both f x y = .error d) : x = .error d ∨ y = .error d := by
  cases x with
  | ok a =>
      cases y with
      | ok b => cases h
      | error d' =>
          cases h
          exact .inr rfl
  | error d' =>
      cases y with
      | ok b =>
          cases h
          exact .inl rfl
      | error d'' =>
          cases h
          split
          · exact .inr rfl
          · exact .inl rfl

theorem kind_keyAt {depth d : Nat} {k : Node} (h : keyAt depth k = .error ⟨d, .fault e⟩) :
    e.kind ∈ scalarKinds := by
  unfold keyAt at h
  split at h
  · split at h
    · cases h
    · obtain ⟨flaw, hflaw, heq⟩ := mapError_error_iff.mp h
      cases heq
      exact kind_scalar hflaw
  · cases h

mutual
theorem kind_objectAt {file : String} {depth d : Nat} :
    ∀ n : Node, objectAt file depth n = .error ⟨d, .fault e⟩ → e.kind ∈ scalarKinds
  | .alias _, h => by cases h
  | .scalar _ _ _, h => by
      obtain ⟨flaw, hflaw, heq⟩ := mapError_error_iff.mp (map_error_iff.mp h)
      cases heq
      exact kind_scalar hflaw
  | .list p items, h => by
      rw [objectAt] at h
      split at h
      · exact kind_itemsAt items (map_error_iff.mp h)
      · cases h
      · cases h
  | .map p entries, h => by
      rw [objectAt] at h
      split at h
      · exact kind_entriesAt entries (map_error_iff.mp h)
      · cases h
      · cases h

theorem kind_itemsAt {file : String} {depth d : Nat} :
    ∀ ns : List Node, itemsAt file depth ns = .error ⟨d, .fault e⟩ → e.kind ∈ scalarKinds
  | [], h => by cases h
  | n :: ns, h => by
      rw [itemsAt] at h
      exact (both_error h).elim (kind_objectAt n) (kind_itemsAt ns)

theorem kind_entriesAt {file : String} {depth d : Nat} :
    ∀ ns : List (Node × Node), entriesAt file depth ns = .error ⟨d, .fault e⟩ →
      e.kind ∈ scalarKinds
  | [], h => by cases h
  | (k, n) :: ns, h => by
      rw [entriesAt] at h
      rcases both_error h with h | h
      · exact (both_error h).elim kind_keyAt (kind_objectAt n)
      · exact kind_entriesAt ns h
end

/-- A document that is well-formed fails only where a scalar does not write what it is taken for. -/
theorem kind_document {file : String} {s : List Char} (h : document file s = .error (.fault e)) :
    e.kind ∈ scalarKinds := by
  unfold document at h
  split at h
  · cases h
  · split at h
    · cases h
    · cases h
    · split at h
      · cases h
      · obtain ⟨⟨d, flaw⟩, hfound, heq⟩ := mapError_error_iff.mp h
        cases heq
        exact kind_objectAt _ hfound

end Splice.Yaml
