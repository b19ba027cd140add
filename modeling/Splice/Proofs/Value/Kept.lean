import Mathlib.Data.List.Forall2
import Splice.Proofs.Value.Objects

namespace Splice

/-! ### What labels stand for -/

variable {store : Label → Objects}

mutual
/-- Every labelled mapping in the object holds what the store has under its label. -/
def Object.Holds (store : Label → Objects) : Object → Prop
  | .scalar _ => True
  | .list os => Object.HoldsItems store os
  | .map l es => (∀ label ∈ l, es = store label) ∧ Entries.Holds store es

def Object.HoldsItems (store : Label → Objects) : List Object → Prop
  | [] => True
  | o :: os => o.Holds store ∧ Object.HoldsItems store os

def Entries.Holds (store : Label → Objects) : Entries Object → Prop
  | [] => True
  | (_, o) :: es => o.Holds store ∧ Entries.Holds store es
end

/-- Mappings of one label hold the same. -/
def Entries.Consistent (m : Objects) : Prop := ∃ store, Entries.Holds store m

theorem Entries.Holds.of_get? {m : Objects} {k : Key} {o : Object} (h : Entries.Holds store m)
    (ho : m.get? k = some o) : o.Holds store := by
  induction m with
  | nil => cases ho
  | cons e m ih =>
      rw [Entries.get?_cons] at ho
      split at ho
      · cases ho
        exact h.1
      · exact ih h.2 ho

/-! ### What a change leaves -/

namespace Value

/-- What may become of a value where `x` is put at places in it: a mapping keeps its keys in their
order, and what they stand for is kept in turn. It gains one key at most, behind the others. -/
inductive Kept (x : Value) : Value → Value → Prop
  | same (v : Value) : Kept x v v
  | put (v : Value) : Kept x v x
  | made (m : Mapping) : Kept x .null (.map m)
  | list {vs vs' : List Value} (items : List.Forall₂ (Kept x) vs vs') :
      Kept x (.list vs) (.list vs')
  | map {m m' : Mapping}
      (keys : m'.map (·.1) = m.map (·.1) ∨
        ∃ s : String, m'.map (·.1) = m.map (·.1) ++ [.text s])
      (entries : ∀ k v v', m.get? k = some v → m'.get? k = some v' → Kept x v v') :
      Kept x (.map m) (.map m')

end Value

open Value (Kept)

variable {x : Value} {label : Label} {n : Objects}

mutual
theorem Object.kept_renewed (h : Kept x (.map (store label).values) (.map n.values)) :
    ∀ o : Object, o.Holds store → Kept x o.value (o.renewed label n).value
  | .scalar k, _ => .same _
  | .list os, ho => .list (Object.kept_renewedItems h os ho)
  | .map l es, ho => by
      by_cases hl : l = some label
      · rw [Object.renewed, if_pos hl, Object.value, Object.value, ho.1 label hl]
        exact h
      · rw [Object.renewed, if_neg hl]
        refine .map (.inl ?_) (Entries.kept_renewed h es ho.2)
        rw [Entries.keys_values, Entries.keys_values]
        exact Entries.keys_after es (some (label, n))

theorem Object.kept_renewedItems (h : Kept x (.map (store label).values) (.map n.values)) :
    ∀ os : List Object, Object.HoldsItems store os →
      List.Forall₂ (Kept x) (Object.valuesOf os) (Object.valuesOf (Object.renewedItems label n os))
  | [], _ => .nil
  | o :: os, ho => .cons (Object.kept_renewed h o ho.1) (Object.kept_renewedItems h os ho.2)

theorem Entries.kept_renewed (h : Kept x (.map (store label).values) (.map n.values)) :
    ∀ m : Objects, m.Holds store → ∀ k v v', m.values.get? k = some v →
      (Entries.renewed label n m).values.get? k = some v' → Kept x v v'
  | [], _ => by
      rintro k v v' ⟨⟩
  | (key, o) :: m, ho => by
      intro k v v' hv hv'
      rw [Entries.values, Entries.get?_cons] at hv
      rw [Entries.renewed, Entries.values, Entries.get?_cons] at hv'
      by_cases hk : key.meaning = k.meaning
      · rw [if_pos hk, Option.some_inj] at hv hv'
        subst hv hv'
        exact Object.kept_renewed h o ho.1
      · rw [if_neg hk] at hv hv'
        exact Entries.kept_renewed h m ho.2 k v v' hv hv'
end

end Splice
