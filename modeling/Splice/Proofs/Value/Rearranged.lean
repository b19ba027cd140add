import Splice.Proofs.Value.Entries
import Splice.Text.Lower

namespace Splice.Mapping

open Entries

/-- The same entries at every depth, in another order. Keys that differ in case only stay in the
order in which they are. -/
inductive Rearranged : Mapping → Mapping → Prop
  | refl (m : Mapping) : Rearranged m m
  | trans {m n o : Mapping} (first : Rearranged m n) (second : Rearranged n o) : Rearranged m o
  | swap {k l : String} (apart : Text.lowered k ≠ Text.lowered l) (v w : Value) (m : Mapping) :
      Rearranged ((.text k, v) :: (.text l, w) :: m) ((.text l, w) :: (.text k, v) :: m)
  | cons (e : Key × Value) {m m' : Mapping} (rest : Rearranged m m') :
      Rearranged (e :: m) (e :: m')
  | nested (k : Key) {n n' : Mapping} (below : Rearranged n n') (m : Mapping) :
      Rearranged ((k, .map n) :: m) ((k, .map n') :: m)

variable {m m' n n' : Mapping} {k l : String}

theorem meaning_ne_of_lowered (h : Text.lowered k ≠ Text.lowered l) :
    (Key.text k).meaning ≠ (Key.text l).meaning := by
  intro hmeaning
  exact h (congrArg Text.lowered (Key.Meaning.text.inj hmeaning))

namespace Rearranged

/-- What two mappings hold at one key: the same, or mappings that are rearranged in turn. -/
def Similar (a b : Option Value) : Prop :=
  a = b ∨ ∃ n n', a = some (.map n) ∧ b = some (.map n') ∧ Rearranged n n'

theorem similar_trans {a b c : Option Value} (hab : Similar a b) (hbc : Similar b c) :
    Similar a c := by
  rcases hab with rfl | ⟨n, n', rfl, rfl, h⟩
  · exact hbc
  · rcases hbc with rfl | ⟨o, o', ho, rfl, h'⟩
    · exact .inr ⟨n, n', rfl, rfl, h⟩
    · cases ho
      exact .inr ⟨n, o', rfl, rfl, h.trans h'⟩

theorem get? (h : Rearranged m m') (key : Key) :
    Similar (Entries.get? m key) (Entries.get? m' key) := by
  induction h with
  | refl => exact .inl rfl
  | trans _ _ ih ih' => exact similar_trans ih ih'
  | @swap k l apart v w m =>
      left
      rw [get?_cons, get?_cons, get?_cons, get?_cons]
      by_cases hk : (Key.text k).meaning = key.meaning
      · have hl : (Key.text l).meaning ≠ key.meaning :=
          fun hl => meaning_ne_of_lowered apart (hk.trans hl.symm)
        rw [if_pos hk, if_neg hl, if_pos hk]
      · rw [if_neg hk, if_neg hk]
  | cons e _ ih =>
      rw [get?_cons, get?_cons]
      by_cases he : e.1.meaning = key.meaning
      · exact .inl (by rw [if_pos he, if_pos he])
      · rw [if_neg he, if_neg he]
        exact ih
  | @nested k n n' below m _ =>
      rw [get?_cons, get?_cons]
      by_cases hk : k.meaning = key.meaning
      · exact .inr ⟨n, n', if_pos hk, if_pos hk, below⟩
      · exact .inl (by rw [if_neg hk, if_neg hk])

theorem insert (h : Rearranged m m') (key : Key) (v : Value) :
    Rearranged (m.insert key v) (m'.insert key v) := by
  induction h with
  | refl m => exact .refl _
  | trans _ _ ih ih' => exact ih.trans ih'
  | @swap k l apart x y m =>
      by_cases hk : (Key.text k).meaning = key.meaning
      · have hl : (Key.text l).meaning ≠ key.meaning :=
          fun hl => meaning_ne_of_lowered apart (hk.trans hl.symm)
        rw [insert_cons_of_eq hk, insert_cons_of_ne hl, insert_cons_of_eq hk]
        exact .swap apart v y m
      · rw [insert_cons_of_ne hk]
        by_cases hl : (Key.text l).meaning = key.meaning
        · rw [insert_cons_of_eq hl, insert_cons_of_eq hl]
          exact .swap apart x v m
        · rw [insert_cons_of_ne hl, insert_cons_of_ne hl, insert_cons_of_ne hk]
          exact .swap apart x y _
  | cons e rest ih =>
      by_cases he : e.1.meaning = key.meaning
      · rw [insert_cons_of_eq he, insert_cons_of_eq he]
        exact .cons _ rest
      · rw [insert_cons_of_ne he, insert_cons_of_ne he]
        exact .cons e ih
  | @nested k n n' below m _ =>
      by_cases hk : k.meaning = key.meaning
      · rw [insert_cons_of_eq hk, insert_cons_of_eq hk]
        exact .refl _
      · rw [insert_cons_of_ne hk, insert_cons_of_ne hk]
        exact .nested k below _

theorem insert_map (h : Rearranged n n') (m : Mapping) (key : Key) :
    Rearranged (m.insert key (.map n)) (m.insert key (.map n')) := by
  induction m with
  | nil => exact .nested key h []
  | cons e m ih =>
      by_cases he : e.1.meaning = key.meaning
      · rw [insert_cons_of_eq he, insert_cons_of_eq he]
        exact .nested e.1 h m
      · rw [insert_cons_of_ne he, insert_cons_of_ne he]
        exact .cons e ih

end Rearranged

/-- It does not matter which of two keys is given its value first, but for their order if both are
new. -/
theorem rearranged_insert_insert (h : Text.lowered k ≠ Text.lowered l) (m : Mapping) (v w : Value) :
    Rearranged ((m.insert (.text k) v).insert (.text l) w)
      ((m.insert (.text l) w).insert (.text k) v) := by
  have hkl := meaning_ne_of_lowered h
  induction m with
  | nil =>
      rw [Entries.insert, Entries.insert, insert_cons_of_ne hkl, insert_cons_of_ne hkl.symm]
      exact .swap h v w []
  | cons e m ih =>
      obtain ⟨key, u⟩ := e
      by_cases hk : key.meaning = (Key.text k).meaning
      · have hl : key.meaning ≠ (Key.text l).meaning := fun hl => hkl (hk.symm.trans hl)
        rw [insert_cons_of_eq hk, insert_cons_of_ne hl, insert_cons_of_ne hl, insert_cons_of_eq hk]
        exact .refl _
      · rw [insert_cons_of_ne hk]
        by_cases hl : key.meaning = (Key.text l).meaning
        · rw [insert_cons_of_eq hl, insert_cons_of_eq hl, insert_cons_of_ne hk]
          exact .refl _
        · rw [insert_cons_of_ne hl, insert_cons_of_ne hl, insert_cons_of_ne hk]
          exact .cons _ ih

end Splice.Mapping
