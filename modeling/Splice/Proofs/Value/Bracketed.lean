import Splice.Value.Coerce

namespace Splice

namespace Json

variable {limit : Option Nat} {c : Char} {s : List Char} {v : Value}

/-- Lists and mappings. -/
inductive Nested : Value → Prop
  | list (vs : List Value) : Nested (.list vs)
  | map (m : Mapping) : Nested (.map m)

theorem nested_of_as {α : Type} {f : α → Value} (hf : ∀ a, Nested (f a)) {r : Reading α}
    (h : r.as f = .ok (v, s)) : Nested v := by
  cases r with
  | error => cases h
  | ok r =>
      obtain ⟨a, rest⟩ := r
      obtain ⟨rfl, -⟩ := Prod.mk.inj (Except.ok.inj h)
      exact hf a

theorem nested_of_readValue (hc : c ∈ ['\x7b', '[']) {fuel : Nat} {rest : List Char}
    (h : readValue limit fuel (c :: s) = .ok (v, rest)) : Nested v := by
  simp only [List.mem_cons, List.not_mem_nil, or_false] at hc
  cases fuel with
  | zero => rcases hc with rfl | rfl <;> cases h
  | succ fuel =>
      rcases hc with rfl | rfl
      · rw [readValue] at h
        split at h
        · cases h
          exact .map []
        · exact nested_of_as (fun _ => .map _) h
      · rw [readValue] at h
        split at h
        · cases h
          exact .list []
        · exact nested_of_as .list h

theorem nested_of_read (hc : c ∈ ['\x7b', '[']) (h : read (c :: s) = .ok v) : Nested v := by
  have hspace : isSpace c = false := by
    simp only [List.mem_cons, List.not_mem_nil, or_false] at hc
    rcases hc with rfl | rfl <;> rfl
  rw [read, readWithin, skipSpace, List.dropWhile_cons_of_neg (by simp [hspace])] at h
  split at h
  · cases h
  · rename_i hvalue
    split at h
    · cases h
      exact nested_of_readValue hc hvalue
    · cases h

end Json

namespace Coerce

variable {s : List Char} {v : Value}

theorem head_of_isBracketed (h : isBracketed s = true) :
    ∃ c t, s = c :: t ∧ c ∈ ['\x7b', '['] := by
  cases s with
  | nil => cases h
  | cons c t =>
      refine ⟨c, t, rfl, ?_⟩
      simp only [isBracketed, List.head?_cons, Option.some.injEq, Bool.or_eq_true,
        Bool.and_eq_true, decide_eq_true_eq] at h
      rcases h with ⟨hc, _⟩ | ⟨hc, _⟩
      · exact hc ▸ List.mem_cons_self
      · exact hc ▸ List.mem_cons_of_mem _ List.mem_cons_self

theorem nested_of_json? (h : json? s = .ok (some v)) : Json.Nested v := by
  unfold json? at h
  split at h
  · rename_i hs
    split at h
    · rename_i hread
      cases h
      obtain ⟨c, t, rfl, hc⟩ := head_of_isBracketed hs
      exact Json.nested_of_read hc hread
    · cases h
    · cases h
  · cases h

end Coerce

end Splice
