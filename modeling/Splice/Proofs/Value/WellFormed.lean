import Splice.Proofs.Value.Entries

namespace Splice

/-- No mapping in the value, at any depth, has a key twice. -/
inductive Value.WellFormed : Value → Prop
  | null : WellFormed .null
  | bool (b : Bool) : WellFormed (.bool b)
  | int (i : Int) : WellFormed (.int i)
  | float (d : Double) : WellFormed (.float d)
  | moment (m : Moment) : WellFormed (.moment m)
  | text (s : String) : WellFormed (.text s)
  | list {vs : List Value} (items : ∀ v ∈ vs, WellFormed v) : WellFormed (.list vs)
  | map {m : Mapping} (distinct : m.Distinct) (values : ∀ e ∈ m, WellFormed e.2) :
      WellFormed (.map m)

theorem Value.wellFormed_map_iff {m : Mapping} :
    WellFormed (.map m) ↔ m.Distinct ∧ ∀ e ∈ m, WellFormed e.2 := by
  refine ⟨fun h => ?_, fun h => .map h.1 h.2⟩
  cases h with
  | map distinct values => exact ⟨distinct, values⟩

namespace Value.WellFormed

variable {m : Mapping} {k : Key} {v : Value}

theorem distinct (h : WellFormed (.map m)) : m.Distinct := (wellFormed_map_iff.mp h).1

theorem of_get? (h : WellFormed (.map m)) (hv : m.get? k = some v) : WellFormed v := by
  obtain ⟨e, he, -, rfl⟩ := Entries.mem_of_get? hv
  exact (wellFormed_map_iff.mp h).2 e he

theorem insert (h : WellFormed (.map m)) (k : Key) (hv : WellFormed v) :
    WellFormed (.map (m.insert k v)) := by
  refine .map (h.distinct.insert k v) ?_
  intro e he
  rcases Entries.mem_insert he with he | rfl
  · exact (wellFormed_map_iff.mp h).2 e he
  · exact hv

theorem foldl_insert {es : List (Key × Value)} (hes : ∀ e ∈ es, WellFormed e.2)
    (h : WellFormed (.map m)) : WellFormed (.map (es.foldl (fun m e => Entries.insert m e.1 e.2) m)) := by
  induction es generalizing m with
  | nil => exact h
  | cons e es ih =>
      obtain ⟨he, hes⟩ := List.forall_mem_cons.mp hes
      exact ih hes (h.insert e.1 he)

theorem ofList {es : List (Key × Value)} (hes : ∀ e ∈ es, WellFormed e.2) :
    WellFormed (.map (Entries.ofList es)) :=
  foldl_insert hes (.map .nil (by simp))

end Value.WellFormed

end Splice
