import Splice.Proofs.Text.LineEnds
import Splice.Proofs.Words.Spelled

namespace Splice

namespace Words

theorem mem_enclose {s : List Char} {c : Char} (h : c ∈ enclose s) :
    c ∈ ['\'', '"'] ∨ c ∈ s := by
  rcases List.mem_cons.mp h with rfl | h
  · exact .inl List.mem_cons_self
  · rcases List.mem_append.mp h with h | h
    · obtain ⟨d, hd, hc⟩ := List.mem_flatMap.mp h
      unfold encloseChar at hc
      have hquotes : ∀ c ∈ ['\'', '"', '\'', '"', '\''], c ∈ ['\'', '"'] := by simp
      split at hc
      · exact .inl (hquotes c hc)
      · obtain rfl := List.mem_singleton.mp hc
        exact .inr hd
    · obtain rfl := List.mem_singleton.mp h
      exact .inl List.mem_cons_self

end Words

namespace Directive

/-- The line that includes a target. -/
def write (target : String) : String :=
  String.ofList (keyword ++ ' ' :: Words.enclose target.toList)

theorem ofLine?_write (target : String) :
    ofLine? (write target) = .ok (some ⟨["!include", target]⟩) := by
  have hblank : ∀ c ∈ ([] ++ [] : List Char), Text.isBlank c = true := by simp
  have hkeyword : IsKeyword keyword := rfl
  have hgap : ∀ c ∈ [' '], c = ' ' ∨ c = '\t' := by simp
  have hspelled := ofLine?_spelled target.toList hblank hkeyword (List.cons_ne_nil _ _) hgap
    List.mem_cons_self
  rw [List.nil_append, List.append_nil, String.ofList_toList] at hspelled
  exact hspelled

theorem linesOfFile_write {target ending : String}
    (h : ∀ c ∈ target.toList, c ≠ '\r' ∧ c ≠ '\n') (hending : ending ∈ ["", "\n"]) :
    Text.linesOfFile (write target ++ ending) = [write target] := by
  have hline : ∀ c ∈ (write target).toList, c ≠ '\r' ∧ c ≠ '\n' := by
    intro c hc
    have hfixed : ∀ c ∈ ' ' :: '\'' :: '"' :: keyword, c ≠ '\r' ∧ c ≠ '\n' := by
      have hall : (' ' :: '\'' :: '"' :: keyword).all (fun c => c ≠ '\r' && c ≠ '\n') = true := by
        decide
      intro c hc
      simpa using List.all_eq_true.mp hall c hc
    rw [write, String.toList_ofList] at hc
    rcases List.mem_append.mp hc with hc | hc
    · exact hfixed c (by simp [hc])
    · rcases List.mem_cons.mp hc with rfl | hc
      · decide
      · rcases Words.mem_enclose hc with hc | hc
        · exact hfixed c (List.mem_cons_of_mem _ (List.mem_append_left keyword hc))
        · exact h c hc
  have hne : (write target).toList ≠ [] := by
    rw [write, String.toList_ofList]
    exact List.cons_ne_nil _ _
  have hended := List.mem_map_of_mem (f := String.toList) hending
  rw [Text.linesOfFile, String.toList_append, Text.fileLines_ended hne hline hended,
    List.map_singleton, String.ofList_toList]

end Directive

end Splice
