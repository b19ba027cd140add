import Splice.Path
import Splice.Proofs.Text.Pieces

namespace Splice.Path

variable {s : String} {p q : Path}

/-- A name that stands in a path by itself. -/
def isPart (s : String) : Bool := s ≠ "" && s ≠ "." && !s.toList.contains '/'

theorem isPart_iff : isPart s = true ↔ s ≠ "" ∧ s ≠ "." ∧ '/' ∉ s.toList := by
  simp [isPart, and_assoc]

/-- All names of the path are names by themselves, as those of a path that was read from a text. -/
def Plain (p : Path) : Prop := ∀ s ∈ p.parts, isPart s = true

theorem plain_ofText (s : String) : (ofText s).Plain := by
  intro name h
  obtain ⟨piece, hpiece, rfl⟩ := List.mem_map.mp h
  obtain ⟨hmem, hproper⟩ := List.mem_filter.mp hpiece
  obtain ⟨hempty, hdot⟩ : piece ≠ [] ∧ piece ≠ ['.'] := by simpa using hproper
  refine isPart_iff.mpr ⟨fun h => hempty ?_, fun h => hdot ?_, ?_⟩
  · simpa using congrArg String.toList h
  · simpa using congrArg String.toList h
  · rw [String.toList_ofList]
    exact Text.not_mem_of_mem_cut hmem

theorem toList_intercalate_slash (parts : List String) :
    ("/".intercalate parts).toList = ['/'].intercalate (parts.map String.toList) :=
  String.toList_intercalate

theorem partsOf_slashes (n : Nat) (s : List Char) :
    partsOf (List.replicate n '/' ++ s) = partsOf s := by
  induction n with
  | zero => rfl
  | succ n ih =>
      rw [List.replicate_succ, List.cons_append, ← ih]
      simp [partsOf, Text.cut]

theorem partsOf_intercalate {parts : List String} (h : ∀ s ∈ parts, isPart s = true) :
    partsOf (['/'].intercalate (parts.map String.toList)) = parts := by
  cases parts with
  | nil => rfl
  | cons first rest =>
      have hcut : Text.cut '/' (['/'].intercalate ((first :: rest).map String.toList)) =
          (first :: rest).map String.toList := by
        refine Text.cut_intercalate (by simp) fun piece hpiece => ?_
        obtain ⟨s, hs, rfl⟩ := List.mem_map.mp hpiece
        exact (isPart_iff.mp (h s hs)).2.2
      have hall : ∀ piece ∈ (first :: rest).map String.toList,
          decide (piece ≠ [] ∧ piece ≠ ['.']) = true := by
        intro piece hpiece
        obtain ⟨s, hs, rfl⟩ := List.mem_map.mp hpiece
        obtain ⟨hempty, hdot, -⟩ := isPart_iff.mp (h s hs)
        refine decide_eq_true ⟨fun h => hempty ?_, fun h => hdot ?_⟩
        · exact String.toList_inj.mp h
        · exact String.toList_inj.mp h
      rw [partsOf, hcut, List.filter_eq_self.mpr hall, List.map_map]
      simp

theorem partsOf_part {name : String} (h : isPart name = true) : partsOf name.toList = [name] := by
  simpa using @partsOf_intercalate [name] (by simpa using h)

theorem partsOf_append_cons (s s' : List Char) : partsOf (s ++ '/' :: s') = partsOf s ++ partsOf s' := by
  rw [partsOf, Text.cut_append_cons, List.filter_append, List.map_append]
  rfl

theorem partsOf_append_slash (s : List Char) {name : String} (h : isPart name = true) :
    partsOf (s ++ '/' :: name.toList) = partsOf s ++ [name] := by
  rw [partsOf_append_cons, partsOf_part h]

theorem head_intercalate {parts : List String} (h : ∀ s ∈ parts, isPart s = true) :
    (['/'].intercalate (parts.map String.toList)).head? ≠ some '/' := by
  intro hslash
  cases parts with
  | nil => cases hslash
  | cons first rest =>
      obtain ⟨hempty, -, hfirst⟩ := isPart_iff.mp (h first List.mem_cons_self)
      cases hlist : first.toList with
      | nil => exact hempty (String.toList_inj.mp hlist)
      | cons c cs =>
          have hc : c = '/' := by
            cases rest <;> simpa [hlist] using hslash
          rw [hlist, hc] at hfirst
          exact hfirst List.mem_cons_self

theorem anchorOf_append {s : List Char} (h : s.head? ≠ some '/') (a : Anchor) :
    anchorOf (a.text.toList ++ s) = a := by
  cases s with
  | nil => cases a <;> rfl
  | cons c s =>
      have hc : c ≠ '/' := fun hc => h (by rw [hc]; rfl)
      cases a <;> simp [Anchor.text, anchorOf, hc]

theorem partsOf_append (a : Anchor) (s : List Char) :
    partsOf (a.text.toList ++ s) = partsOf s := by
  cases a with
  | none => rfl
  | root => exact partsOf_slashes 1 s
  | doubleRoot => exact partsOf_slashes 2 s

theorem ofText_text (h : p.Plain) : ofText p.text = p := by
  obtain ⟨anchor, parts⟩ := p
  by_cases hempty : anchor = .none ∧ parts = []
  · obtain ⟨rfl, rfl⟩ := hempty
    decide
  · have htext : (Path.mk anchor parts).text.toList =
        anchor.text.toList ++ ['/'].intercalate (parts.map String.toList) := by
      rw [text, if_neg hempty, String.toList_append, toList_intercalate_slash]
    rw [ofText, htext, anchorOf_append (head_intercalate h), partsOf_append,
      partsOf_intercalate h]

theorem text_inj (hp : p.Plain) (hq : q.Plain) (h : p.text = q.text) : p = q := by
  rw [← ofText_text hp, ← ofText_text hq, h]

end Splice.Path
