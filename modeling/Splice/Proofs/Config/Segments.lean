import Mathlib.Data.List.Infix
import Splice.Config.Override

namespace Splice.Override

variable {c : Char} {s rest : List Char} {segs : List (List Char)} {name : String} {names : List String}

/-- What stands between two segments. -/
def mark : List Char := "__".toList

/-- A name and its segments, from the left: each ends at the first mark behind its beginning. -/
inductive Segmented : List Char → List (List Char) → Prop
  | last (s : List Char) (free : ¬mark <:+: s) : Segmented s [s]
  | next (s rest : List Char) (segs : List (List Char)) (first : ¬mark <:+: s ++ ['_'])
      (more : Segmented rest segs) : Segmented (s ++ mark ++ rest) (s :: segs)

/-! ### Marks -/

theorem mark_prefix_iff : mark <+: c :: s ↔ c = '_' ∧ s.head? = some '_' := by
  cases s <;> simp [mark, eq_comm]

theorem mark_infix_cons_iff : mark <:+: c :: s ↔ c = '_' ∧ s.head? = some '_' ∨ mark <:+: s := by
  rw [List.infix_cons_iff, mark_prefix_iff]

theorem head_append_mark (s rest : List Char) : (s ++ mark ++ rest).head? = (s ++ ['_']).head? := by
  cases s <;> rfl

theorem not_infix_concat (hfree : ¬mark <:+: s) (hlast : s.getLast? ≠ some '_') :
    ¬mark <:+: s ++ ['_'] := by
  rw [List.infix_concat_iff, not_or]
  refine ⟨?_, hfree⟩
  rintro ⟨t, ht⟩
  have hs : t ++ ['_'] = s := by
    have hcut : (t ++ ['_']) ++ ['_'] = s ++ ['_'] := by
      rw [List.append_assoc]
      exact ht
    exact List.append_cancel_right hcut
  exact hlast (by rw [← hs, List.getLast?_concat])

/-! ### Segments -/

theorem segments_cons (h : ¬mark <+: c :: s) : segments (c :: s) = Text.glue c (segments s) := by
  rw [segments]
  rintro t rfl rfl
  exact h ⟨t, rfl⟩

theorem segments_of_free (h : ¬mark <:+: s) : segments s = [s] := by
  induction s with
  | nil => rfl
  | cons c s ih =>
      rw [List.infix_cons_iff, not_or] at h
      rw [segments_cons h.1, ih h.2, Text.glue]

theorem segments_append (h : ¬mark <:+: s ++ ['_']) (rest : List Char) :
    segments (s ++ mark ++ rest) = s :: segments rest := by
  induction s with
  | nil => rfl
  | cons c s ih =>
      rw [List.cons_append, mark_infix_cons_iff, not_or, ← head_append_mark s rest,
        ← mark_prefix_iff] at h
      rw [List.cons_append, List.cons_append, segments_cons h.1, ih h.2, Text.glue]

theorem Segmented.segments_eq (h : Segmented s segs) : segments s = segs := by
  induction h with
  | last s free => exact segments_of_free free
  | next s rest segs first _ ih => rw [segments_append first, ih]

theorem Segmented.cons (h : Segmented s segs) (hc : ¬mark <+: c :: s) :
    Segmented (c :: s) (Text.glue c segs) := by
  cases h with
  | last s free =>
      refine .last (c :: s) ?_
      rw [List.infix_cons_iff]
      exact not_or.mpr ⟨hc, free⟩
  | next s rest segs first more =>
      refine .next (c :: s) rest segs ?_ more
      rw [mark_prefix_iff, head_append_mark] at hc
      rw [List.cons_append, mark_infix_cons_iff]
      exact not_or.mpr ⟨hc, first⟩

theorem segmented_segments (s : List Char) : Segmented s (segments s) := by
  induction s using segments.induct with
  | case1 => exact .last [] (by decide)
  | case2 s ih => exact .next [] s (segments s) (by decide) ih
  | case3 c s hmark ih =>
      have hc : ¬mark <+: c :: s := by
        rw [mark_prefix_iff, List.head?_eq_some_iff]
        rintro ⟨rfl, t, rfl⟩
        exact hmark t rfl rfl
      rw [segments_cons hc]
      exact ih.cons hc

theorem Segmented.intercalate_eq (h : Segmented s segs) : mark.intercalate segs = s := by
  induction h with
  | last s => rw [List.intercalate_singleton]
  | next s rest segs _ more ih =>
      cases segs with
      | nil => cases more
      | cons t segs => rw [List.intercalate_cons_cons, ih]

theorem Segmented.free (h : Segmented s segs) : ∀ seg ∈ segs, ¬mark <:+: seg := by
  induction h with
  | last s free => exact List.forall_mem_singleton.mpr free
  | next s rest segs first _ ih =>
      exact List.forall_mem_cons.mpr ⟨fun hs => first (hs.trans (List.infix_append [] s _)), ih⟩

/-- Segments that keep clear of the marks between them are found again. -/
theorem segmented_intercalate (hne : segs ≠ []) (hfree : ∀ s ∈ segs, ¬mark <:+: s)
    (hinner : ∀ s ∈ segs.dropLast, s.getLast? ≠ some '_') : Segmented (mark.intercalate segs) segs := by
  induction segs with
  | nil => exact absurd rfl hne
  | cons s segs ih =>
      obtain ⟨hs, hsegs⟩ := List.forall_mem_cons.mp hfree
      cases segs with
      | nil =>
          rw [List.intercalate_singleton]
          exact .last s hs
      | cons t segs =>
          rw [List.dropLast_cons_cons] at hinner
          obtain ⟨hlast, hinner⟩ := List.forall_mem_cons.mp hinner
          rw [List.intercalate_cons_cons]
          exact .next s _ _ (not_infix_concat hs hlast) (ih (List.cons_ne_nil t segs) hsegs hinner)

/-! ### Names -/

theorem path_of_segments (h : segments name.toList = names.map String.toList) :
    path name = if "" ∈ names then .error (.emptySegment name) else .ok (names.map Text.lowered) := by
  have hempty : (segments name.toList).contains [] = true ↔ "" ∈ names := by
    rw [List.contains_iff_mem, h]
    simp
  have hlower : (segments name.toList).map (fun s => String.ofList (Text.lower s)) =
      names.map Text.lowered := by
    rw [h, List.map_map]
    rfl
  simp only [path, hempty, hlower]

/-- Segments that a name can be made of: none is empty or has a mark inside, and none but the last
ends in a half of one. -/
structure Encodable (names : List String) : Prop where
  ne_nil : names ≠ []
  full : "" ∉ names
  free : ∀ s ∈ names, ¬mark <:+: s.toList
  inner : ∀ s ∈ names.dropLast, s.toList.getLast? ≠ some '_'

theorem Encodable.segmented (h : Encodable names) :
    Segmented ("__".intercalate names).toList (names.map String.toList) := by
  rw [String.toList_intercalate]
  refine segmented_intercalate ?_ ?_ ?_
  · simpa using h.ne_nil
  · simpa using h.free
  · intro s hs
    rw [← List.map_dropLast] at hs
    obtain ⟨t, ht, rfl⟩ := List.mem_map.mp hs
    exact h.inner t ht

theorem Segmented.intercalate_names (h : Segmented name.toList (names.map String.toList)) :
    "__".intercalate names = name := by
  rw [← String.toList_inj, String.toList_intercalate]
  exact h.intercalate_eq

/-- Every name has its segments, which written with marks between them are the name, and stands for
their lower cases unless one of them is empty. Segments that a name can be made of are those of the
name that is made of them, so that no two such lists make the same name. -/
theorem path_faithful :
    (∀ name : String, ∃ names : List String, Segmented name.toList (names.map String.toList)) ∧
      (∀ (name : String) (names : List String), Segmented name.toList (names.map String.toList) →
        "__".intercalate names = name ∧ (∀ s ∈ names, ¬mark <:+: s.toList) ∧
        path name =
          if "" ∈ names then .error (.emptySegment name) else .ok (names.map Text.lowered)) ∧
      (∀ names, Encodable names → path ("__".intercalate names) = .ok (names.map Text.lowered)) ∧
      ∀ names names', Encodable names → Encodable names' →
        "__".intercalate names = "__".intercalate names' → names = names' := by
  refine ⟨?_, ?_, ?_, ?_⟩
  · intro name
    refine ⟨(segments name.toList).map String.ofList, ?_⟩
    have hlists : ((segments name.toList).map String.ofList).map String.toList =
        segments name.toList := by simp
    rw [hlists]
    exact segmented_segments name.toList
  · intro name names h
    refine ⟨h.intercalate_names, ?_, path_of_segments h.segments_eq⟩
    simpa using h.free
  · intro names h
    rw [path_of_segments h.segmented.segments_eq, if_neg h.full]
  · intro names names' h h' hsame
    have hlists : names.map String.toList = names'.map String.toList := by
      rw [← h.segmented.segments_eq, hsame, h'.segmented.segments_eq]
    exact List.map_injective_iff.mpr (fun _ _ => String.toList_inj.mp) hlists

example : path "a_____b" = .error (.emptySegment "a_____b") := rfl

/-- Half a mark at the beginning of a segment and at the end of the last. -/
theorem path_faithful_halves :
    Segmented "A___bC_".toList (["A", "_bC_"].map String.toList) ∧ Encodable ["A", "_bC_"] ∧
      "__".intercalate ["A", "_bC_"] = "A___bC_" ∧
      path ("__".intercalate ["A", "_bC_"]) = .ok ["a", "_bc_"] := by
  have hsegmented : Segmented "A___bC_".toList (["A", "_bC_"].map String.toList) :=
    .next ['A'] "_bC_".toList _ (by decide) (.last _ (by decide))
  have hencodable : Encodable ["A", "_bC_"] := ⟨by decide, by decide, by decide, by decide⟩
  obtain ⟨-, hcut, hmade, -⟩ := path_faithful
  exact ⟨hsegmented, hencodable, (hcut _ _ hsegmented).1, hmade _ hencodable⟩

end Splice.Override
